import EvoCore.SegmentWaiters

namespace EvoCore.SegmentWaiters
open Runs Tables Plans
open PlanEngine (ExecutionState otherRunning shouldExitExecution)
open PlanSchema (rsplitOnce rsplitOnce_last)

variable {s after : Engine} {j k : Nat} {task other new : Task} {id : PlanId} {notify : Notify}

theorem parseUsize_repr (idx value : Nat) (parsed : parseUsize idx.repr.toList = some value) : value = idx := by
  have digits : idx.repr.toList = Nat.toDigits 10 idx := Nat.toList_repr
  have unsigned : (Nat.toDigits 10 idx).head? ≠ some '+' := by
    intro plus
    have digit := Nat.isDigit_of_mem_toDigits (by decide) (by decide) (List.mem_of_head? plus)
    exact absurd digit (by decide)
  unfold parseUsize at parsed
  rw [digits,if_neg unsigned] at parsed
  simp only [Nat.ofDigitChars_toDigits (by decide : 1 < 10) (by decide : 10 ≤ 10)] at parsed
  split at parsed
  · cases parsed
  · split at parsed
    · split at parsed
      · exact (Option.some.inj parsed).symm
      · cases parsed
    · cases parsed

theorem parse_watchId (planId : PlanId) (idx : Nat) {key : PlanId × Nat}
    (parsed : parseSegmentEndWatchId (segmentEndWatchId planId idx) = some key) : key = (planId,idx) := by
  have apart : '.' ∉ idx.repr.toList := by
    rw [Nat.toList_repr]
    intro member
    have digit := Nat.isDigit_of_mem_toDigits (by decide) (by decide) member
    exact absurd digit (by decide)
  have text : (segmentEndWatchId planId idx).toList = planId.toList ++ '.'::idx.repr.toList := by
    simp [segmentEndWatchId]
  have parts : rsplitOnce '.' (segmentEndWatchId planId idx).toList = some (planId.toList,idx.repr.toList) := by
    rw [text]
    exact rsplitOnce_last planId.toList idx.repr.toList apart
  simp only [parseSegmentEndWatchId,parts,String.ofList_toList] at parsed
  cases made : PlanSchema.PlanId.new planId with
  | error e =>
    rw [made] at parsed
    cases parsed
  | ok named =>
    rw [made] at parsed
    obtain ⟨value,read,rfl⟩ := Option.map_eq_some_iff.mp parsed
    rw [parseUsize_repr idx value read,PlanSchema.planId_new_value made]

def Phase.waiter : Phase → Option (Nat × Notify)
  | .scheduling idx notify => some (idx,notify)
  | .awaiting idx notify => some (idx,notify)
  | .removing idx notify _ => some (idx,notify)
  | _ => none

def Phase.watch : Phase → Option Nat
  | .awaiting idx _ => some idx
  | .removing idx _ true => some idx
  | .unwatching idx => some idx
  | _ => none

def Phase.late : Phase → Option Notify
  | .scheduling _ notify => some notify
  | .awaiting _ notify => some notify
  | _ => none

def Phase.idle : Phase → Bool
  | .entering _ => true
  | .completing => true
  | .ended => true
  | _ => false

def Task.live (task : Task) : Prop := task.entered ∧ task.phase ≠ .ended

-- What holds of one task: its waiter stands in the map, and no stop of its plan is lost on it.
structure TaskOk (s : Engine) (j : Nat) (task : Task) : Prop where
  entered : task.phase.idle ∨ task.entered
  held : ∀ idx notify,task.phase.waiter = some (idx,notify) → get s.waiters (task.plan.id,idx) = some notify ∧ notify.run = j
  early : task.phase.unlisted → s.stopped task.plan.id → .all task.plan.id ∈ s.wakes
  late : ∀ notify,task.phase.late = some notify → s.stopped task.plan.id →
    (get s.permits notify).isSome ∨ (∃ cause,.one notify cause ∈ s.wakes) ∨ .all task.plan.id ∈ s.wakes

structure Waking (s : Engine) : Prop where
  tasks : ∀ (j : Nat) (task : Task),s.tasks[j]? = some task → TaskOk s j task
  apart : ∀ (i j : Nat) (a b : Task),s.tasks[i]? = some a → s.tasks[j]? = some b → a.live → b.live → a.plan.id = b.plan.id → i = j
  owned : ∀ key notify,get s.waiters key = some notify → ∃ task,s.tasks[notify.run]? = some task ∧ task.plan.id = key.1 ∧
    task.phase.waiter = some (key.2,notify)
  watched : ∀ watchId run,get s.watches watchId = some run → ∃ task idx,s.tasks[run]? = some task ∧
    watchId = segmentEndWatchId task.plan.id idx ∧ task.phase.watch = some idx
  permitted : ∀ notify run,get s.permits notify = some (.signal run) → run = notify.run
  found : ∀ notify run,.one notify (.signal run) ∈ s.wakes → run = notify.run
  signals : ∀ watchId run,.signal watchId run ∈ s.wakes → (∃ planId idx,watchId = segmentEndWatchId planId idx) ∧
    ∀ notify,s.signalled watchId = some notify → run = notify.run

theorem idle_ok (idle : task.phase.idle) : TaskOk s j task := by
  have phase := idle
  refine ⟨.inl idle,?_,?_,?_⟩
  · intro idx notify waits
    cases shape : task.phase <;> simp [shape,Phase.idle,Phase.waiter] at phase waits
  · intro unlisted
    cases shape : task.phase <;> simp [shape,Phase.idle,Phase.unlisted] at phase unlisted
  · intro notify waits
    cases shape : task.phase <;> simp [shape,Phase.idle,Phase.late] at phase waits

theorem waiter_live (ok : TaskOk s j task) (waits : task.phase.waiter = some entry) : task.live := by
  rcases ok.entered with idle | entered
  · cases shape : task.phase <;> simp [shape,Phase.idle,Phase.waiter] at idle waits
  · refine ⟨entered,?_⟩
    intro ended
    simp [ended,Phase.waiter] at waits

theorem watch_live (ok : TaskOk s j task) (watches : task.phase.watch = some idx) : task.live := by
  rcases ok.entered with idle | entered
  · cases shape : task.phase <;> simp [shape,Phase.idle,Phase.watch] at idle watches
  · refine ⟨entered,?_⟩
    intro ended
    simp [ended,Phase.watch] at watches

theorem late_waiter {phase : Phase} (late : phase.late = some notify) : ∃ idx,phase.waiter = some (idx,notify) := by
  cases phase <;> simp_all [Phase.late,Phase.waiter]

theorem TaskOk.kept (ok : TaskOk s j task) (state : after.stopped task.plan.id → s.stopped task.plan.id)
    (waiters : ∀ idx,get after.waiters (task.plan.id,idx) = get s.waiters (task.plan.id,idx))
    (permits : ∀ notify,notify.run = j → (get s.permits notify).isSome → (get after.permits notify).isSome)
    (wakes : ∀ wake ∈ s.wakes,wake ∈ after.wakes) : TaskOk after j task := by
  refine ⟨ok.entered,?_,?_,?_⟩
  · intro idx notify waits
    rw [waiters idx]
    exact ok.held idx notify waits
  · intro unlisted stopped
    exact wakes _ (ok.early unlisted (state stopped))
  · intro notify late stopped
    obtain ⟨idx,waits⟩ := late_waiter late
    rcases ok.late notify late (state stopped) with permit | ⟨cause,one⟩ | all
    · exact .inl (permits notify (ok.held idx notify waits).2 permit)
    · exact .inr (.inl ⟨cause,wakes _ one⟩)
    · exact .inr (.inr (wakes _ all))

theorem modify_get (there : s.tasks[j]? = some task) (change : Task → Task) (k : Nat) :
    (s.tasks.modify j change)[k]? = if k = j then some (change task) else s.tasks[k]? := by
  rw [List.getElem?_modify]
  by_cases same : k = j
  · subst same
    simp [there]
  · simp [same,Ne.symm same]

theorem signalled_some {watchId : String} (signalled : s.signalled watchId = some notify) :
    ∃ key,parseSegmentEndWatchId watchId = some key ∧ get s.waiters key = some notify := Option.bind_eq_some_iff.mp signalled

theorem Waking.acts (waking : Waking s) (there : s.tasks[j]? = some task)
    (alone : ∀ (k : Nat) (other : Task),s.tasks[k]? = some other → other.live → other.plan.id = task.plan.id → k = j)
    (tasks : ∀ k : Nat,after.tasks[k]? = if k = j then some new else s.tasks[k]?) (plan : new.plan = task.plan)
    (states : ∀ id,id ≠ task.plan.id → get after.executionStates id = get s.executionStates id)
    (waiters : ∀ key,key.1 ≠ task.plan.id → get after.waiters key = get s.waiters key)
    (permits : ∀ notify,notify.run ≠ j → get after.permits notify = get s.permits notify) (wakes : after.wakes = s.wakes)
    (ok : TaskOk after j new)
    (owned : ∀ idx notify,get after.waiters (task.plan.id,idx) = some notify → notify.run = j ∧ new.phase.waiter = some (idx,notify))
    (watched : ∀ watchId run,get after.watches watchId = some run → (run ≠ j ∧ get s.watches watchId = some run) ∨
      (run = j ∧ ∃ idx,watchId = segmentEndWatchId task.plan.id idx ∧ new.phase.watch = some idx))
    (permitted : ∀ notify run,get after.permits notify = some (.signal run) → get s.permits notify = some (.signal run))
    (signals : ∀ idx notify,get after.waiters (task.plan.id,idx) = some notify → get s.waiters (task.plan.id,idx) = some notify ∨
      ∀ run,.signal (segmentEndWatchId task.plan.id idx) run ∈ s.wakes → run = j) : Waking after := by
  have back : ∀ (k : Nat) (other : Task),after.tasks[k]? = some other → (k = j ∧ other = new) ∨ (k ≠ j ∧ s.tasks[k]? = some other) := by
    intro k other found
    rw [tasks k] at found
    split at found
    · exact .inl ⟨‹_›,(Option.some.inj found).symm⟩
    · exact .inr ⟨‹_›,found⟩
  have keep : ∀ (k : Nat) (other : Task),k ≠ j → s.tasks[k]? = some other → after.tasks[k]? = some other := by
    intro k other apart found
    rw [tasks k,if_neg apart,found]
  have mine : after.tasks[j]? = some new := by rw [tasks j,if_pos rfl]
  constructor
  · intro k other found
    rcases back k other found with ⟨rfl,rfl⟩ | ⟨apart,found⟩
    · exact ok
    · have old := waking.tasks k other found
      by_cases same : other.plan.id = task.plan.id
      · rcases old.entered with idle | entered
        · exact idle_ok idle
        · by_cases ended : other.phase = .ended
          · apply idle_ok
            rw [ended]
            rfl
          · exact absurd (alone k other found ⟨entered,ended⟩ same) apart
      · apply old.kept
        · simp only [Engine.stopped,states other.plan.id same]
          exact id
        · intro idx
          exact waiters _ same
        · intro notify run
          rw [permits notify (run ▸ apart)]
          exact id
        · rw [wakes]
          exact fun _ => id
  · intro i k a b atI atK liveA liveB same
    rcases back i a atI with ⟨rfl,rfl⟩ | ⟨apartI,oldA⟩
    · rcases back k b atK with ⟨rfl,rfl⟩ | ⟨apartK,oldB⟩
      · rfl
      · rw [plan] at same
        exact (alone k b oldB liveB same.symm).symm
    · rcases back k b atK with ⟨rfl,rfl⟩ | ⟨apartK,oldB⟩
      · rw [plan] at same
        exact alone i a oldA liveA same
      · exact waking.apart i k a b oldA oldB liveA liveB same
  · rintro ⟨planId,idx⟩ notify held
    by_cases own : planId = task.plan.id
    · subst own
      obtain ⟨run,waits⟩ := owned idx notify held
      exact ⟨new,run ▸ mine,by rw [plan],waits⟩
    · rw [waiters _ own] at held
      obtain ⟨other,found,named,waits⟩ := waking.owned _ notify held
      have apart : notify.run ≠ j := by
        intro same
        rw [same,there] at found
        cases found
        exact own named.symm
      exact ⟨other,keep _ other apart found,named,waits⟩
  · intro watchId run held
    rcases watched watchId run held with ⟨apart,old⟩ | ⟨rfl,idx,named,watches⟩
    · obtain ⟨other,idx,found,named,watches⟩ := waking.watched watchId run old
      exact ⟨other,idx,keep run other apart found,named,watches⟩
    · exact ⟨new,idx,mine,by rw [plan,named],watches⟩
  · exact fun notify run held => waking.permitted notify run (permitted notify run held)
  · rw [wakes]
    exact waking.found
  · intro watchId run member
    rw [wakes] at member
    obtain ⟨named,own⟩ := waking.signals watchId run member
    refine ⟨named,fun notify signalled => ?_⟩
    obtain ⟨planId,idx,rfl⟩ := named
    obtain ⟨key,parsed,held⟩ := signalled_some signalled
    have old : get s.waiters (planId,idx) = some notify → run = notify.run := by
      intro old
      apply own
      simp only [Engine.signalled,parsed,Option.bind_some,parse_watchId planId idx parsed,old]
    rw [parse_watchId planId idx parsed] at held
    by_cases mine : planId = task.plan.id
    · subst mine
      rcases signals idx notify held with before | clear
      · exact old before
      · rw [clear run member,(owned idx notify held).1]
    · rw [waiters _ mine] at held
      exact old held

theorem Waking.quits (waking : Waking s) (there : s.tasks[j]? = some task) (idle : task.phase.idle)
    (tasks : ∀ k : Nat,after.tasks[k]? = if k = j then some {task with phase := .ended} else s.tasks[k]?)
    (states : ∀ id,after.stopped id → s.stopped id) (waiters : after.waiters = s.waiters) (watches : after.watches = s.watches)
    (permits : after.permits = s.permits) (wakes : after.wakes = s.wakes) : Waking after := by
  have back : ∀ (k : Nat) (other : Task),after.tasks[k]? = some other →
      (k = j ∧ other.phase = .ended) ∨ (k ≠ j ∧ s.tasks[k]? = some other) := by
    intro k other found
    rw [tasks k] at found
    split at found
    · cases Option.some.inj found
      exact .inl ⟨‹_›,rfl⟩
    · exact .inr ⟨‹_›,found⟩
  have keep : ∀ (k : Nat) (other : Task),s.tasks[k]? = some other → other.phase.idle = false → after.tasks[k]? = some other := by
    intro k other found busy
    have apart : k ≠ j := by
      rintro rfl
      rw [there] at found
      cases found
      rw [busy] at idle
      cases idle
    rw [tasks k,if_neg apart,found]
  constructor
  · intro k other found
    rcases back k other found with ⟨_,ended⟩ | ⟨_,old⟩
    · apply idle_ok
      rw [ended]
      rfl
    · apply (waking.tasks k other old).kept (states _)
      · intro idx
        rw [waiters]
      · intro notify _
        rw [permits]
        exact id
      · rw [wakes]
        exact fun _ => id
  · intro i k a b atI atK liveA liveB same
    rcases back i a atI with ⟨_,ended⟩ | ⟨_,oldA⟩
    · exact absurd ended liveA.2
    rcases back k b atK with ⟨_,ended⟩ | ⟨_,oldB⟩
    · exact absurd ended liveB.2
    exact waking.apart i k a b oldA oldB liveA liveB same
  · intro key notify held
    rw [waiters] at held
    obtain ⟨other,found,named,waits⟩ := waking.owned key notify held
    refine ⟨other,keep _ other found ?_,named,waits⟩
    cases shape : other.phase <;> simp [shape,Phase.waiter,Phase.idle] at waits ⊢
  · intro watchId run held
    rw [watches] at held
    obtain ⟨other,idx,found,named,watches_⟩ := waking.watched watchId run held
    refine ⟨other,idx,keep _ other found ?_,named,watches_⟩
    cases shape : other.phase <;> simp [shape,Phase.watch,Phase.idle] at watches_ ⊢
  · rw [permits]
    exact waking.permitted
  · rw [wakes]
    exact waking.found
  · intro watchId run member
    rw [wakes] at member
    simpa only [Engine.signalled,waiters] using waking.signals watchId run member

theorem Waking.alone (waking : Waking s) (there : s.tasks[j]? = some task) (live : task.live) (k : Nat) (other : Task)
    (found : s.tasks[k]? = some other) (alive : other.live) (same : other.plan.id = task.plan.id) : k = j :=
  waking.apart k j other task found there alive live same

theorem Waking.own_waiter (waking : Waking s) (there : s.tasks[j]? = some task)
    (alone : ∀ (k : Nat) (other : Task),s.tasks[k]? = some other → other.live → other.plan.id = task.plan.id → k = j)
    (held : get s.waiters (task.plan.id,idx) = some notify) : notify.run = j ∧ task.phase.waiter = some (idx,notify) := by
  obtain ⟨other,found,named,waits⟩ := waking.owned _ notify held
  have run := alone notify.run other found (waiter_live (waking.tasks _ other found) waits) named
  rw [run,there] at found
  cases found
  exact ⟨run,waits⟩

theorem Waking.own_watch (waking : Waking s) (there : s.tasks[j]? = some task) {watchId : String} {run : Nat}
    (held : get s.watches watchId = some run) : (run ≠ j ∧ get s.watches watchId = some run) ∨
      (run = j ∧ ∃ idx,watchId = segmentEndWatchId task.plan.id idx ∧ task.phase.watch = some idx) := by
  by_cases mine : run = j
  · subst mine
    obtain ⟨other,idx,found,named,watches⟩ := waking.watched watchId run held
    rw [there] at found
    cases found
    exact .inr ⟨rfl,idx,named,watches⟩
  · exact .inl ⟨mine,held⟩

theorem Waking.walks (waking : Waking s) (there : s.tasks[j]? = some task) (live : task.live) (phase : Phase)
    (waiter : phase.waiter = task.phase.waiter) (watch : phase.watch = task.phase.watch)
    (unlisted : phase.unlisted → task.phase.unlisted) (late : ∀ notify,phase.late = some notify → task.phase.late = some notify) :
    Waking (s.moveTo j phase) := by
  have old := waking.tasks j task there
  have alone := waking.alone there live
  refine @Waking.acts s (s.moveTo j phase) j task {task with phase := phase} waking there alone
    (modify_get there ({· with phase := phase})) rfl (fun _ _ => rfl) (fun _ _ => rfl) (fun _ _ => rfl) rfl ?_ ?_ ?_ (fun _ _ held => held)
    (fun _ _ held => .inl held)
  · refine ⟨.inr live.1,?_,?_,?_⟩
    · intro idx notify waits
      exact old.held idx notify (waiter ▸ waits)
    · exact fun early => old.early (unlisted early)
    · exact fun notify awaits => old.late notify (late notify awaits)
  · intro idx notify held
    obtain ⟨run,waits⟩ := waking.own_waiter there alone held
    exact ⟨run,waiter ▸ waits⟩
  · intro watchId run held
    rcases waking.own_watch there held with other | ⟨mine,idx,named,watches⟩
    · exact .inl other
    · exact .inr ⟨mine,idx,named,watch ▸ watches⟩

theorem planPhase_idle (plan : Plan) (idx : Nat) : (planPhase plan idx).idle := by
  unfold planPhase
  split
  · rfl
  · cases plan.onComplete <;> rfl

theorem idle_plain {phase : Phase} (idle : phase.idle) :
    phase.waiter = none ∧ phase.watch = none ∧ phase.unlisted = false ∧ phase.late = none := by
  cases phase <;> simp_all [Phase.idle,Phase.waiter,Phase.watch,Phase.unlisted,Phase.late]

theorem Waking.strolls (waking : Waking s) (there : s.tasks[j]? = some task) (live : task.live) (phase : Phase)
    (before : task.phase.waiter = none ∧ task.phase.watch = none)
    (plain : phase.waiter = none ∧ phase.watch = none ∧ phase.unlisted = false ∧ phase.late = none) : Waking (s.moveTo j phase) := by
  apply waking.walks there live phase
  · rw [before.1,plain.1]
  · rw [before.2,plain.2.1]
  · rw [plain.2.2.1]
    intro early
    cases early
  · rw [plain.2.2.2]
    intro notify late
    cases late

theorem busy_live (ok : TaskOk s j task) (busy : task.phase.idle = false) : task.live := by
  rcases ok.entered with idle | entered
  · rw [busy] at idle
    cases idle
  · refine ⟨entered,?_⟩
    intro ended
    rw [ended] at busy
    cases busy

theorem enter_waking (waking : Waking s) (there : s.tasks[j]? = some task) (entering : task.phase = .entering idx) (segment : PlanSegment)
    (first : task.entered = false → get s.executionStates task.plan.id ≠ some .cancelled →
      ∀ other ∈ s.tasks,other.plan.id = task.plan.id → other.entered → other.phase = .ended) :
    Waking (s.enterSegment j task.plan idx nowMs segment) := by
  unfold Engine.enterSegment
  split
  · refine waking.quits there ?_ (modify_get there ({· with phase := .ended})) (fun _ => id) rfl rfl rfl rfl
    rw [entering]
    rfl
  · rename_i free
    have alone : ∀ (k : Nat) (other : Task),s.tasks[k]? = some other → other.live → other.plan.id = task.plan.id → k = j := by
      cases entered : task.entered with
      | true =>
        apply waking.alone there
        exact ⟨entered,by simp [entering]⟩
      | false =>
        intro k other found live same
        exact absurd (first entered free other (List.mem_of_getElem? found) same live.1) live.2
    have none_ : task.phase.waiter = none ∧ task.phase.watch = none := by
      rw [entering]
      exact ⟨rfl,rfl⟩
    have running : ∀ id,id ≠ task.plan.id →
        get (s.executionStates.insert task.plan.id (.running idx nowMs (segment.duration.deadline nowMs))) id = get s.executionStates id := by
      intro id apart
      rw [get_insert,if_neg apart]
    refine @Waking.acts s _ j task {task with phase := .dispatching idx,entered := true} waking there alone
      (modify_get there fun task => {task with phase := .dispatching idx,entered := true}) rfl running (fun _ _ => rfl) (fun _ _ => rfl) rfl
      ?_ ?_ ?_ (fun _ _ held => held) (fun _ _ held => .inl held)
    · refine ⟨.inr rfl,?_,?_,?_⟩
      · intro idx notify waits
        cases waits
      · intro _ stopped
        simp [Engine.stopped,Engine.setState,shouldExitExecution,ExecutionState.isPreempted] at stopped
      · intro notify awaits
        cases awaits
    · intro idx notify held
      have waits := (waking.own_waiter there alone held).2
      rw [none_.1] at waits
      cases waits
    · intro watchId run held
      rcases waking.own_watch there held with other | ⟨_,idx,_,watches⟩
      · exact .inl other
      · rw [none_.2] at watches
        cases watches

theorem insert_waking (waking : Waking s) (there : s.tasks[j]? = some task) (inserting : task.phase = .inserting idx)
    (clear : ∀ run,.signal (segmentEndWatchId task.plan.id idx) run ∈ s.wakes → run = j) :
    Waking (s.insertWaiter j task.plan.id idx) := by
  have old := waking.tasks j task there
  have live := busy_live old (by rw [inserting]; rfl)
  have alone := waking.alone there live
  refine @Waking.acts s _ j task {task with phase := .scheduling idx ⟨s.nextSerial,j⟩} waking there alone
    (modify_get there ({· with phase := .scheduling idx ⟨s.nextSerial,j⟩})) rfl (fun _ _ => rfl) ?_ (fun _ _ => rfl) rfl
    ?_ ?_ ?_ (fun _ _ held => held) ?_
  · intro key apart
    simp only [Engine.insertWaiter,get_insert]
    rw [if_neg]
    rintro rfl
    exact apart rfl
  · refine ⟨.inr live.1,?_,?_,?_⟩
    · rintro other notify waits
      cases waits
      exact ⟨by simp [Engine.insertWaiter],rfl⟩
    · intro early
      cases early
    · intro notify _ stopped
      exact .inr (.inr (old.early (by rw [inserting]; rfl) stopped))
  · intro other notify held
    simp only [Engine.insertWaiter,get_insert,Prod.mk.injEq,true_and] at held
    split at held
    · rename_i same
      subst same
      cases Option.some.inj held
      exact ⟨rfl,rfl⟩
    · have waits := (waking.own_waiter there alone held).2
      rw [inserting] at waits
      cases waits
  · intro watchId run held
    rcases waking.own_watch there held with other | ⟨_,other,_,watches⟩
    · exact .inl other
    · rw [inserting] at watches
      cases watches
  · intro other notify held
    simp only [Engine.insertWaiter,get_insert,Prod.mk.injEq,true_and] at held
    split at held
    · rename_i same
      subst same
      exact .inr clear
    · exact .inl held

theorem schedule_waking (waking : Waking s) (there : s.tasks[j]? = some task) (scheduling : task.phase = .scheduling idx notify) :
    Waking {s.moveTo j (.awaiting idx notify) with watches := s.watches.insert (segmentEndWatchId task.plan.id idx) j} := by
  have old := waking.tasks j task there
  have live := busy_live old (by rw [scheduling]; rfl)
  have alone := waking.alone there live
  refine @Waking.acts s _ j task {task with phase := .awaiting idx notify} waking there alone
    (modify_get there ({· with phase := .awaiting idx notify})) rfl (fun _ _ => rfl) (fun _ _ => rfl) (fun _ _ => rfl) rfl
    ?_ ?_ ?_ (fun _ _ held => held) (fun _ _ held => .inl held)
  · refine ⟨.inr live.1,?_,?_,?_⟩
    · intro other waiter waits
      exact old.held other waiter (by rw [scheduling]; exact waits)
    · intro early
      cases early
    · intro waiter late
      exact old.late waiter (by rw [scheduling]; exact late)
  · intro other waiter held
    obtain ⟨run,waits⟩ := waking.own_waiter there alone held
    rw [scheduling] at waits
    exact ⟨run,waits⟩
  · intro watchId run held
    simp only [get_insert] at held
    split at held
    · exact .inr ⟨(Option.some.inj held).symm,idx,‹_›,rfl⟩
    · rcases waking.own_watch there held with other | ⟨_,other,_,watches⟩
      · exact .inl other
      · rw [scheduling] at watches
        cases watches

theorem await_waking (waking : Waking s) (there : s.tasks[j]? = some task) (awaiting : task.phase = .awaiting idx notify) :
    Waking {s.moveTo j (.removing idx notify true) with permits := s.permits.erase notify} := by
  have old := waking.tasks j task there
  have live := busy_live old (by rw [awaiting]; rfl)
  have alone := waking.alone there live
  have own := (old.held idx notify (by rw [awaiting]; rfl)).2
  refine @Waking.acts s _ j task {task with phase := .removing idx notify true} waking there alone
    (modify_get there ({· with phase := .removing idx notify true})) rfl (fun _ _ => rfl) (fun _ _ => rfl) ?_ rfl
    ?_ ?_ ?_ ?_ (fun _ _ held => .inl held)
  · intro other apart
    simp only [get_erase]
    rw [if_neg]
    rintro rfl
    exact apart own
  · refine ⟨.inr live.1,?_,?_,?_⟩
    · intro other waiter waits
      exact old.held other waiter (by rw [awaiting]; exact waits)
    · intro early
      cases early
    · intro waiter late
      cases late
  · intro other waiter held
    obtain ⟨run,waits⟩ := waking.own_waiter there alone held
    rw [awaiting] at waits
    exact ⟨run,waits⟩
  · intro watchId run held
    rcases waking.own_watch there held with other | ⟨mine,other,named,watches⟩
    · exact .inl other
    · rw [awaiting] at watches
      exact .inr ⟨mine,other,named,watches⟩
  · intro other run held
    simp only [get_erase] at held
    split at held
    · cases held
    · exact held

theorem remove_waking (waking : Waking s) (there : s.tasks[j]? = some task) (removing : task.phase = .removing idx notify watched) :
    Waking {s.moveTo j (if watched then .unwatching idx else .checking idx) with waiters := s.waiters.erase (task.plan.id,idx)} := by
  have old := waking.tasks j task there
  have live := busy_live old (by rw [removing]; rfl)
  have alone := waking.alone there live
  have after : (if watched then Phase.unwatching idx else .checking idx).waiter = none ∧
      (if watched then Phase.unwatching idx else .checking idx).unlisted = false ∧
      (if watched then Phase.unwatching idx else .checking idx).late = none := by
    cases watched <;> exact ⟨rfl,rfl,rfl⟩
  have none_ : ∀ other waiter,get (s.waiters.erase (task.plan.id,idx)) (task.plan.id,other) ≠ some waiter := by
    intro other waiter held
    simp only [get_erase,Prod.mk.injEq,true_and] at held
    split at held
    · cases held
    · have waits := (waking.own_waiter there alone held).2
      rw [removing] at waits
      cases waits
      exact absurd rfl ‹_›
  refine @Waking.acts s _ j task {task with phase := if watched then .unwatching idx else .checking idx} waking there alone
    (modify_get there ({· with phase := if watched then .unwatching idx else .checking idx})) rfl (fun _ _ => rfl) ?_ (fun _ _ => rfl) rfl
    ?_ ?_ ?_ (fun _ _ held => held) ?_
  · intro key apart
    simp only [get_erase]
    rw [if_neg]
    rintro rfl
    exact apart rfl
  · refine ⟨.inr live.1,?_,?_,?_⟩
    · intro other waiter waits
      rw [after.1] at waits
      cases waits
    · intro early
      rw [after.2.1] at early
      cases early
    · intro waiter late
      rw [after.2.2] at late
      cases late
  · exact fun other waiter held => absurd held (none_ other waiter)
  · intro watchId run held
    rcases waking.own_watch there held with other | ⟨mine,other,named,watches⟩
    · exact .inl other
    · rw [removing] at watches
      cases watched with
      | false => cases watches
      | true => exact .inr ⟨mine,other,named,watches⟩
  · exact fun other waiter held => absurd held (none_ other waiter)

theorem unwatch_waking (waking : Waking s) (there : s.tasks[j]? = some task) (unwatching : task.phase = .unwatching idx) :
    Waking {s.moveTo j (.checking idx) with watches := s.watches.erase (segmentEndWatchId task.plan.id idx)} := by
  have old := waking.tasks j task there
  have live := busy_live old (by rw [unwatching]; rfl)
  have alone := waking.alone there live
  refine @Waking.acts s _ j task {task with phase := .checking idx} waking there alone
    (modify_get there ({· with phase := .checking idx})) rfl (fun _ _ => rfl) (fun _ _ => rfl) (fun _ _ => rfl) rfl
    ?_ ?_ ?_ (fun _ _ held => held) (fun _ _ held => .inl held)
  · refine ⟨.inr live.1,?_,?_,?_⟩
    · intro other waiter waits
      cases waits
    · intro early
      cases early
    · intro waiter late
      cases late
  · intro other waiter held
    have waits := (waking.own_waiter there alone held).2
    rw [unwatching] at waits
    cases waits
  · intro watchId run held
    simp only [get_erase] at held
    split at held
    · cases held
    · rename_i apart
      rcases waking.own_watch there held with other | ⟨_,other,named,watches⟩
      · exact .inl other
      · rw [unwatching] at watches
        cases watches
        exact absurd named apart

-- The end of a run whose stop was seen: nothing else of the plan is live.
theorem cancelled_waking (waking : Waking s) (there : s.tasks[j]? = some task) (cancelling : task.phase = .cancelling) :
    Waking ((s.setState task.plan.id .cancelled).moveTo j .ended) := by
  have old := waking.tasks j task there
  have live := busy_live old (by rw [cancelling]; rfl)
  have alone := waking.alone there live
  refine @Waking.acts s _ j task {task with phase := .ended} waking there alone
    (modify_get there ({· with phase := .ended})) rfl ?_ (fun _ _ => rfl) (fun _ _ => rfl) rfl
    (idle_ok rfl) ?_ ?_ (fun _ _ held => held) (fun _ _ held => .inl held)
  · intro id apart
    simp only [Engine.moveTo,Engine.setState,get_insert,if_neg apart]
  · intro other waiter held
    have waits := (waking.own_waiter there alone held).2
    rw [cancelling] at waits
    cases waits
  · intro watchId run held
    rcases waking.own_watch there held with other | ⟨_,other,_,watches⟩
    · exact .inl other
    · rw [cancelling] at watches
      cases watches

theorem waitPhase_plain (duration : SegmentDuration) (idx : Nat) (dispatched : Bool) :
    (waitPhase duration idx dispatched).waiter = none ∧ (waitPhase duration idx dispatched).watch = none ∧
      (waitPhase duration idx dispatched).late = none := by
  cases duration <;> cases dispatched <;> exact ⟨rfl,rfl,rfl⟩

theorem task_waking (waking : Waking s) (orderly : Orderly s (.taskStep j nowMs outcome)) : Waking (s.executePlan j nowMs outcome) := by
  unfold Engine.executePlan
  cases there : s.tasks[j]? with
  | none => exact waking
  | some task =>
    have order := orderly task there
    have ok := waking.tasks j task there
    cases phase : task.phase with
    | entering idx =>
      simp only [phase] at order ⊢
      cases task.plan.segments[idx]? with
      | none => exact waking
      | some segment => exact enter_waking waking there phase segment order
    | dispatching idx =>
      simp only [phase]
      cases task.plan.segments[idx]? with
      | none => exact waking
      | some segment =>
        obtain ⟨waiter,watch,late⟩ := waitPhase_plain segment.duration idx outcome
        apply waking.walks there (busy_live ok (by rw [phase]; rfl))
        · rw [waiter,phase]
          rfl
        · rw [watch,phase]
          rfl
        · intro _
          rw [phase]
          rfl
        · intro notify awaits
          rw [late] at awaits
          cases awaits
    | inserting idx =>
      simp only [phase] at order ⊢
      exact insert_waking waking there phase order
    | scheduling idx notify =>
      simp only [phase]
      cases outcome with
      | true => exact schedule_waking waking there phase
      | false =>
        apply waking.walks there (busy_live ok (by rw [phase]; rfl))
        · rw [phase]
          rfl
        · rw [phase]
          rfl
        · intro early
          cases early
        · intro other late
          cases late
    | awaiting idx notify =>
      simp only [phase]
      cases get s.permits notify with
      | none => exact waking
      | some cause => exact await_waking waking there phase
    | removing idx notify watched =>
      simp only [phase]
      exact remove_waking waking there phase
    | unwatching idx =>
      simp only [phase]
      exact unwatch_waking waking there phase
    | sleeping idx =>
      simp only [phase]
      apply waking.strolls there (busy_live ok (by rw [phase]; rfl)) (.checking idx) _ ⟨rfl,rfl,rfl,rfl⟩
      rw [phase]
      exact ⟨rfl,rfl⟩
    | checking idx =>
      have plain : task.phase.waiter = none ∧ task.phase.watch = none := by
        rw [phase]
        exact ⟨rfl,rfl⟩
      have live := busy_live ok (by rw [phase]; rfl)
      simp only [phase]
      split
      · exact waking.strolls there live .leaving plain ⟨rfl,rfl,rfl,rfl⟩
      · exact waking.strolls there live _ plain (idle_plain (planPhase_idle task.plan (idx+1)))
    | leaving =>
      have plain : task.phase.waiter = none ∧ task.phase.watch = none := by
        rw [phase]
        exact ⟨rfl,rfl⟩
      have live := busy_live ok (by rw [phase]; rfl)
      simp only [phase]
      split
      · exact waking.strolls there live .ended plain ⟨rfl,rfl,rfl,rfl⟩
      · exact waking.strolls there live .cancelling plain ⟨rfl,rfl,rfl,rfl⟩
    | cancelling =>
      simp only [phase]
      exact cancelled_waking waking there phase
    | completing =>
      simp only [phase]
      refine waking.quits there (by rw [phase]; rfl) (modify_get there ({· with phase := .ended})) ?_ rfl rfl rfl rfl
      intro id
      simp only [Engine.stopped,Engine.moveTo,Engine.setState,get_insert]
      split
      · intro stopped
        simp [shouldExitExecution,ExecutionState.isPreempted] at stopped
      · exact fun stopped => stopped
    | ended =>
      simp only [phase]
      exact waking

theorem stop_waking (waking : Waking s) (id : PlanId) (state : ExecutionState) : Waking (s.stop id state) := by
  refine ⟨?_,waking.apart,waking.owned,waking.watched,waking.permitted,?_,?_⟩
  · intro k other found
    have old := waking.tasks k other found
    by_cases same : other.plan.id = id
    · have sent : .all other.plan.id ∈ (s.stop id state).wakes := List.mem_append_right _ (by rw [same]; exact List.mem_singleton_self _)
      exact ⟨old.entered,old.held,fun _ _ => sent,fun _ _ _ => .inr (.inr sent)⟩
    · apply old.kept
      · simp only [Engine.stopped,Engine.stop,Engine.setState,get_insert,if_neg same]
        exact fun stopped => stopped
      · exact fun _ => rfl
      · exact fun _ _ permit => permit
      · exact fun wake member => List.mem_append_left _ member
  · intro notify run member
    rcases List.mem_append.mp member with old | new
    · exact waking.found notify run old
    · cases List.mem_singleton.mp new
  · intro watchId run member
    rcases List.mem_append.mp member with old | new
    · exact waking.signals watchId run old
    · cases List.mem_singleton.mp new

theorem spawn_waking (waking : Waking s) (fires : List Fire) (plan : Plan) :
    Waking {s with fires := fires,tasks := s.tasks ++ [⟨plan,planPhase plan 0,false⟩]} := by
  have grown : ∀ (k : Nat) (other : Task),s.tasks[k]? = some other → (s.tasks ++ [⟨plan,planPhase plan 0,false⟩])[k]? = some other := by
    intro k other found
    rw [List.getElem?_append_left (List.getElem?_eq_some_iff.mp found).1,found]
  have fresh : ∀ (k : Nat) (other : Task),(s.tasks ++ [⟨plan,planPhase plan 0,false⟩])[k]? = some other → other.live → s.tasks[k]? = some other := by
    intro k other found live
    rcases append_cases found with old | ⟨_,rfl⟩
    · exact old
    · cases live.1
  refine ⟨?_,?_,?_,?_,waking.permitted,waking.found,waking.signals⟩
  · intro k other found
    rcases append_cases found with old | ⟨_,rfl⟩
    · have ok := waking.tasks k other old
      exact ⟨ok.entered,ok.held,ok.early,ok.late⟩
    · exact idle_ok (planPhase_idle plan 0)
  · intro i k a b atI atK liveA liveB same
    exact waking.apart i k a b (fresh i a atI liveA) (fresh k b atK liveB) liveA liveB same
  · intro key notify held
    obtain ⟨other,found,named,waits⟩ := waking.owned key notify held
    exact ⟨other,grown _ other found,named,waits⟩
  · intro watchId run held
    obtain ⟨other,idx,found,named,watches⟩ := waking.watched watchId run held
    exact ⟨other,idx,grown _ other found,named,watches⟩

theorem Waking.fires (waking : Waking s) (fires : List Fire) : Waking {s with fires := fires} := by
  refine ⟨?_,waking.apart,waking.owned,waking.watched,waking.permitted,waking.found,waking.signals⟩
  intro k other found
  have ok := waking.tasks k other found
  exact ⟨ok.entered,ok.held,ok.early,ok.late⟩

theorem fire_waking (waking : Waking s) (i : Nat) (first : PlanId) : Waking (s.firePlanInner i first) := by
  unfold Engine.firePlanInner
  split
  · split
    · exact waking.fires _
    · split
      · exact waking.fires _
      · split
        · exact waking.fires _
        · exact waking.fires _
  · exact (stop_waking waking _ _).fires _
  · exact spawn_waking waking _ _
  · exact waking

theorem mem_waitersOf (s : Engine) (id : PlanId) : notify ∈ s.waitersOf id ↔ ∃ idx,get s.waiters (id,idx) = some notify := by
  simp only [Engine.waitersOf,List.mem_map,List.mem_filter,decide_eq_true_eq]
  constructor
  · rintro ⟨entry,⟨member,own⟩,rfl⟩
    refine ⟨entry.1.2,(entries_get s.waiters).mp ?_⟩
    have key : (id,entry.1.2) = entry.1 := by rw [← own]
    rw [key]
    exact member
  · rintro ⟨idx,held⟩
    exact ⟨⟨(id,idx),notify⟩,⟨(entries_get s.waiters).mpr held,rfl⟩,rfl⟩

theorem other_wake {wakes : List Wake} {item wake : Wake} (there : wakes[k]? = some item) (member : wake ∈ wakes) (apart : wake ≠ item) :
    wake ∈ wakes.eraseIdx k := by
  obtain ⟨i,found⟩ := List.mem_iff_getElem?.mp member
  refine List.mem_eraseIdx_iff_getElem?.mpr ⟨i,?_,found⟩
  rintro rfl
  rw [there] at found
  exact apart (Option.some.inj found).symm

theorem Waking.rewake (waking : Waking s) (permits : Table Notify Cause) (wakes : List Wake)
    (tasks : ∀ (k : Nat) (other : Task),s.tasks[k]? = some other → TaskOk {s with permits := permits,wakes := wakes} k other)
    (permitted : ∀ notify run,get permits notify = some (.signal run) → run = notify.run)
    (found : ∀ notify run,.one notify (.signal run) ∈ wakes → run = notify.run)
    (signals : ∀ watchId run,.signal watchId run ∈ wakes → .signal watchId run ∈ s.wakes ∨ get s.watches watchId = some run) :
    Waking {s with permits := permits,wakes := wakes} := by
  refine ⟨tasks,waking.apart,waking.owned,waking.watched,permitted,found,?_⟩
  intro watchId run member
  rcases signals watchId run member with old | watched
  · exact waking.signals watchId run old
  · -- The task of a live watch is the only live one of its plan, so the waiter is its own.
    obtain ⟨task,idx,there,rfl,watches⟩ := waking.watched watchId run watched
    refine ⟨⟨task.plan.id,idx,rfl⟩,fun notify signalled => ?_⟩
    obtain ⟨key,parsed,held⟩ := signalled_some signalled
    rw [parse_watchId task.plan.id idx parsed] at held
    have live := watch_live (waking.tasks run task there) watches
    exact (waking.own_waiter there (waking.alone there live) held).1.symm

theorem wakeAll_waking (waking : Waking s) (there : s.wakes[k]? = some (.all id))
    (free : ∀ task ∈ s.tasks,task.plan.id = id → task.phase.unlisted → s.stopped id = false) :
    Waking {s with wakes := s.wakes.eraseIdx k ++ (s.waitersOf id).map (.one · .stop)} := by
  refine waking.rewake s.permits _ ?_ waking.permitted ?_ ?_
  · intro j other found
    have ok := waking.tasks j other found
    by_cases own : other.plan.id = id
    · refine ⟨ok.entered,ok.held,?_,?_⟩
      · intro early stopped
        have calm := free other (List.mem_of_getElem? found) own early
        rw [← own] at calm
        rw [Engine.stopped] at calm stopped
        rw [calm] at stopped
        cases stopped
      · intro notify late _
        obtain ⟨idx,waits⟩ := late_waiter late
        have held := (ok.held idx notify waits).1
        rw [own] at held
        exact .inr (.inl ⟨.stop,List.mem_append_right _ (List.mem_map_of_mem ((mem_waitersOf s id).mpr ⟨idx,held⟩))⟩)
    · have stays : Wake.all other.plan.id ∈ s.wakes → Wake.all other.plan.id ∈ s.wakes.eraseIdx k ++ (s.waitersOf id).map (Wake.one · .stop) :=
        fun all => List.mem_append_left _ (other_wake there all (by simpa using own))
      refine ⟨ok.entered,ok.held,fun early stopped => stays (ok.early early stopped),fun notify late stopped => ?_⟩
      rcases ok.late notify late stopped with permit | ⟨cause,one⟩ | all
      · exact .inl permit
      · exact .inr (.inl ⟨cause,List.mem_append_left _ (other_wake there one (by simp))⟩)
      · exact .inr (.inr (stays all))
  · intro notify run member
    rcases List.mem_append.mp member with old | new
    · exact waking.found notify run (List.mem_of_mem_eraseIdx old)
    · obtain ⟨other,_,same⟩ := List.mem_map.mp new
      cases same
  · intro watchId run member
    rcases List.mem_append.mp member with old | new
    · exact .inl (List.mem_of_mem_eraseIdx old)
    · obtain ⟨other,_,same⟩ := List.mem_map.mp new
      cases same

theorem wakeSignal_waking (waking : Waking s) {watchId : String} {run : Nat} (there : s.wakes[k]? = some (.signal watchId run)) :
    Waking {s with wakes := s.wakes.eraseIdx k ++ (s.signalled watchId).toList.map (.one · (.signal run))} := by
  refine waking.rewake s.permits _ ?_ waking.permitted ?_ ?_
  · intro j other found
    have ok := waking.tasks j other found
    have stays : ∀ wake ∈ s.wakes,wake ≠ .signal watchId run →
        wake ∈ s.wakes.eraseIdx k ++ (s.signalled watchId).toList.map (Wake.one · (.signal run)) :=
      fun wake member apart => List.mem_append_left _ (other_wake there member apart)
    refine ⟨ok.entered,ok.held,fun early stopped => stays _ (ok.early early stopped) (by simp),fun notify late stopped => ?_⟩
    rcases ok.late notify late stopped with permit | ⟨cause,one⟩ | all
    · exact .inl permit
    · exact .inr (.inl ⟨cause,stays _ one (by simp)⟩)
    · exact .inr (.inr (stays _ all (by simp)))
  · intro notify run_ member
    rcases List.mem_append.mp member with old | new
    · exact waking.found notify run_ (List.mem_of_mem_eraseIdx old)
    · obtain ⟨other,looked,same⟩ := List.mem_map.mp new
      cases same
      exact (waking.signals watchId run (List.mem_of_getElem? there)).2 notify (Option.mem_toList.mp looked)
  · intro other run_ member
    rcases List.mem_append.mp member with old | new
    · exact .inl (List.mem_of_mem_eraseIdx old)
    · obtain ⟨notify,_,same⟩ := List.mem_map.mp new
      cases same

-- The permit goes to the waiter that has none yet; one that has one keeps its cause.
theorem notifyOne_permits (s : Engine) (notify : Notify) (cause : Cause) :
    ∃ permits,s.notifyOne notify cause = {s with permits := permits} ∧ (∀ other,(get s.permits other).isSome → (get permits other).isSome) ∧
      (get permits notify).isSome ∧ ∀ other given,get permits other = some given → get s.permits other = some given ∨
        (other = notify ∧ given = cause) := by
  unfold Engine.notifyOne
  cases held : get s.permits notify with
  | some given => exact ⟨s.permits,by simp only,fun _ => id,by simp [held],fun _ _ there => .inl there⟩
  | none =>
    refine ⟨s.permits.insert notify cause,by simp only,?_,by simp,?_⟩
    · intro other some_
      rw [get_insert]
      split
      · rfl
      · exact some_
    · intro other given there
      rw [get_insert] at there
      split at there
      · exact .inr ⟨‹_›,(Option.some.inj there).symm⟩
      · exact .inl there

theorem wakeNotify_waking (waking : Waking s) {cause : Cause} (there : s.wakes[k]? = some (.one notify cause)) :
    Waking ({s with wakes := s.wakes.eraseIdx k}.notifyOne notify cause) := by
  obtain ⟨permits,same,grows,mine,from_⟩ := notifyOne_permits {s with wakes := s.wakes.eraseIdx k} notify cause
  simp only [same]
  refine waking.rewake permits _ ?_ ?_ ?_ ?_
  · intro j other found
    have ok := waking.tasks j other found
    have stays : ∀ wake ∈ s.wakes,wake ≠ .one notify cause → wake ∈ s.wakes.eraseIdx k :=
      fun wake member apart => other_wake there member apart
    refine ⟨ok.entered,ok.held,fun early stopped => stays _ (ok.early early stopped) (by simp),fun waiter late stopped => ?_⟩
    rcases ok.late waiter late stopped with permit | ⟨given,one⟩ | all
    · exact .inl (grows waiter permit)
    · by_cases own : waiter = notify ∧ given = cause
      · rw [own.1]
        exact .inl mine
      · refine .inr (.inl ⟨given,stays _ one ?_⟩)
        rintro ⟨⟩
        exact own ⟨rfl,rfl⟩
    · exact .inr (.inr (stays _ all (by simp)))
  · intro other run held
    rcases from_ other (.signal run) held with old | ⟨rfl,rfl⟩
    · exact waking.permitted other run old
    · exact waking.found other run (List.mem_of_getElem? there)
  · exact fun other run member => waking.found other run (List.mem_of_mem_eraseIdx member)
  · exact fun watchId run member => .inl (List.mem_of_mem_eraseIdx member)

theorem wake_waking (waking : Waking s) (orderly : Orderly s (.wakeStep k)) : Waking (s.wakeOne k) := by
  unfold Engine.wakeOne
  cases there : s.wakes[k]? with
  | none => exact waking
  | some item =>
    cases item with
    | all id => exact wakeAll_waking waking there (orderly id there)
    | signal watchId run => exact wakeSignal_waking waking there
    | one notify cause => exact wakeNotify_waking waking there

theorem watch_waking (waking : Waking s) {watchId : String} {run : Nat} (watched : get s.watches watchId = some run) :
    Waking {s with wakes := s.wakes ++ [Wake.signal watchId run]} := by
  refine waking.rewake s.permits _ ?_ waking.permitted ?_ ?_
  · intro j other found
    apply (waking.tasks j other found).kept
    · exact fun stopped => stopped
    · exact fun _ => rfl
    · exact fun _ _ permit => permit
    · exact fun wake member => List.mem_append_left _ member
  · intro notify other member
    rcases List.mem_append.mp member with old | new
    · exact waking.found notify other old
    · cases List.mem_singleton.mp new
  · intro other run_ member
    rcases List.mem_append.mp member with old | new
    · exact .inl old
    · cases List.mem_singleton.mp new
      exact .inr watched

theorem step_waking (s : Engine) (event : EngineEvent) (waking : Waking s) (orderly : Orderly s event) : Waking (s.step event) := by
  cases event with
  | firePlan plan firedAtMs => exact waking.fires _
  | fireStep i first => exact fire_waking waking i first
  | taskStep j nowMs outcome => exact task_waking waking orderly
  | cancelPlan id =>
    simp only [Engine.step,Engine.cancelPlan]
    split
    · exact stop_waking waking id .cancelled
    · exact waking
  | watchFires watchId =>
    simp only [Engine.step]
    cases watched : get s.watches watchId with
    | none => exact waking
    | some run => exact watch_waking waking watched
  | wakeStep k => exact wake_waking waking orderly

theorem start_waking : Waking .start := by
  refine ⟨?_,?_,?_,?_,?_,?_,?_⟩
  · intro j task there
    cases there
  · intro i j a b there
    cases there
  · intro key notify held
    cases held
  · intro watchId run held
    cases held
  · intro notify run held
    cases held
  · intro notify run member
    cases member
  · intro watchId run member
    cases member

theorem waking_none_lost (waking : Waking s) : NoneLost s := by
  intro j task idx notify there awaiting stopped
  have ok := waking.tasks j task there
  rcases ok.late notify (by rw [awaiting]; rfl) stopped with permit | one | all
  · exact .inl permit
  · exact .inr (.inl one)
  · exact .inr (.inr ⟨all,(ok.held idx notify (by rw [awaiting]; rfl)).1⟩)

theorem waking_own_signal (s : Engine) (event : EngineEvent) (waking : Waking s) : OwnSignal s event := by
  cases event with
  | taskStep j nowMs outcome =>
    intro task idx notify run there awaiting permit
    rw [waking.permitted notify run permit]
    exact ((waking.tasks j task there).held idx notify (by rw [awaiting]; rfl)).2
  | _ => trivial

theorem wakes_arrive (events : List EngineEvent) (orderly : Guarded Engine.step Orderly .start events) :
    Throughout Engine.step NoneLost .start events ∧ Guarded Engine.step OwnSignal .start events := by
  constructor
  · have waking := guarded_keeps step_waking start_waking orderly
    exact throughout_prefixes.mpr fun k => waking_none_lost (throughout_prefixes.mp waking k)
  · exact guarded_carries step_waking (fun s event waking _ => waking_own_signal s event waking) start_waking orderly

def orderlyTask (s : Engine) (j : Nat) (task : Task) : Bool :=
  match task.phase with
  | .entering _ => task.entered || decide (get s.executionStates task.plan.id = some .cancelled) ||
      s.tasks.all fun other => decide (other.plan.id ≠ task.plan.id) || !other.entered || decide (other.phase = .ended)
  | .inserting idx => s.wakes.all fun wake =>
      match wake with
      | .signal watchId run => decide (watchId ≠ segmentEndWatchId task.plan.id idx) || decide (run = j)
      | _ => true
  | _ => true

def orderlyNow (s : Engine) : EngineEvent → Bool
  | .wakeStep k => match s.wakes[k]? with
    | some (.all id) => s.tasks.all fun task => decide (task.plan.id ≠ id) || !task.phase.unlisted || !s.stopped id
    | _ => true
  | .taskStep j _ _ => (s.tasks[j]?).all (orderlyTask s j)
  | _ => true

theorem orderlyNow_orderly (s : Engine) (event : EngineEvent) (now : orderlyNow s event) : Orderly s event := by
  cases event with
  | wakeStep k =>
    intro id there task member own early
    simp only [orderlyNow,there,List.all_eq_true] at now
    simpa [own,early] using now task member
  | taskStep j nowMs outcome =>
    intro task there
    simp only [orderlyNow,there,Option.all_some] at now
    cases shape : task.phase with
    | entering idx =>
      intro fresh open_ other member own entered
      simp only [orderlyTask,shape,fresh,open_,decide_false,Bool.or_self,Bool.false_or,List.all_eq_true] at now
      simpa [own,entered] using now other member
    | inserting idx =>
      intro run member
      simp only [orderlyTask,shape,List.all_eq_true] at now
      simpa using now _ member
    | _ => trivial
  | _ => trivial

theorem orderly_run {events : List EngineEvent} (now : Guarded Engine.step (fun s event => orderlyNow s event) .start events) :
    Guarded Engine.step Orderly .start events := by
  have free : ∀ (s : Engine) (event : EngineEvent),True → orderlyNow s event → True := fun _ _ _ _ => trivial
  exact guarded_carries free (fun s event _ met => orderlyNow_orderly s event met) trivial now

def film : Plan := ⟨"film","Film",.userCommand,false,[⟨.untilEvent ⟨["credits"],[],[]⟩⟩],.stop,0⟩
def news : Plan := ⟨"news","News",.userCommand,true,[⟨.duration 60⟩],.stop,0⟩

def starts (i : Nat) (plan : Plan) : List EngineEvent := [.firePlan plan 0,.fireStep i "",.fireStep i ""]
def works (j count : Nat) : List EngineEvent := List.replicate count (.taskStep j 0 true)

-- A stop while the film is awaited, and its wake-up.
def stoppedFilm : List EngineEvent := starts 0 film ++ works 0 4 ++ ([.cancelPlan "film",.wakeStep 0,.wakeStep 0] : List EngineEvent) ++ works 0 6

theorem film_stops :
    Guarded Engine.step Orderly .start stoppedFilm ∧ Throughout Engine.step NoneLost .start stoppedFilm ∧
    Guarded Engine.step OwnSignal .start stoppedFilm ∧ (run Engine.step .start stoppedFilm).tasks.map Task.phase = [.ended] := by
  have orderly : Guarded Engine.step Orderly .start stoppedFilm := orderly_run (by decide)
  obtain ⟨kept,own⟩ := wakes_arrive stoppedFilm orderly
  exact ⟨orderly,kept,own,by decide⟩

-- The stop comes during the dispatch, and finds no waiter to wake.
def deafFilm : List EngineEvent := starts 0 film ++ works 0 1 ++ ([.cancelPlan "film",.wakeStep 0] : List EngineEvent) ++ works 0 3

-- The film's event is seen, but its signal is under way until the film, preempted by the news, has been
-- started once more and awaits the event again.
def filmTwice : List EngineEvent :=
  starts 0 film ++ works 0 4 ++ [EngineEvent.watchFires "film.0"] ++ starts 1 news ++
    ([.fireStep 1 "",.wakeStep 1,.wakeStep 1] : List EngineEvent) ++ works 0 6 ++
    works 1 5 ++ starts 2 film ++ works 2 4 ++ ([.wakeStep 0,.wakeStep 0] : List EngineEvent)

theorem wakes_missed :
    ¬ Throughout Engine.step NoneLost .start deafFilm ∧
    ¬ Guarded Engine.step OwnSignal .start (filmTwice ++ [EngineEvent.taskStep 2 0 true]) ∧
    (run Engine.step .start (filmTwice ++ works 2 4)).tasks.map Task.phase = [.ended,.ended,.completing] := by
  refine ⟨?_,?_,by decide⟩
  · intro kept
    have last : (run Engine.step .start deafFilm).tasks[0]? = some ⟨film,.awaiting 0 ⟨0,0⟩,true⟩ := by decide
    have silent : (get (run Engine.step .start deafFilm).permits ⟨0,0⟩).isSome = false ∧ (run Engine.step .start deafFilm).wakes = [] := by
      decide
    rcases throughout_final kept 0 _ 0 ⟨0,0⟩ last rfl (by decide) with permit | ⟨cause,one⟩ | all
    · rw [silent.1] at permit
      cases permit
    · rw [silent.2] at one
      cases one
    · rw [silent.2] at all
      cases all.1
  · intro own
    have given : (run Engine.step .start filmTwice).tasks[2]? = some ⟨film,.awaiting 0 ⟨1,2⟩,true⟩ ∧
        get (run Engine.step .start filmTwice).permits ⟨1,2⟩ = some (.signal 0) := by decide
    have theirs := (guarded_append.mp own).2.1 _ 0 ⟨1,2⟩ 0 given.1 rfl given.2
    cases theirs

end EvoCore.SegmentWaiters
