import EvoCore.PlanEngine

namespace EvoCore.PlanEngine
open Runs Tables Plans

-- At most one plan runs.
def RunsAlone (s : Engine) : Prop :=
  ∀ a b first second,get s.executionStates a = some first → get s.executionStates b = some second →
    first.isRunning → second.isRunning → a = b

-- A task that was stopped leaves the entry of its plan alone, or marks it cancelled.
def Obeys (s : Engine) (event : EngineEvent) : Prop :=
  ∀ j nowMs first task,event = .taskStep j nowMs first → s.tasks[j]? = some task → task.stopped = true →
    get (s.step event).executionStates task.plan.id = get s.executionStates task.plan.id ∨
      get (s.step event).executionStates task.plan.id = some .cancelled

def Engine.runs (s : Engine) (id : PlanId) : Bool := (get s.executionStates id).any (·.isRunning)

def Engine.preempted (s : Engine) (id : PlanId) : Bool := (get s.executionStates id).any (·.isPreempted)

def Engine.stops (s : Engine) (id : PlanId) : Bool := shouldExitExecution (get s.executionStates id)

def Task.pending (task : Task) : Option (PlanId × Option PlanId) :=
  if task.stage ≠ .ended ∧ task.entered = [] then some (task.plan.id,none) else none

-- The fires between their check for a running plan and the first segment of their task.
def Engine.pending (s : Engine) : List (PlanId × Option PlanId) := s.fires.filterMap Fire.pending++s.tasks.filterMap Task.pending

def Engine.passes (s : Engine) (plan : Plan) : Bool :=
  !s.runs plan.id && (plan.preempt || s.executionStates.entries.all fun e => !e.2.isRunning)

-- No task of the plan is between its last look at the map and what it writes there.
def Undecided (s : Engine) (id : PlanId) : Prop := ∀ task ∈ s.tasks,task.plan.id = id → task.entered ≠ [] → task.stage.decided = false

-- A fire passes its check only while no other is pending and, where its plan was preempted, after the task of
-- that run is over; a stop falls on a plan only while its task is undecided.
def InTurn (s : Engine) : Option Fire → Prop
  | some (.checking plan _) => s.passes plan = true →
    s.pending = [] ∧ (s.preempted plan.id = true → ∀ task ∈ s.tasks,task.executing → task.plan.id ≠ plan.id)
  | some (.stamping _ _ victim _) => Undecided s victim
  | _ => True

def Orderly (s : Engine) : EngineEvent → Prop
  | .fireStep i _ _ => InTurn s s.fires[i]?
  | .cancelPlan id => s.runs id = true → Undecided s id
  | _ => True

-- What a pending fire can rely on: nothing runs but its victim, and no task of its own plan will look at the map.
structure Waits (s : Engine) (own : PlanId) (victim : Option PlanId) : Prop where
  running : ∀ id,s.runs id = true → some id = victim
  apart : some own ≠ victim
  past : ∀ task ∈ s.tasks,task.executing → task.plan.id = own → get s.executionStates own = some .cancelled

def Task.goes (task : Task) : Prop := task.executing ∧ task.stopped = false

structure Single (s : Engine) : Prop where
  alone : ∀ a b,s.runs a = true → s.runs b = true → a = b
  halted : ∀ task ∈ s.tasks,task.stopped = true → task.entered ≠ [] ∧
    (task.stage ≠ .ended → s.stops task.plan.id = true ∧ task.stage.decided = false)
  going : ∀ task ∈ s.tasks,task.goes → s.runs task.plan.id = true
  one : ∀ (i j : Nat) (a b : Task),s.tasks[i]? = some a → s.tasks[j]? = some b → a.goes → b.goes → i = j
  short : s.pending.length ≤ 1
  waits : ∀ e ∈ s.pending,Waits s e.1 e.2

structure Seasoned (s : Engine) : Prop where
  fires : ∀ fire ∈ s.fires,fire.valid
  tasks : ∀ (j : Nat) (task : Task),s.tasks[j]? = some task → (∃ idx,task.stage = .entering idx) ∨ task.stage = .ended ∨ task.entered ≠ []

variable {s : Engine} {j : Nat} {task : Task} {plan : Plan} {segment : PlanSegment} {state : ExecutionState} {id first victim other : PlanId}

theorem halt_stopped (stopped : (task.halt id).stopped = true) : task.stopped = true ∨ (task.plan.id = id ∧ task.executing) := by
  unfold Task.halt at stopped
  split at stopped
  · exact .inr ‹_›
  · exact .inl stopped

@[simp] theorem halt_plan : (task.halt id).plan = task.plan := by
  unfold Task.halt
  split <;> rfl

@[simp] theorem halt_stage : (task.halt id).stage = task.stage := by
  unfold Task.halt
  split <;> rfl

@[simp] theorem halt_entered : (task.halt id).entered = task.entered := by
  unfold Task.halt
  split <;> rfl

theorem planStage_entering (some_ : plan.segments ≠ []) : planStage plan 0 = .entering 0 :=
  if_pos (List.length_pos_iff.mpr some_)

theorem spawn_seasoned (seasoned : Seasoned s) (valid : plan.segments ≠ []) : Seasoned (s.spawn i plan) := by
  constructor
  · intro fire member
    rcases List.mem_or_eq_of_mem_set member with old | rfl
    · exact seasoned.fires fire old
    · trivial
  · intro j task there
    rcases append_cases there with old | ⟨-,rfl⟩
    · exact seasoned.tasks j task old
    · exact .inl ⟨0,planStage_entering valid⟩

theorem stamp_seasoned (seasoned : Seasoned s) : Seasoned (s.stamp id state) := by
  constructor
  · exact seasoned.fires
  · intro j task there
    simp only [Engine.stamp,List.getElem?_map,Option.map_eq_some_iff] at there
    obtain ⟨old,found,rfl⟩ := there
    simpa using seasoned.tasks j old found

theorem modified_seasoned {after : Engine} {change : Task → Task} (seasoned : Seasoned s) (there : s.tasks[j]? = some task)
    (fires : ∀ fire ∈ after.fires,fire ∈ s.fires ∨ fire.valid) (tasks : after.tasks = s.tasks.modify j change)
    (good : (∃ idx,(change task).stage = .entering idx) ∨ (change task).stage = .ended ∨ (change task).entered ≠ []) : Seasoned after := by
  constructor
  · intro fire member
    rcases fires fire member with old | valid
    · exact seasoned.fires fire old
    · exact valid
  · intro k other found
    rw [tasks] at found
    rcases modified found with ⟨-,before⟩ | ⟨old,rfl,before,rfl⟩
    · exact seasoned.tasks k other before
    · rw [there] at before
      cases before
      exact good

theorem step_seasoned (seasoned : Seasoned s) : Seasoned (s.step event) := by
  cases event with
  | register plan =>
    simp only [Engine.step]
    split
    · exact ⟨seasoned.fires,seasoned.tasks⟩
    · exact seasoned
  | unregister id => exact ⟨seasoned.fires,seasoned.tasks⟩
  | firePlan id source =>
    refine ⟨?_,seasoned.tasks⟩
    intro fire member
    rcases List.mem_append.mp member with old | new
    · exact seasoned.fires fire old
    · cases List.mem_singleton.mp new
      trivial
  | fireStep i nowMs first =>
    have move : FireMove s i (s.firePlanInner i nowMs first) := firePlanInner_move
    simp only [Engine.step]
    generalize s.firePlanInner i nowMs first = after at move ⊢
    cases move with
    | rests fires fireLog valid quiet => exact ⟨valid seasoned.fires,seasoned.tasks⟩
    | passes plan firedAtMs victim segmentIdx checking preempt idle apart running =>
      refine ⟨fun fire member => ?_,seasoned.tasks⟩
      rcases List.mem_or_eq_of_mem_set member with old | rfl
      · exact seasoned.fires fire old
      · have valid : (Fire.checking plan firedAtMs).valid := seasoned.fires _ (List.mem_of_getElem? checking)
        exact valid
    | spawns plan firedAtMs checking idle => exact spawn_seasoned seasoned (seasoned.fires _ (List.mem_of_getElem? checking))
    | stamps plan firedAtMs victim segmentIdx stamping =>
      have stamped : Seasoned (s.stamp victim (.preempted segmentIdx plan.id firedAtMs)) := stamp_seasoned seasoned
      exact spawn_seasoned ⟨stamped.fires,stamped.tasks⟩ (seasoned.fires _ (List.mem_of_getElem? stamping))
  | taskStep j nowMs first =>
    simp only [Engine.step]
    cases there : s.tasks[j]? with
    | none =>
      unfold Engine.executePlan
      rw [there]
      exact seasoned
    | some task =>
      have move : TaskMove s j nowMs task (s.executePlan j nowMs first) := executePlan_move there
      generalize s.executePlan j nowMs first = after at move ⊢
      cases move with
      | rests => exact seasoned
      | enters idx segment stage free =>
        refine modified_seasoned seasoned there (fun _ old => .inl old) rfl ?_
        simp
      | refused idx stage cancelled => exact modified_seasoned seasoned there (fun _ old => .inl old) rfl (.inr (.inl rfl))
      | walks after live still entered heeds =>
        refine modified_seasoned seasoned there (fun _ old => .inl old) rfl (.inr (.inr ?_))
        rcases seasoned.tasks j task there with ⟨idx,entering⟩ | ended | some_
        · exact absurd entering (entered idx)
        · exact absurd ended live
        · exact some_
      | leaves stage preempted => exact modified_seasoned seasoned there (fun _ old => .inl old) rfl (.inr (.inl rfl))
      | cancels stage => exact modified_seasoned seasoned there (fun _ old => .inl old) rfl (.inr (.inl rfl))
      | completes next stage =>
        refine modified_seasoned seasoned there ?_ rfl (.inr (.inl rfl))
        intro fire member
        rcases List.mem_append.mp member with old | new
        · exact .inl old
        · obtain ⟨target,-,rfl⟩ := List.mem_map.mp new
          exact .inr trivial
  | cancelPlan id =>
    simp only [Engine.step,Engine.cancelPlan]
    split
    · exact stamp_seasoned seasoned
    · exact seasoned

theorem start_seasoned : Seasoned .start := by
  constructor <;> simp [Engine.start]

theorem Seasoned.executing (seasoned : Seasoned s) (there : s.tasks[j]? = some task) (live : task.stage ≠ .ended)
    (past : ∀ idx,task.stage ≠ .entering idx) : task.executing := by
  rcases seasoned.tasks j task there with ⟨idx,entering⟩ | ended | some_
  · exact absurd entering (past idx)
  · exact absurd ended live
  · exact ⟨live,some_⟩

theorem start_single : Single .start := by
  constructor <;> simp [Engine.start,Engine.runs,Engine.pending]

theorem stops_quiet (stops : s.stops id = true) : s.runs id = false := by
  unfold Engine.stops shouldExitExecution at stops
  unfold Engine.runs
  cases entry : get s.executionStates id with
  | none => rfl
  | some state =>
    rw [entry] at stops
    cases state <;> first | rfl | cases stops

theorem Waits.kept {after : Engine} {own : PlanId} {victim : Option PlanId} (waits : Waits s own victim)
    (fewer : ∀ id,after.runs id = true → s.runs id = true)
    (tasks : ∀ task ∈ after.tasks,task.executing → ∃ old ∈ s.tasks,old.executing ∧ old.plan.id = task.plan.id)
    (entry : get after.executionStates own = get s.executionStates own ∨ get after.executionStates own = some .cancelled) :
    Waits after own victim := by
  refine ⟨fun id runs => waits.running id (fewer id runs),waits.apart,fun task member executing same => ?_⟩
  rcases entry with kept | cancelled
  · obtain ⟨old,there,ran,plan⟩ := tasks task member executing
    rw [kept]
    exact waits.past old there ran (plan.trans same)
  · exact cancelled

theorem modified_executing {change : Task → Task} (there : s.tasks[j]? = some task) (kept : (change task).executing → task.executing)
    (plan : (change task).plan = task.plan) :
    ∀ t ∈ s.tasks.modify j change,t.executing → ∃ old ∈ s.tasks,old.executing ∧ old.plan.id = t.plan.id := by
  intro t member executing
  obtain ⟨k,found⟩ := List.mem_iff_getElem?.mp member
  rcases modified found with ⟨-,before⟩ | ⟨old,rfl,before,rfl⟩
  · exact ⟨t,List.mem_of_getElem? before,executing,rfl⟩
  · rw [there] at before
    cases before
    exact ⟨task,List.mem_of_getElem? there,kept executing,by rw [plan]⟩

theorem pending_fewer {after : Engine} {change : Task → Task} (there : s.tasks[j]? = some task)
    (fires : after.fires.filterMap Fire.pending = s.fires.filterMap Fire.pending) (tasks : after.tasks = s.tasks.modify j change)
    (silent : (change task).pending = none) : after.pending.Sublist s.pending ∧
      after.pending.length+task.pending.toList.length = s.pending.length := by
  have set_ : s.tasks.modify j change = s.tasks.set j (change task) := by
    apply List.ext_getElem?
    intro k
    rw [List.getElem?_modify,List.getElem?_set]
    by_cases same : j = k
    · subst same
      obtain ⟨bound,rfl⟩ := List.getElem?_eq_some_iff.mp there
      simp [bound]
    · simp [same]
  obtain ⟨before,later,was,now⟩ := @set_parts _ _ Task.pending _ _ _ there (change task)
  rw [Engine.pending,Engine.pending,fires,tasks,set_,was,now,silent]
  constructor
  · exact (((List.nil_sublist _).append_left before).append_right later).append_left _
  · simp only [List.length_append,Option.toList_none,List.length_nil]
    omega

-- One task moves; what is left to say is about it and about what it writes.
theorem changed_single {after : Engine} {change : Task → Task} (single : Single s) (there : s.tasks[j]? = some task)
    (tasks : after.tasks = s.tasks.modify j change) (fewer : after.pending.Sublist s.pending) (plan : (change task).plan = task.plan)
    (alone : ∀ a b,after.runs a = true → after.runs b = true → a = b)
    (own : (change task).stopped = true → (change task).entered ≠ [] ∧
      ((change task).stage ≠ .ended → after.stops task.plan.id = true ∧ (change task).stage.decided = false))
    (stops : ∀ (k : Nat) (old : Task),k ≠ j → s.tasks[k]? = some old → s.stops old.plan.id = true → old.executing →
      after.stops old.plan.id = true)
    (runs : (change task).goes → after.runs task.plan.id = true)
    (others : ∀ (k : Nat) (old : Task),k ≠ j → s.tasks[k]? = some old → old.goes → after.runs old.plan.id = true ∧ ¬ (change task).goes)
    (waits : ∀ e ∈ after.pending,e ∈ s.pending → Waits after e.1 e.2) : Single after := by
  constructor
  · exact alone
  · intro t member stopped
    rw [tasks] at member
    obtain ⟨k,found⟩ := List.mem_iff_getElem?.mp member
    rcases modified found with ⟨apart,before⟩ | ⟨old,rfl,before,rfl⟩
    · obtain ⟨entered,live⟩ := single.halted t (List.mem_of_getElem? before) stopped
      exact ⟨entered,fun going => ⟨stops k t (Ne.symm apart) before (live going).1 ⟨going,entered⟩,(live going).2⟩⟩
    · rw [there] at before
      cases before
      rw [plan]
      exact own stopped
  · intro t member goes
    rw [tasks] at member
    obtain ⟨k,found⟩ := List.mem_iff_getElem?.mp member
    rcases modified found with ⟨apart,before⟩ | ⟨old,rfl,before,rfl⟩
    · exact (others k t (Ne.symm apart) before goes).1
    · rw [there] at before
      cases before
      rw [plan]
      exact runs goes
  · intro i k a b one two goes going
    rw [tasks] at one two
    rcases modified one with ⟨apart,before⟩ | ⟨old,rfl,before,rfl⟩
    · rcases modified two with ⟨away,found⟩ | ⟨other,rfl,found,rfl⟩
      · exact single.one i k a b before found goes going
      · rw [there] at found
        cases found
        exact absurd going (others i a (Ne.symm apart) before goes).2
    · rcases modified two with ⟨away,found⟩ | ⟨other,rfl,found,rfl⟩
      · rw [there] at before
        cases before
        exact absurd goes (others k b (Ne.symm away) found going).2
      · rfl
  · exact fewer.length_le.trans single.short
  · exact fun e member => waits e member (fewer.subset member)

theorem Single.alike (single : Single s) (there : s.tasks[j]? = some task) (goes : task.goes) {k : Nat} {old : Task} (apart : k ≠ j)
    (found : s.tasks[k]? = some old) : ¬ old.goes := fun going => apart (single.one k j old task found there going goes)

theorem moveTo_single {after : Stage} (single : Single s) (there : s.tasks[j]? = some task) (live : after ≠ .ended → task.stage ≠ .ended)
    (heeds : task.stopped = true → after ≠ .ended → after.decided = false) (entered : after ≠ .ended → task.entered ≠ []) :
    Single (s.moveTo j after) := by
  have executing : ({task with stage := after} : Task).executing → task.executing := fun ran => ⟨live ran.1,ran.2⟩
  have goes : ({task with stage := after} : Task).goes → task.goes := fun going => ⟨executing going.1,going.2⟩
  have quiet : ({task with stage := after} : Task).pending = none := if_neg fun both => entered both.1 both.2
  have emptied := @pending_fewer s j task (s.moveTo j after) _ there rfl rfl quiet
  refine changed_single single there rfl emptied.1 rfl single.alone ?_ ?_ ?_ ?_ ?_
  · intro stopped
    obtain ⟨entered,halted⟩ := single.halted task (List.mem_of_getElem? there) stopped
    exact ⟨entered,fun going => ⟨(halted (live going)).1,heeds stopped going⟩⟩
  · exact fun _ _ _ _ stops _ => stops
  · exact fun going => single.going task (List.mem_of_getElem? there) (goes going)
  · exact fun k old apart found going => ⟨single.going old (List.mem_of_getElem? found) going,fun too =>
      single.alike there (goes too) apart found going⟩
  · exact fun e _ before => (single.waits e before).kept (fun _ runs => runs) (modified_executing there executing rfl) (.inl rfl)

theorem closes_single {after : Engine} (single : Single s) (there : s.tasks[j]? = some task) (executing : task.executing)
    (quiet : state.isRunning = false) (states : after.executionStates = s.executionStates.insert task.plan.id state)
    (tasks : after.tasks = s.tasks.modify j ({· with stage := .ended}))
    (fires : after.fires.filterMap Fire.pending = s.fires.filterMap Fire.pending)
    (word : shouldExitExecution (some state) = true ∧ state = .cancelled ∨ task.goes) : Single after := by
  have runs : ∀ id,after.runs id = if id = task.plan.id then false else s.runs id := by
    intro id
    rw [Engine.runs,states,get_insert]
    split
    · exact quiet
    · rfl
  have fewer : ∀ id,after.runs id = true → s.runs id = true := by
    intro id running
    rw [runs] at running
    split at running
    · cases running
    · exact running
  have member := List.mem_of_getElem? there
  have own : ∀ (k : Nat) (old : Task),k ≠ j → s.tasks[k]? = some old → old.goes → old.plan.id ≠ task.plan.id := by
    intro k old apart found going same
    have running := single.going old (List.mem_of_getElem? found) going
    rw [same] at running
    cases stopped : task.stopped with
    | true =>
      have silent := stops_quiet ((single.halted task member stopped).2 executing.1).1
      rw [silent] at running
      cases running
    | false => exact single.alike there ⟨executing,stopped⟩ apart found going
  refine changed_single single there tasks (pending_fewer there fires tasks (if_neg fun both => both.1 rfl)).1 rfl ?_ ?_ ?_ ?_ ?_ ?_
  · exact fun a b one two => single.alone a b (fewer a one) (fewer b two)
  · exact fun stopped => ⟨executing.2,fun live => absurd rfl live⟩
  · intro k old apart found stops _
    rw [Engine.stops,states,get_insert]
    split
    · rename_i same
      rcases word with exits | going
      · exact exits.1
      · rw [same] at stops
        have running := single.going task member going
        rw [stops_quiet stops] at running
        cases running
    · exact stops
  · exact fun going => absurd rfl going.1.1
  · intro k old apart found going
    refine ⟨?_,fun too => too.1.1 rfl⟩
    rw [runs,if_neg (own k old apart found going)]
    exact single.going old (List.mem_of_getElem? found) going
  · intro e _ before
    refine (single.waits e before).kept fewer ?_ ?_
    · rw [tasks]
      exact modified_executing there (fun ran => absurd rfl ran.1) rfl
    · rw [states,get_insert]
      split
      · rename_i same
        rcases word with exits | going
        · exact .inr (by rw [exits.2])
        · have victim := (single.waits e before).running _ (single.going task member going)
          exact absurd (congrArg some same |>.trans victim) (single.waits e before).apart
      · exact .inl rfl

theorem enters_single (single : Single s) (there : s.tasks[j]? = some task) (entering : task.stage = .entering idx)
    (free : get s.executionStates task.plan.id ≠ some .cancelled) : Single (s.setStateRunning j task.plan idx nowMs segment) := by
  have member := List.mem_of_getElem? there
  have live : task.stage ≠ .ended := by simp [entering]
  have runs : ∀ id,(s.setStateRunning j task.plan idx nowMs segment).runs id = if id = task.plan.id then true else s.runs id := by
    intro id
    rw [Engine.runs,Engine.setStateRunning,get_insert]
    split <;> rfl
  have silent : ({task with stage := .waiting idx,entered := task.entered++[idx]} : Task).pending = none := if_neg (by simp)
  have emptied : (s.setStateRunning j task.plan idx nowMs segment).pending.Sublist s.pending ∧
      (s.setStateRunning j task.plan idx nowMs segment).pending.length+task.pending.toList.length = s.pending.length :=
    pending_fewer there rfl rfl silent
  have stops : ∀ old : Task,s.stops old.plan.id = true → old.plan.id ≠ task.plan.id →
      (s.setStateRunning j task.plan idx nowMs segment).stops old.plan.id = true := by
    intro old stopped apart
    rw [Engine.stops,Engine.setStateRunning,get_insert,if_neg apart]
    exact stopped
  by_cases fresh : task.entered = []
  · have pends : task.pending = some (task.plan.id,none) := if_pos ⟨live,fresh⟩
    have waits : Waits s task.plan.id none :=
      single.waits (task.plan.id,none) (List.mem_append_right _ (List.mem_filterMap.mpr ⟨task,member,pends⟩))
    have idle : ∀ id,s.runs id ≠ true := fun id running => nomatch waits.running id running
    have last : ∀ e,e ∉ (s.setStateRunning j task.plan idx nowMs segment).pending := by
      intro e listed
      have some_ := List.length_pos_of_mem listed
      have short := single.short
      have lengths := emptied.2
      rw [pends,Option.toList_some,List.length_singleton] at lengths
      omega
    refine changed_single single there rfl emptied.1 rfl ?_ ?_ ?_ ?_ ?_ ?_
    · intro a b one two
      rw [runs] at one two
      split at one
      · split at two
        · exact Eq.trans ‹_› (Eq.symm ‹_›)
        · exact absurd two (idle b)
      · exact absurd one (idle a)
    · exact fun stopped => absurd fresh (single.halted task member stopped).1
    · intro k old apart found stopped executing
      exact stops old stopped fun same => free (waits.past old (List.mem_of_getElem? found) executing same)
    · exact fun _ => (runs _).trans (if_pos rfl)
    · exact fun k old apart found going => absurd (single.going old (List.mem_of_getElem? found) going) (idle _)
    · exact fun e listed => absurd listed (last e)
  · have going : task.goes := by
      refine ⟨⟨live,fresh⟩,?_⟩
      cases stopped : task.stopped with
      | false => rfl
      | true =>
        have undecided := ((single.halted task member stopped).2 live).2
        rw [entering] at undecided
        cases undecided
    have running := single.going task member going
    have fewer : ∀ id,(s.setStateRunning j task.plan idx nowMs segment).runs id = true → s.runs id = true := by
      intro id now
      rw [runs] at now
      split at now
      · rename_i same
        rw [same]
        exact running
      · exact now
    refine changed_single single there rfl emptied.1 rfl ?_ ?_ ?_ ?_ ?_ ?_
    · exact fun a b one two => single.alone a b (fewer a one) (fewer b two)
    · exact fun stopped => nomatch going.2.symm.trans stopped
    · intro k old apart found stopped _
      refine stops old stopped fun same => ?_
      rw [same] at stopped
      rw [stops_quiet stopped] at running
      cases running
    · exact fun _ => (runs _).trans (if_pos rfl)
    · exact fun k old apart found too => absurd too (single.alike there going apart found)
    · intro e _ before
      refine (single.waits e before).kept fewer (modified_executing there (fun _ => going.1) rfl) (.inl ?_)
      rw [Engine.setStateRunning,get_insert,if_neg]
      intro same
      exact (single.waits e before).apart ((congrArg some same).trans ((single.waits e before).running _ running))

theorem task_single (single : Single s) (seasoned : Seasoned s) : Single (s.executePlan j nowMs first) := by
  cases there : s.tasks[j]? with
  | none =>
    unfold Engine.executePlan
    rw [there]
    exact single
  | some task =>
    have member := List.mem_of_getElem? there
    have move : TaskMove s j nowMs task (s.executePlan j nowMs first) := executePlan_move there
    generalize s.executePlan j nowMs first = after at move ⊢
    cases move with
    | rests => exact single
    | enters idx segment stage free => exact enters_single single there stage free
    | refused idx stage cancelled =>
      exact moveTo_single single there (fun live => absurd rfl live) (fun _ live => absurd rfl live) fun live => absurd rfl live
    | walks after live still past heeds =>
      refine moveTo_single single there (fun _ => live) (fun stopped _ => ?_) fun _ => ?_
      · obtain ⟨-,halted⟩ := single.halted task member stopped
        exact heeds (halted live).1 (halted live).2
      · exact (seasoned.executing there live past).2
    | leaves stage preempted =>
      exact moveTo_single single there (fun live => absurd rfl live) (fun _ live => absurd rfl live) fun live => absurd rfl live
    | cancels stage =>
      have executing := seasoned.executing there (by simp [stage]) (by simp [stage])
      exact closes_single single there executing rfl rfl rfl rfl (.inl ⟨rfl,rfl⟩)
    | completes next stage =>
      have executing := seasoned.executing there (by simp [stage]) (by simp [stage])
      refine closes_single single there executing rfl rfl rfl ?_ (.inr ⟨executing,?_⟩)
      · have called : (next.toList.map fun (target,source) => Fire.calling target source).filterMap Fire.pending = [] := by
          cases next <;> rfl
        exact (List.filterMap_append ..).trans (by rw [called,List.append_nil]; rfl)
      · cases stopped : task.stopped with
        | false => rfl
        | true =>
          have undecided := ((single.halted task member stopped).2 executing.1).2
          rw [stage] at undecided
          cases undecided

theorem Single.framed {after : Engine} (single : Single s) (states : after.executionStates = s.executionStates) (tasks : after.tasks = s.tasks)
    (pending : after.pending = s.pending) : Single after := by
  have runs : ∀ id,after.runs id = s.runs id := fun id => by rw [Engine.runs,states,Engine.runs]
  constructor
  · simpa only [runs] using single.alone
  · simpa only [Engine.stops,tasks,states] using single.halted
  · simpa only [runs,tasks] using single.going
  · simpa only [tasks] using single.one
  · rw [pending]
    exact single.short
  · intro e member
    rw [pending] at member
    obtain ⟨running,apart,past⟩ := single.waits e member
    exact ⟨by simpa only [runs] using running,apart,by simpa only [tasks,states] using past⟩

theorem halt_unstopped (going : (task.halt id).goes) : task.plan.id ≠ id ∧ task.goes := by
  unfold Task.halt at going
  split at going
  · cases going.2
  · rename_i away
    exact ⟨fun same => away ⟨same,going.1⟩,going⟩

theorem halt_pending (tasks : List Task) (id : PlanId) : (tasks.map (Task.halt id)).filterMap Task.pending = tasks.filterMap Task.pending := by
  have kept : Task.pending ∘ Task.halt id = Task.pending := by
    funext task
    simp [Task.pending]
  rw [List.filterMap_map,kept]

theorem halted_executing : ∀ t ∈ s.tasks.map (Task.halt id),t.executing → ∃ old ∈ s.tasks,old.executing ∧ old.plan.id = t.plan.id := by
  intro t there executing
  obtain ⟨old,found,rfl⟩ := List.mem_map.mp there
  exact ⟨old,found,by simpa [Task.executing] using executing,by rw [halt_plan]⟩

theorem stamp_idle (quiet : state.isRunning = false) (only : ∀ other,s.runs other = true → other = id) :
    ∀ other,(s.stamp id state).runs other ≠ true := by
  intro other running
  rw [Engine.runs,Engine.stamp,get_insert] at running
  split at running
  · exact absurd (quiet.symm.trans running) Bool.noConfusion
  · exact absurd (only other running) ‹_›

theorem stamp_single (single : Single s) (quiet : state.isRunning = false) (stops : shouldExitExecution (some state) = true)
    (only : ∀ other,s.runs other = true → other = id) (undecided : Undecided s id) (own : ∀ e ∈ s.pending,e.1 ≠ id) :
    Single (s.stamp id state) := by
  have pending : (s.stamp id state).pending = s.pending := by
    rw [Engine.pending,Engine.stamp,halt_pending,Engine.pending]
  have idle : ∀ other,(s.stamp id state).runs other ≠ true := stamp_idle quiet only
  have still : ∀ task ∈ s.tasks,¬ (task.halt id).goes := by
    intro task member going
    obtain ⟨away,before⟩ := halt_unstopped going
    exact away (only _ (single.going task member before))
  constructor
  · exact fun a _ running => absurd running (idle a)
  · intro t member stopped
    obtain ⟨old,found,rfl⟩ := List.mem_map.mp member
    rw [halt_entered,halt_stage,halt_plan,Engine.stops,Engine.stamp,get_insert]
    rcases halt_stopped stopped with before | now
    · obtain ⟨entered,live⟩ := single.halted old found before
      refine ⟨entered,fun going => ⟨?_,(live going).2⟩⟩
      split
      · exact stops
      · exact (live going).1
    · exact ⟨now.2.2,fun _ => ⟨by rw [if_pos now.1]; exact stops,undecided old found now.1 now.2.2⟩⟩
  · intro t member going
    obtain ⟨old,found,rfl⟩ := List.mem_map.mp member
    exact absurd going (still old found)
  · intro i k a b one _ going _
    obtain ⟨old,found,rfl⟩ := List.mem_map.mp (List.mem_of_getElem? one)
    exact absurd going (still old found)
  · rw [pending]
    exact single.short
  · intro e member
    rw [pending] at member
    refine (single.waits e member).kept (fun other running => absurd running (idle other)) halted_executing (.inl ?_)
    rw [Engine.stamp,get_insert,if_neg (own e member)]

theorem spawn_single (single : Single s) (fires : (s.fires.set i .returned).filterMap Fire.pending = [])
    (tasks : s.tasks.filterMap Task.pending = []) (idle : ∀ id,s.runs id ≠ true)
    (past : ∀ task ∈ s.tasks,task.executing → task.plan.id = plan.id → get s.executionStates plan.id = some .cancelled) : Single (s.spawn i plan) := by
  have still : ∀ t ∈ (s.spawn i plan).tasks,¬ t.goes := by
    intro t member going
    rcases List.mem_append.mp member with old | new
    · exact idle _ (single.going t old going)
    · cases List.mem_singleton.mp new
      exact going.1.2 rfl
  have pending : (s.spawn i plan).pending = ([⟨plan,planStage plan 0,[],false⟩] : List Task).filterMap Task.pending := by
    rw [Engine.pending,Engine.spawn,fires,List.filterMap_append,tasks]
    rfl
  constructor
  · exact fun a _ running => absurd running (idle a)
  · intro t member stopped
    rcases List.mem_append.mp member with old | new
    · exact single.halted t old stopped
    · cases List.mem_singleton.mp new
      cases stopped
  · exact fun t member going => absurd going (still t member)
  · exact fun i k a b one _ going _ => absurd going (still a (List.mem_of_getElem? one))
  · rw [pending]
    exact List.length_filterMap_le _ _
  · intro e member
    rw [pending] at member
    obtain ⟨t,new,made⟩ := List.mem_filterMap.mp member
    cases List.mem_singleton.mp new
    obtain ⟨-,same⟩ := Option.ite_none_right_eq_some.mp made
    cases Option.some.inj same
    refine ⟨fun id running => absurd running (idle id),nofun,fun task member executing same => ?_⟩
    rcases List.mem_append.mp member with old | new
    · exact past task old executing same
    · cases List.mem_singleton.mp new
      exact absurd rfl executing.2

theorem past_cancelled (single : Single s) (idle : s.runs id = false)
    (afresh : s.preempted id = true → ∀ task ∈ s.tasks,task.executing → task.plan.id ≠ id) :
    ∀ task ∈ s.tasks,task.executing → task.plan.id = id → get s.executionStates id = some .cancelled := by
  rintro task member executing rfl
  cases stopped : task.stopped with
  | false => exact nomatch idle.symm.trans (single.going task member ⟨executing,stopped⟩)
  | true =>
    have stops := ((single.halted task member stopped).2 executing.1).1
    unfold Engine.stops shouldExitExecution at stops
    unfold Engine.preempted at afresh
    cases entry : get s.executionStates task.plan.id with
    | none => simp [entry] at stops
    | some state =>
      cases state with
      | cancelled => rfl
      | preempted at_ byPlan ms => exact absurd rfl (afresh (by rw [entry]; rfl) task member executing)
      | _ => simp [entry,ExecutionState.isPreempted] at stops

theorem passing {firedAtMs : Nat} (there : s.fires[i]? = some (.checking plan firedAtMs)) (empty : s.pending = []) (fire : Fire) :
    (s.fires.set i fire).filterMap Fire.pending = fire.pending.toList ∧ s.tasks.filterMap Task.pending = [] := by
  obtain ⟨before,after,was,now⟩ := @set_parts _ _ Fire.pending _ _ _ there fire
  rw [Engine.pending,List.append_eq_nil_iff,was] at empty
  simp only [List.append_eq_nil_iff] at empty
  rw [now,empty.1.1.1,empty.1.2]
  exact ⟨by simp,empty.2⟩

theorem fire_single (single : Single s) (orderly : Orderly s (.fireStep i nowMs first)) : Single (s.firePlanInner i nowMs first) := by
  have move : FireMove s i (s.firePlanInner i nowMs first) := firePlanInner_move
  generalize s.firePlanInner i nowMs first = after at move ⊢
  change InTurn s s.fires[i]? at orderly
  cases move with
  | rests fires fireLog valid quiet =>
    refine single.framed rfl rfl ?_
    rw [Engine.pending,quiet,Engine.pending]
  | passes plan firedAtMs victim segmentIdx checking preempt idle apart running =>
    rw [checking] at orderly
    obtain ⟨empty,afresh⟩ := orderly (by simp [Engine.passes,Engine.runs,idle,preempt])
    obtain ⟨fires,tasks⟩ := passing checking empty (.stamping plan firedAtMs victim segmentIdx)
    have pending : ({s with fires := s.fires.set i (.stamping plan firedAtMs victim segmentIdx)} : Engine).pending = [(plan.id,some victim)] := by
      rw [Engine.pending,fires,tasks]
      rfl
    have past := past_cancelled single idle afresh
    refine ⟨single.alone,single.halted,single.going,single.one,?_,?_⟩
    · rw [pending]
      exact Nat.le_refl _
    · intro e member
      rw [pending] at member
      cases List.mem_singleton.mp member
      exact ⟨fun id runs => congrArg some (single.alone id victim runs running),fun same => apart (Option.some.inj same).symm,past⟩
  | spawns plan firedAtMs checking idle =>
    have quiet : ∀ id,s.runs id = false := by
      intro id
      unfold Engine.runs
      cases entry : get s.executionStates id with
      | none => rfl
      | some state => exact idle id state entry
    have all_ : (s.executionStates.entries.all fun e => !e.2.isRunning) = true := by
      refine List.all_eq_true.mpr fun e member => ?_
      rw [idle e.1 e.2 ((entries_get _).mp member)]
      rfl
    rw [checking] at orderly
    obtain ⟨empty,afresh⟩ := orderly (by simp [Engine.passes,quiet,all_])
    obtain ⟨fires,tasks⟩ := passing checking empty .returned
    exact spawn_single single fires tasks (fun id => by simp [quiet]) (past_cancelled single (quiet _) afresh)
  | stamps plan firedAtMs victim segmentIdx stamping =>
    rw [stamping] at orderly
    obtain ⟨before,later,was,now⟩ := @set_parts _ _ Fire.pending _ _ _ stamping Fire.returned
    have short := single.short
    rw [Engine.pending,was] at short
    have pends : (Fire.stamping plan firedAtMs victim segmentIdx).pending.toList.length = 1 := rfl
    simp only [List.length_append,pends] at short
    have listed : (plan.id,some victim) ∈ s.pending :=
      List.mem_append_left _ (List.mem_filterMap.mpr ⟨_,List.mem_of_getElem? stamping,rfl⟩)
    have waits : Waits s plan.id (some victim) := single.waits _ listed
    have only : ∀ e ∈ s.pending,e = (plan.id,some victim) := by
      intro e member
      obtain ⟨k,bound,rfl⟩ := List.getElem_of_mem member
      obtain ⟨l,within,same⟩ := List.getElem_of_mem listed
      have lengths := single.short
      rw [← same]
      congr 1
      omega
    have apart : plan.id ≠ victim := fun same => waits.apart (congrArg some same)
    have alone : ∀ other,s.runs other = true → other = victim := fun other running => Option.some.inj (waits.running other running)
    have stamped : Single (s.stamp victim (.preempted segmentIdx plan.id firedAtMs)) := by
      refine stamp_single single rfl rfl alone orderly ?_
      intro e member
      rw [only e member]
      exact apart
    have notified : Single ((s.stamp victim (.preempted segmentIdx plan.id firedAtMs)).notify (get s.latest victim) victim .preempted) :=
      stamped.framed rfl rfl rfl
    apply spawn_single notified
    · have first : before = [] := List.eq_nil_of_length_eq_zero (by omega)
      have last : later = [] := List.eq_nil_of_length_eq_zero (by omega)
      exact now.trans (by rw [first,last]; rfl)
    · exact (halt_pending _ _).trans (List.eq_nil_of_length_eq_zero (by omega))
    · exact stamp_idle rfl alone
    · intro t member executing same
      obtain ⟨old,found,ran,here⟩ := halted_executing t member executing
      rw [Engine.notify,Engine.stamp,get_insert,if_neg apart]
      exact waits.past old found ran (here.trans same)

theorem step_single (single : Single s) (seasoned : Seasoned s) (orderly : Orderly s event) : Single (s.step event) := by
  cases event with
  | register plan =>
    simp only [Engine.step]
    split
    · exact single.framed rfl rfl rfl
    · exact single
  | unregister id => exact single.framed rfl rfl rfl
  | firePlan id source =>
    refine single.framed rfl rfl ?_
    exact congrArg (· ++ _) (List.filterMap_append.trans (List.append_nil _))
  | fireStep i nowMs first => exact fire_single single orderly
  | taskStep j nowMs first => exact task_single single seasoned
  | cancelPlan id =>
    simp only [Engine.step,Engine.cancelPlan]
    split
    · rename_i running
      refine stamp_single single rfl rfl (fun other runs => single.alone other id runs running) (orderly running) ?_
      intro e member same
      exact (single.waits e member).apart ((congrArg some same).trans ((single.waits e member).running id running))
    · exact single

theorem step_obeys (single : Single s) : Obeys s event := by
  intro j nowMs first task shape there stopped
  subst shape
  have undecided (live : task.stage ≠ .ended) : task.stage.decided = false := ((single.halted task (List.mem_of_getElem? there) stopped).2 live).2
  have move : TaskMove s j nowMs task (s.executePlan j nowMs first) := executePlan_move there
  simp only [Engine.step]
  generalize s.executePlan j nowMs first = after at move ⊢
  cases move with
  | rests => exact .inl rfl
  | enters idx segment stage free =>
    rw [stage] at undecided
    cases undecided nofun
  | refused idx stage cancelled => exact .inl rfl
  | walks after live still seasoned heeds => exact .inl rfl
  | leaves stage preempted => exact .inl rfl
  | cancels stage =>
    right
    simp [Engine.setStateCancelled,Engine.notify,Engine.moveTo]
  | completes next stage =>
    rw [stage] at undecided
    cases undecided nofun

theorem Single.runsAlone (single : Single s) : RunsAlone s := by
  intro a b first second atA atB running runs
  exact single.alone a b (by rw [Engine.runs,atA]; exact running) (by rw [Engine.runs,atB]; exact runs)

theorem orderly_single (events : List EngineEvent) (orderly : Guarded Engine.step Orderly .start events) :
    Throughout Engine.step Single .start events := by
  have singles : Throughout Engine.step (fun s => Single s ∧ Seasoned s) .start events :=
    guarded_keeps (fun _ _ both ordered => ⟨step_single both.1 both.2 ordered,step_seasoned both.2⟩) ⟨start_single,start_seasoned⟩ orderly
  exact throughout_prefixes.mpr fun k => (throughout_prefixes.mp singles k).1

theorem single_plan_running (events : List EngineEvent) (orderly : Guarded Engine.step Orderly .start events) :
    Throughout Engine.step RunsAlone .start events ∧ Guarded Engine.step Obeys .start events := by
  have singles := throughout_prefixes.mp (orderly_single events orderly)
  exact ⟨throughout_prefixes.mpr fun k => (singles k).runsAlone,guarded_positions.mpr fun k _ _ => step_obeys (singles k)⟩

instance (s : Engine) (id : PlanId) : Decidable (Undecided s id) := inferInstanceAs (Decidable (∀ task ∈ s.tasks,_ → _ → _))

instance (s : Engine) : DecidablePred (InTurn s)
  | some (.checking plan _) => inferInstanceAs (Decidable (s.passes plan = true →
      s.pending = [] ∧ (s.preempted plan.id = true → ∀ task ∈ s.tasks,task.executing → task.plan.id ≠ plan.id)))
  | some (.stamping _ _ victim _) => inferInstanceAs (Decidable (Undecided s victim))
  | some (.calling _ _) | some .returned | none => .isTrue trivial

instance (s : Engine) : DecidablePred (Orderly s)
  | .fireStep i _ _ => inferInstanceAs (Decidable (InTurn s s.fires[i]?))
  | .cancelPlan id => inferInstanceAs (Decidable (s.runs id = true → Undecided s id))
  | .register _ => .isTrue trivial
  | .unregister _ => .isTrue trivial
  | .firePlan _ _ => .isTrue trivial
  | .taskStep _ _ _ => .isTrue trivial

def wakeGentle : Plan := ⟨"wake-gentle","Wake",.userCommand,false,[⟨.duration 60⟩,⟨.duration 60⟩],.stop,0⟩

def dinnerTime : Plan := ⟨"dinner-time","Dinner",.userCommand,true,[⟨.duration 60⟩],.resumePreviousSource,0⟩

def fires (i ms : Nat) : EngineEvent := .fireStep i ms "wake-gentle"

def walks (j ms : Nat) : EngineEvent := .taskStep j ms "wake-gentle"

-- The second plan preempts the first in its first segment, completes, and has it resumed.
def dinnerRun : List EngineEvent :=
  [.register wakeGentle,.register dinnerTime,.firePlan "wake-gentle" .userCommand,fires 0 0,fires 0 0,walks 0 0,
    .firePlan "dinner-time" .userCommand,fires 1 1000,fires 1 1000,fires 1 1000,walks 0 1000,walks 0 1000,walks 1 1000,
    walks 1 61000,walks 1 61000,walks 1 61000,fires 2 61000,fires 2 61000,walks 2 61000]

theorem dinner_runs_alone : Throughout Engine.step RunsAlone .start dinnerRun ∧ Guarded Engine.step Obeys .start dinnerRun :=
  single_plan_running dinnerRun (by decide)

-- Both fires look for a running plan before either task enters its first segment.
def raceRun : List EngineEvent :=
  [.register wakeGentle,.register dinnerTime,.firePlan "wake-gentle" .userCommand,.firePlan "dinner-time" .userCommand,
    fires 0 0,fires 1 0,fires 0 0,fires 1 0,walks 0 0,walks 1 0]

-- The preemption lands between the first task's check and its second segment.
def revivedRun : List EngineEvent :=
  [.register wakeGentle,.register dinnerTime,.firePlan "wake-gentle" .userCommand,fires 0 0,fires 0 0,walks 0 0,walks 0 60000,
    .firePlan "dinner-time" .userCommand,fires 1 60000,fires 1 60000,fires 1 60000]

theorem running_beside_and_revived :
    ¬ Throughout Engine.step RunsAlone .start raceRun ∧
      (let s := run Engine.step .start revivedRun
      get s.executionStates "wake-gentle" = some (.preempted 0 "dinner-time" 60000) ∧
        get (s.step (walks 0 60000)).executionStates "wake-gentle" = some (.running 1 60000 (some 120000)) ∧
        ¬ Obeys s (walks 0 60000)) := by
  constructor
  · intro held
    have both := throughout_final held "wake-gentle" "dinner-time" (.running 0 0 (some 60000)) (.running 0 0 (some 60000))
      (by decide) (by decide) rfl rfl
    exact absurd both (by decide)
  · have before : get (run Engine.step .start revivedRun).executionStates "wake-gentle" = some (.preempted 0 "dinner-time" 60000) := by
      decide
    have after : get ((run Engine.step .start revivedRun).step (walks 0 60000)).executionStates "wake-gentle" =
        some (.running 1 60000 (some 120000)) := by decide
    have task : (run Engine.step .start revivedRun).tasks[0]? = some ⟨wakeGentle,.entering 1,[0],true⟩ := by decide
    refine ⟨before,after,?_⟩
    intro obeys
    rcases obeys 0 60000 "wake-gentle" _ rfl task rfl with same | cancelled
    · exact absurd (after.symm.trans (same.trans before)) (by simp)
    · exact absurd (after.symm.trans cancelled) (by simp)

end EvoCore.PlanEngine
