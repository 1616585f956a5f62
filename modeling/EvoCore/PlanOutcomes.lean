import EvoCore.PlanRefire

namespace EvoCore.PlanEngine
open Runs Tables Plans

-- The calls of notify_terminal_observers for the run of one task.
def Engine.outcomes (s : Engine) (j : Nat) : Nat := s.notices.countP fun notice => notice.run = some j

structure OneOutcome (s : Engine) : Prop where
  atMost : ∀ j,s.outcomes j ≤ 1
  ended : ∀ (j : Nat) (task : Task),s.tasks[j]? = some task → task.stage = .ended → task.entered ≠ [] → s.outcomes j = 1
  apart : ∀ (i j : Nat) (a b : Task),s.tasks[i]? = some a → s.tasks[j]? = some b → a.executing → b.executing →
    a.plan.id = b.plan.id → i = j

-- The plan's tasks that entered a segment before are over.
def Starts (s : Engine) (task : Task) : Prop :=
  get s.executionStates task.plan.id ≠ some .cancelled → ∀ other ∈ s.tasks,other.plan.id = task.plan.id → other.entered ≠ [] →
    other.stage = .ended

-- A preemption finds a task to stop that has no outcome yet; a task starts when those before it are
-- over, and no stop comes between its last look at the map and what it writes there.
def Punctual (s : Engine) : EngineEvent → Prop
  | .fireStep i _ _ => ∀ plan firedAtMs victim segmentIdx,s.fires[i]? = some (.stamping plan firedAtMs victim segmentIdx) →
      (get s.executionStates victim).any (·.isPreempted) = false ∧ ∃ task ∈ s.tasks,task.plan.id = victim ∧ task.executing
  | .taskStep j _ _ => ∀ task,s.tasks[j]? = some task →
      match task.stage with
      | .entering _ =>
        if task.entered = [] then Starts s task else shouldExitExecution (get s.executionStates task.plan.id) = false
      | .cancelling => (get s.executionStates task.plan.id).any (·.isPreempted) = false
      | .completing _ => (get s.executionStates task.plan.id).any (·.isPreempted) = false
      | _ => True
  | _ => True

-- A task that executes has its outcome exactly while the map calls its plan preempted.
structure Tallied (s : Engine) : Prop where
  apart : ∀ (i j : Nat) (a b : Task),s.tasks[i]? = some a → s.tasks[j]? = some b → a.executing → b.executing →
    a.plan.id = b.plan.id → i = j
  tally : ∀ (j : Nat) (task : Task),s.tasks[j]? = some task → task.executing →
    get s.latest task.plan.id = some j ∧ s.outcomes j = if s.preempted task.plan.id then 1 else 0
  ended : ∀ (j : Nat) (task : Task),s.tasks[j]? = some task → task.stage = .ended → task.entered ≠ [] → s.outcomes j = 1
  fresh : ∀ j,(∀ task,s.tasks[j]? = some task → task.entered = []) → s.outcomes j = 0

variable {s : Engine} {j : Nat} {task : Task} {plan : Plan} {segment : PlanSegment} {state : ExecutionState} {id first victim other : PlanId}

theorem outcomes_notify {of : Option Nat} : (s.notify of id outcome).outcomes k = s.outcomes k+if of = some k then 1 else 0 := by
  by_cases same : of = some k <;> simp [Engine.outcomes,Engine.notify,List.countP_append,same]

theorem exit_unpreempted {entry : Option ExecutionState} (stays : shouldExitExecution entry = false) :
    entry.any (·.isPreempted) = false := by
  cases entry with
  | none => rfl
  | some state =>
    simp only [shouldExitExecution,Option.any_some,Bool.or_eq_false_iff] at stays
    exact stays.2

theorem Tallied.one (tallied : Tallied s) : OneOutcome s := by
  refine ⟨?_,tallied.ended,tallied.apart⟩
  intro j
  by_cases some_ : ∃ task,s.tasks[j]? = some task ∧ task.entered ≠ []
  · obtain ⟨task,there,entered⟩ := some_
    by_cases ended : task.stage = .ended
    · rw [tallied.ended j task there ended entered]
    · rw [(tallied.tally j task there ⟨ended,entered⟩).2]
      split <;> omega
  · simp only [not_exists,not_and,not_not] at some_
    rw [tallied.fresh j some_]
    omega

theorem spawn_tallied (tallied : Tallied s) : Tallied (s.spawn i plan) := by
  have old : ∀ (j : Nat) (task : Task),(s.spawn i plan).tasks[j]? = some task → task.entered ≠ [] → s.tasks[j]? = some task := by
    intro j task there some_
    rcases append_cases there with before | ⟨-,rfl⟩
    · exact before
    · exact absurd rfl some_
  constructor
  · intro i j a b one two runs executes
    exact tallied.apart i j a b (old i a one runs.2) (old j b two executes.2) runs executes
  · exact fun j task there executing => tallied.tally j task (old j task there executing.2) executing
  · exact fun j task there ended some_ => tallied.ended j task (old j task there some_) ended some_
  · intro j none
    apply tallied.fresh j
    exact fun task there => none task (append_there there)

def Alike (old new : List Task) : Prop :=
  ∀ k : Nat,(new[k]?).map (fun task => (task.plan,task.entered,decide (task.stage = .ended))) =
    (old[k]?).map (fun task => (task.plan,task.entered,decide (task.stage = .ended)))

theorem Alike.back {old new : List Task} {k : Nat} (alike : Alike old new) (there : new[k]? = some task) :
    ∃ before,old[k]? = some before ∧ before.plan = task.plan ∧ before.entered = task.entered ∧ (before.stage = .ended ↔ task.stage = .ended) := by
  have same := alike k
  rw [there,Option.map_some,eq_comm,Option.map_eq_some_iff] at same
  obtain ⟨before,found,shape⟩ := same
  simp only [Prod.mk.injEq,decide_eq_decide] at shape
  exact ⟨before,found,shape⟩

theorem Alike.symm {old new : List Task} (alike : Alike old new) : Alike new old := fun k => (alike k).symm

theorem Alike.executing {old new : List Task} {k : Nat} (alike : Alike old new) (there : new[k]? = some task) (executing : task.executing) :
    ∃ before,old[k]? = some before ∧ before.plan = task.plan ∧ before.executing := by
  obtain ⟨before,found,plan,entered,ended⟩ := alike.back there
  exact ⟨before,found,plan,fun gone => executing.1 (ended.mp gone),entered ▸ executing.2⟩

theorem alike_halt (tasks : List Task) (id : PlanId) : Alike tasks (tasks.map (Task.halt id)) := by
  intro k
  simp [Option.map_map,Function.comp_def]

theorem alike_move (there : s.tasks[j]? = some task) (live : task.stage ≠ .ended) (still : stage ≠ .ended) :
    Alike s.tasks (s.moveTo j stage).tasks := by
  intro k
  simp only [Engine.moveTo,List.getElem?_modify]
  by_cases same : j = k
  · subst same
    simp [there,live,still]
  · simp [same]

theorem Alike.tallied {after : Engine} (alike : Alike s.tasks after.tasks) (tallied : Tallied s) (latest : after.latest = s.latest)
    (notices : after.notices = s.notices) (states : ∀ id,after.preempted id = s.preempted id) : Tallied after := by
  have counts : ∀ k,after.outcomes k = s.outcomes k := fun k => by rw [Engine.outcomes,notices,Engine.outcomes]
  constructor
  · intro i j a b one two runs executes same
    obtain ⟨a',one',plan,runs'⟩ := alike.executing one runs
    obtain ⟨b',two',plan',executes'⟩ := alike.executing two executes
    exact tallied.apart i j a' b' one' two' runs' executes' (by rw [plan,plan',same])
  · intro j task there executing
    obtain ⟨before,found,plan,executes⟩ := alike.executing there executing
    rw [latest,counts,states,← plan]
    exact tallied.tally j before found executes
  · intro j task there ended entered
    obtain ⟨before,found,-,log,gone⟩ := alike.back there
    rw [counts]
    exact tallied.ended j before found (gone.mpr ended) (log ▸ entered)
  · intro j none
    rw [counts]
    apply tallied.fresh j
    intro before found
    obtain ⟨task,there,-,log,-⟩ := alike.symm.back found
    rw [← log]
    exact none task there

-- A task ends, and what it says to the observers makes one outcome.
theorem ends_tallied {after : Engine} (tallied : Tallied s) (there : s.tasks[j]? = some task)
    (tasks : after.tasks = s.tasks.modify j ({· with stage := .ended})) (latest : after.latest = s.latest)
    (others : ∀ k,k ≠ j → after.outcomes k = s.outcomes k) (own : after.outcomes j = if task.entered = [] then 0 else 1)
    (states : ∀ (k : Nat) (other : Task),k ≠ j → s.tasks[k]? = some other → other.executing →
      after.preempted other.plan.id = s.preempted other.plan.id) : Tallied after := by
  have old : ∀ (k : Nat) (other : Task),after.tasks[k]? = some other → other.executing → k ≠ j ∧ s.tasks[k]? = some other := by
    intro k other found executing
    rw [tasks] at found
    rcases modified found with ⟨apart,before⟩ | ⟨before,rfl,holds,rfl⟩
    · exact ⟨Ne.symm apart,before⟩
    · exact absurd rfl executing.1
  constructor
  · intro i k a b one two runs executes
    exact tallied.apart i k a b (old i a one runs).2 (old k b two executes).2 runs executes
  · intro k other found executing
    obtain ⟨apart,before⟩ := old k other found executing
    rw [latest,others k apart,states k other apart before executing]
    exact tallied.tally k other before executing
  · intro k other found ended entered
    rw [tasks] at found
    rcases modified found with ⟨apart,before⟩ | ⟨before,rfl,holds,rfl⟩
    · rw [others k (Ne.symm apart)]
      exact tallied.ended k other before ended entered
    · rw [there] at holds
      cases holds
      rw [own,if_neg entered]
  · intro k none
    by_cases same : k = j
    · subst same
      have empty := none _ (by rw [tasks]; exact modify_same there)
      rw [own,if_pos empty]
    · rw [others k same]
      apply tallied.fresh k
      intro other before
      apply none
      rw [tasks]
      exact modify_other before (Ne.symm same)

theorem enters_tallied (tallied : Tallied s) (there : s.tasks[j]? = some task) (none : s.outcomes j = 0)
    (only : ∀ (k : Nat) (other : Task),s.tasks[k]? = some other → other.executing → other.plan.id = task.plan.id → k = j) :
    Tallied (s.setStateRunning j task.plan idx nowMs segment) := by
  have counts : ∀ k,(s.setStateRunning j task.plan idx nowMs segment).outcomes k = s.outcomes k := fun _ => rfl
  have old : ∀ (k : Nat) (other : Task),(s.setStateRunning j task.plan idx nowMs segment).tasks[k]? = some other → k ≠ j →
      s.tasks[k]? = some other := by
    intro k other found apart
    rcases modified found with ⟨-,before⟩ | ⟨before,rfl,_,_⟩
    · exact before
    · exact absurd rfl apart
  have own : ∀ other,(s.setStateRunning j task.plan idx nowMs segment).tasks[j]? = some other → other.plan = task.plan := by
    intro other found
    rcases modified found with ⟨apart,-⟩ | ⟨before,-,holds,rfl⟩
    · exact absurd rfl apart
    · rw [there] at holds
      cases holds
      rfl
  constructor
  · intro i k a b one two runs executes same
    by_cases first : i = j
    · by_cases second : k = j
      · rw [first,second]
      · rw [first]
        refine (only k b (old k b two second) executes ?_).symm
        rw [← same,own a (first ▸ one)]
    · by_cases second : k = j
      · rw [second]
        refine only i a (old i a one first) runs ?_
        rw [same,own b (second ▸ two)]
      · exact tallied.apart i k a b (old i a one first) (old k b two second) runs executes same
  · intro k other found executing
    by_cases same : k = j
    · subst same
      rw [own other found,counts,none]
      simp [Engine.setStateRunning,Engine.preempted,ExecutionState.isPreempted]
    · have before := old k other found same
      have apart : other.plan.id ≠ task.plan.id := fun equal => same (only k other before executing equal)
      have latest : get (s.setStateRunning j task.plan idx nowMs segment).latest other.plan.id = get s.latest other.plan.id := by
        simp [Engine.setStateRunning,apart]
      have states : (s.setStateRunning j task.plan idx nowMs segment).preempted other.plan.id = s.preempted other.plan.id := by
        simp [Engine.setStateRunning,Engine.preempted,apart]
      rw [latest,counts,states]
      exact tallied.tally k other before executing
  · intro k other found ended entered
    by_cases same : k = j
    · subst same
      rcases modified found with ⟨apart,-⟩ | ⟨before,-,holds,rfl⟩
      · exact absurd rfl apart
      · cases ended
    · exact tallied.ended k other (old k other found same) ended entered
  · intro k empty
    by_cases same : k = j
    · subst same
      exact none
    · apply tallied.fresh k
      intro other before
      exact empty other (modify_other before (Ne.symm same))

-- The preemption's notice is the outcome of the one task that it stops.
theorem stamps_tallied {k : Nat} (tallied : Tallied s) (unstopped : s.preempted victim = false) (there : s.tasks[k]? = some task)
    (same : task.plan.id = victim) (executing : task.executing) :
    Tallied ((s.stamp victim (.preempted segmentIdx byPlan atMs)).notify (get s.latest victim) victim .preempted) := by
  subst same
  obtain ⟨latest,count⟩ := tallied.tally k task there executing
  rw [unstopped] at count
  rw [latest]
  have counts : ∀ n,((s.stamp task.plan.id (.preempted segmentIdx byPlan atMs)).notify (some k) task.plan.id .preempted).outcomes n =
      s.outcomes n+if k = n then 1 else 0 := by
    intro n
    rw [outcomes_notify]
    simp only [Option.some.injEq]
    rfl
  have alike : Alike s.tasks ((s.stamp task.plan.id (.preempted segmentIdx byPlan atMs)).notify (some k) task.plan.id .preempted).tasks :=
    alike_halt s.tasks task.plan.id
  constructor
  · intro i j a b one two runs executes same
    obtain ⟨a',one',plan,runs'⟩ := alike.executing one runs
    obtain ⟨b',two',plan',executes'⟩ := alike.executing two executes
    exact tallied.apart i j a' b' one' two' runs' executes' (by rw [plan,plan',same])
  · intro j other found runs
    obtain ⟨before,holds,plan,ran⟩ := alike.executing found runs
    obtain ⟨last,number⟩ := tallied.tally j before holds ran
    rw [← plan,counts,number]
    refine ⟨last,?_⟩
    by_cases equal : before.plan.id = task.plan.id
    · have here := tallied.apart k j task before there holds executing ran equal.symm
      have marked : ((s.stamp task.plan.id (.preempted segmentIdx byPlan atMs)).notify (some k) task.plan.id .preempted).preempted
          task.plan.id = true := by simp [Engine.preempted,Engine.notify,Engine.stamp,ExecutionState.isPreempted]
      rw [equal,unstopped,marked,if_pos here]
      rfl
    · have away : k ≠ j := by
        intro here
        subst here
        rw [there] at holds
        cases holds
        exact equal rfl
      have unmarked : ((s.stamp task.plan.id (.preempted segmentIdx byPlan atMs)).notify (some k) task.plan.id .preempted).preempted
          before.plan.id = s.preempted before.plan.id := by simp [Engine.preempted,Engine.notify,Engine.stamp,equal]
      rw [unmarked,if_neg away,Nat.add_zero]
  · intro j other found ended entered
    obtain ⟨before,holds,-,log,gone⟩ := alike.back found
    have away : k ≠ j := by
      intro here
      subst here
      rw [there] at holds
      cases holds
      exact executing.1 (gone.mpr ended)
    rw [counts,if_neg away]
    exact tallied.ended j before holds (gone.mpr ended) (log ▸ entered)
  · intro j none
    have away : k ≠ j := by
      intro here
      subst here
      obtain ⟨other,found,-,log,-⟩ := alike.symm.back there
      exact executing.2 (log ▸ none other found)
    rw [counts,if_neg away]
    apply tallied.fresh j
    intro before holds
    obtain ⟨other,found,-,log,-⟩ := alike.symm.back holds
    rw [← log]
    exact none other found

theorem cancelPlan_tallied (tallied : Tallied s) : Tallied (s.cancelPlan id) := by
  unfold Engine.cancelPlan
  split
  · rename_i running
    refine Alike.tallied (alike_halt s.tasks id) tallied rfl rfl ?_
    intro other
    simp only [Engine.preempted,Engine.stamp,get_insert]
    split
    · rename_i same
      subst same
      cases entry : get s.executionStates other with
      | none => rfl
      | some state =>
        rw [entry] at running
        cases state with
        | running idx startedAtMs deadline => rfl
        | _ => cases running
    · rfl
  · exact tallied

theorem closes_tallied {after : Engine} (tallied : Tallied s) (there : s.tasks[j]? = some task) (executing : task.executing)
    (unstopped : s.preempted task.plan.id = false) (tasks : after.tasks = s.tasks.modify j ({· with stage := .ended}))
    (latest : after.latest = s.latest) (states : after.executionStates = s.executionStates.insert task.plan.id state)
    (notices : after.notices = s.notices++[⟨some j,task.plan.id,outcome⟩]) : Tallied after := by
  have counts : ∀ k,after.outcomes k = s.outcomes k+if j = k then 1 else 0 := by
    intro k
    by_cases same : j = k <;> simp [Engine.outcomes,notices,List.countP_append,same]
  have count := (tallied.tally j task there executing).2
  rw [unstopped] at count
  apply ends_tallied tallied there tasks latest
  · intro k apart
    rw [counts,if_neg (Ne.symm apart),Nat.add_zero]
  · rw [counts,if_pos rfl,if_neg executing.2,count]
    rfl
  · intro k other apart found runs
    have away : other.plan.id ≠ task.plan.id := fun same => apart (tallied.apart k j other task found there runs executing same)
    simp [Engine.preempted,states,away]

theorem task_tallied (tallied : Tallied s) (seasoned : Seasoned s) (punctual : Punctual s (.taskStep j nowMs first)) :
    Tallied (s.executePlan j nowMs first) := by
  cases there : s.tasks[j]? with
  | none =>
    unfold Engine.executePlan
    rw [there]
    exact tallied
  | some task =>
    have timely := punctual task there
    have move : TaskMove s j nowMs task (s.executePlan j nowMs first) := executePlan_move there
    generalize s.executePlan j nowMs first = after at move ⊢
    cases move with
    | rests => exact tallied
    | enters idx segment stage free =>
      simp only [stage] at timely
      split at timely
      · rename_i empty
        apply enters_tallied tallied there
        · apply tallied.fresh j
          intro found holds
          rw [there] at holds
          cases holds
          exact empty
        · intro k other found executing same
          exact absurd (timely free other (List.mem_of_getElem? found) same executing.2) executing.1
      · rename_i some_
        have executing : task.executing := ⟨by simp [stage],some_⟩
        apply enters_tallied tallied there
        · rw [(tallied.tally j task there executing).2,Engine.preempted,exit_unpreempted timely]
          rfl
        · exact fun k other found runs same => tallied.apart k j other task found there runs executing same
    | refused idx stage cancelled =>
      simp only [stage] at timely
      split at timely
      · rename_i empty
        refine ends_tallied tallied there rfl rfl (fun _ _ => rfl) ?_ (fun _ _ _ _ _ => rfl)
        rw [if_pos empty]
        apply tallied.fresh j
        intro found holds
        rw [there] at holds
        cases holds
        exact empty
      · rw [cancelled] at timely
        cases timely
    | walks after live still past heeds =>
      exact Alike.tallied (alike_move there live still) tallied rfl rfl fun _ => rfl
    | leaves stage preempted =>
      have executing := seasoned.executing there (by simp [stage]) (by simp [stage])
      refine ends_tallied tallied there rfl rfl (fun _ _ => rfl) ?_ (fun _ _ _ _ _ => rfl)
      rw [if_neg executing.2]
      have count := (tallied.tally j task there executing).2
      rw [Engine.preempted,preempted] at count
      exact count
    | cancels stage =>
      simp only [stage] at timely
      have executing := seasoned.executing there (by simp [stage]) (by simp [stage])
      exact closes_tallied tallied there executing timely rfl rfl rfl rfl
    | completes next stage =>
      simp only [stage] at timely
      have executing := seasoned.executing there (by simp [stage]) (by simp [stage])
      exact closes_tallied tallied there executing timely rfl rfl rfl rfl

theorem fire_tallied (tallied : Tallied s) (punctual : Punctual s (.fireStep i nowMs first)) : Tallied (s.firePlanInner i nowMs first) := by
  have move : FireMove s i (s.firePlanInner i nowMs first) := firePlanInner_move
  generalize s.firePlanInner i nowMs first = after at move ⊢
  cases move with
  | rests fires fireLog valid quiet => exact ⟨tallied.apart,tallied.tally,tallied.ended,tallied.fresh⟩
  | passes plan firedAtMs victim segmentIdx checking => exact ⟨tallied.apart,tallied.tally,tallied.ended,tallied.fresh⟩
  | spawns plan firedAtMs checking idle => exact spawn_tallied tallied
  | stamps plan firedAtMs victim segmentIdx stamping =>
    obtain ⟨unstopped,task,member,same,executing⟩ := punctual plan firedAtMs victim segmentIdx stamping
    obtain ⟨k,there⟩ := List.mem_iff_getElem?.mp member
    exact spawn_tallied (stamps_tallied tallied unstopped there same executing)

theorem step_tallied (tallied : Tallied s) (seasoned : Seasoned s) (punctual : Punctual s event) : Tallied (s.step event) := by
  cases event with
  | register plan =>
    simp only [Engine.step]
    split
    · exact ⟨tallied.apart,tallied.tally,tallied.ended,tallied.fresh⟩
    · exact tallied
  | unregister id => exact ⟨tallied.apart,tallied.tally,tallied.ended,tallied.fresh⟩
  | firePlan id source => exact ⟨tallied.apart,tallied.tally,tallied.ended,tallied.fresh⟩
  | fireStep i nowMs first => exact fire_tallied tallied punctual
  | taskStep j nowMs first => exact task_tallied tallied seasoned punctual
  | cancelPlan id => exact cancelPlan_tallied tallied

-- Where the fires keep their turns, every task that is yet to start finds the tasks of its plan before it over.
theorem Single.starts (single : Single s) (member : task ∈ s.tasks) (yet : task.stage ≠ .ended) (fresh : task.entered = []) :
    Starts s task := by
  have pends : task.pending = some (task.plan.id,none) := if_pos ⟨yet,fresh⟩
  have waits : Waits s task.plan.id none := single.waits _ (List.mem_append_right _ (List.mem_filterMap.mpr ⟨task,member,pends⟩))
  intro live other there same begun
  by_contra going
  exact live (waits.past other there ⟨going,begun⟩ same)

theorem fires_in_turn_start (events : List EngineEvent) (orderly : Guarded Engine.step Orderly .start events) :
    Throughout Engine.step (fun s => ∀ task ∈ s.tasks,task.stage ≠ .ended → task.entered = [] → Starts s task) .start events :=
  throughout_prefixes.mpr fun k _ member => (throughout_prefixes.mp (orderly_single events orderly) k).starts member

instance (s : Engine) (task : Task) : Decidable (Starts s task) :=
  inferInstanceAs (Decidable (_ → ∀ other ∈ s.tasks,_ → _ → other.stage = .ended))

instance (s : Engine) (event : EngineEvent) : Decidable (Punctual s event) :=
  match event with
  | .fireStep i _ _ =>
    match there : s.fires[i]? with
    | some (.stamping _ _ victim _) =>
      decidable_of_iff ((get s.executionStates victim).any (·.isPreempted) = false ∧ ∃ task ∈ s.tasks,task.plan.id = victim ∧ task.executing)
        (by
          simp only [Punctual,there,Option.some.injEq,Fire.stamping.injEq]
          constructor
          · exact fun both _ _ _ _ same => same.2.2.1 ▸ both
          · exact fun each => each _ _ _ _ ⟨rfl,rfl,rfl,rfl⟩)
    | some (.calling _ _) => .isTrue (by simp [Punctual,there])
    | some (.checking _ _) => .isTrue (by simp [Punctual,there])
    | some .returned => .isTrue (by simp [Punctual,there])
    | none => .isTrue (by simp [Punctual,there])
  | .taskStep j _ _ =>
    match there : s.tasks[j]? with
    | none => .isTrue (by simp [Punctual,there])
    | some task =>
      match stage : task.stage with
      | .entering _ =>
        decidable_of_iff (if task.entered = [] then Starts s task
          else shouldExitExecution (get s.executionStates task.plan.id) = false) (by simp [Punctual,there,stage])
      | .cancelling => decidable_of_iff ((get s.executionStates task.plan.id).any (·.isPreempted) = false) (by simp [Punctual,there,stage])
      | .completing _ => decidable_of_iff ((get s.executionStates task.plan.id).any (·.isPreempted) = false) (by simp [Punctual,there,stage])
      | .waiting _ => .isTrue (by simp [Punctual,there,stage])
      | .leaving => .isTrue (by simp [Punctual,there,stage])
      | .resuming => .isTrue (by simp [Punctual,there,stage])
      | .ended => .isTrue (by simp [Punctual,there,stage])
  | .register _ => .isTrue trivial
  | .unregister _ => .isTrue trivial
  | .firePlan _ _ => .isTrue trivial
  | .cancelPlan _ => .isTrue trivial

end EvoCore.PlanEngine
