import EvoCore.Plans
import EvoCore.Runs

namespace EvoCore.PlanEngine
open Runs Tables Plans

-- The execution side of crates/evo/src/plans/engine.rs: fires and execution tasks beside each other,
-- each of them one lock of execution_states at a time.
inductive ExecutionState where
  | running (segmentIdx segmentStartedAtMs : Nat) (segmentDeadlineAtMs : Option Nat)
  | cancelled
  | completed
  | preempted (preemptedAtSegment : Nat) (byPlan : PlanId) (atMs : Nat)
deriving DecidableEq,Repr

def ExecutionState.isRunning : ExecutionState → Bool
  | .running .. => true
  | _ => false

def ExecutionState.isPreempted : ExecutionState → Bool
  | .preempted .. => true
  | _ => false

inductive PlanTerminalOutcome where
  | completed
  | cancelled
  | preempted
deriving DecidableEq,Repr

inductive FireSource where
  | appointment
  | watch
  | planChain
  | userCommand
  | resumeAfterPreempt
  | firstBoot
deriving DecidableEq,Repr

structure FireLogEntry where
  lastFiredAtMs : Nat
  fireCount : Nat
  lastSource : FireSource
deriving DecidableEq,Repr

-- The registry: what is registered was validated and stands under its own id.
structure PlanEngineState where
  plans : Table PlanId Plan
  sound : ∀ id plan,get plans id = some plan → plan.id = id ∧ plan.segments ≠ []

def PlanEngineState.empty : PlanEngineState := ⟨∅,by simp⟩

def PlanEngineState.insert (registry : PlanEngineState) (plan : Plan) (valid : plan.validate = .ok ()) : PlanEngineState where
  plans := registry.plans.insert plan.id plan
  sound id found there := by
    rw [get_insert] at there
    split at there
    · cases there
      exact ⟨Eq.symm ‹_›,validate_segments valid⟩
    · exact registry.sound id found there

def PlanEngineState.remove (registry : PlanEngineState) (id : PlanId) : PlanEngineState where
  plans := registry.plans.erase id
  sound other found there := by
    rw [get_erase] at there
    split at there
    · cases there
    · exact registry.sound other found there

-- A call of fire_plan between its locks.
inductive Fire where
  | calling (id : PlanId) (source : FireSource)
  | checking (plan : Plan) (firedAtMs : Nat)
  | stamping (plan : Plan) (firedAtMs : Nat) (victim : PlanId) (segmentIdx : Nat)
  | returned
deriving DecidableEq,Repr

def Fire.valid : Fire → Prop
  | .checking plan _ => plan.segments ≠ []
  | .stamping plan _ _ _ => plan.segments ≠ []
  | _ => True

inductive Stage where
  | entering (idx : Nat)
  | waiting (idx : Nat)
  | leaving
  | cancelling
  | resuming
  | completing (next : Option (PlanId × FireSource))
  | ended
deriving DecidableEq,Repr

-- No code reads `entered`, the segments that the task entered, and `stopped`, whether its plan was
-- cancelled or preempted since it entered one.
structure Task where
  plan : Plan
  stage : Stage
  entered : List Nat
  stopped : Bool
deriving DecidableEq,Repr

def Task.executing (task : Task) : Prop := task.stage ≠ .ended ∧ task.entered ≠ []

instance (task : Task) : Decidable task.executing := inferInstanceAs (Decidable (_ ∧ _))

def Task.halt (id : PlanId) (task : Task) : Task :=
  if task.plan.id = id ∧ task.executing then {task with stopped := true} else task

-- A call of notify_terminal_observers; `run` is the task that last entered a segment of the plan.
structure Notice where
  run : Option Nat
  planId : PlanId
  outcome : PlanTerminalOutcome
deriving DecidableEq,Repr

structure Engine where
  registry : PlanEngineState
  fireLog : Table PlanId FireLogEntry
  executionStates : Table PlanId ExecutionState
  fires : List Fire
  tasks : List Task
  notices : List Notice
  latest : Table PlanId Nat

def Engine.start : Engine := ⟨.empty,∅,∅,[],[],[],∅⟩

-- Where the task goes when the segments before `idx` are done.
def planStage (plan : Plan) (idx : Nat) : Stage :=
  if idx < plan.segments.length then .entering idx
  else match plan.onComplete with
    | .stop => .completing none
    | .loop => .entering 0
    | .nextPlan next => .completing (some (next,.planChain))
    | .resumePreviousSource => .resuming

def logFire (log : Table PlanId FireLogEntry) (id : PlanId) (source : FireSource) (nowMs : Nat) : Table PlanId FireLogEntry :=
  log.insert id ⟨nowMs,Appointments.saturatingAdd ((get log id).elim 0 (·.fireCount)) 1,source⟩

-- The map is scanned in its hash order: `first` is the plan that the scan meets first.
def otherRunning (states : Table PlanId ExecutionState) (id first : PlanId) : Option (PlanId × Nat) :=
  let others := states.entries.filterMap fun e =>
    match e.2 with
    | .running segmentIdx _ _ => if e.1 = id then none else some (e.1,segmentIdx)
    | _ => none
  (others.find? fun other => other.1 = first).or others.head?

def resumeTarget (states : Table PlanId ExecutionState) (id first : PlanId) : Option PlanId :=
  let preempted := states.entries.filterMap fun e =>
    match e.2 with
    | .preempted _ byPlan atMs => if byPlan = id then some (e.1,atMs) else none
    | _ => none
  let newest := preempted.filter fun candidate => preempted.all fun other => other.2 ≤ candidate.2
  ((newest.find? fun candidate => candidate.1 = first).or newest.getLast?).map (·.1)

def Engine.spawn (s : Engine) (i : Nat) (plan : Plan) : Engine :=
  {s with fires := s.fires.set i .returned,tasks := s.tasks++[⟨plan,planStage plan 0,[],false⟩]}

def Engine.stamp (s : Engine) (id : PlanId) (state : ExecutionState) : Engine :=
  {s with executionStates := s.executionStates.insert id state,tasks := s.tasks.map (Task.halt id)}

def Engine.notify (s : Engine) (run : Option Nat) (id : PlanId) (outcome : PlanTerminalOutcome) : Engine :=
  {s with notices := s.notices++[⟨run,id,outcome⟩]}

def Engine.firePlanInner (s : Engine) (i nowMs : Nat) (first : PlanId) : Engine :=
  match s.fires[i]? with
  | some (.calling id source) =>
    match get s.registry.plans id with
    | none => {s with fires := s.fires.set i .returned}
    | some plan => {s with fires := s.fires.set i (.checking plan nowMs),fireLog := logFire s.fireLog id source nowMs}
  | some (.checking plan firedAtMs) =>
    if (get s.executionStates plan.id).any (·.isRunning) then {s with fires := s.fires.set i .returned}
    else match otherRunning s.executionStates plan.id first with
      | none => s.spawn i plan
      | some (victim,segmentIdx) =>
        if plan.preempt then {s with fires := s.fires.set i (.stamping plan firedAtMs victim segmentIdx)}
        else {s with fires := s.fires.set i .returned}
  | some (.stamping plan firedAtMs victim segmentIdx) =>
    ((s.stamp victim (.preempted segmentIdx plan.id firedAtMs)).notify (get s.latest victim) victim .preempted).spawn i plan
  | _ => s

def Engine.moveTo (s : Engine) (j : Nat) (stage : Stage) : Engine :=
  {s with tasks := s.tasks.modify j ({· with stage := stage})}

def Engine.setStateRunning (s : Engine) (j : Nat) (plan : Plan) (idx nowMs : Nat) (segment : PlanSegment) : Engine :=
  {s with
    executionStates := s.executionStates.insert plan.id (.running idx nowMs (segment.duration.deadline nowMs))
    tasks := s.tasks.modify j fun task => {task with stage := .waiting idx,entered := task.entered++[idx]}
    latest := s.latest.insert plan.id j}

def Engine.enterSegment (s : Engine) (j : Nat) (plan : Plan) (idx nowMs : Nat) (segment : PlanSegment) : Engine :=
  if get s.executionStates plan.id = some .cancelled then s.moveTo j .ended else s.setStateRunning j plan idx nowMs segment

def shouldExitExecution (state : Option ExecutionState) : Bool :=
  state.any fun state => state = .cancelled || state.isPreempted

def Engine.setStateCancelled (s : Engine) (j : Nat) (id : PlanId) : Engine :=
  ({s with executionStates := s.executionStates.insert id .cancelled}.notify (some j) id .cancelled).moveTo j .ended

def Engine.setStateCompleted (s : Engine) (j : Nat) (id : PlanId) (next : Option (PlanId × FireSource)) : Engine :=
  let done := ({s with executionStates := s.executionStates.insert id .completed}.notify (some j) id .completed).moveTo j .ended
  {done with fires := done.fires++next.toList.map fun (target,source) => Fire.calling target source}

-- How a wait ends (a timer, a watch, a wake) is left open: it may end at any time.
def Engine.executePlan (s : Engine) (j nowMs : Nat) (first : PlanId) : Engine :=
  match s.tasks[j]? with
  | none => s
  | some task =>
    let id := task.plan.id
    match task.stage with
    | .entering idx =>
      match task.plan.segments[idx]? with
      | some segment => s.enterSegment j task.plan idx nowMs segment
      | none => s
    | .waiting idx =>
      if shouldExitExecution (get s.executionStates id) then s.moveTo j .leaving else s.moveTo j (planStage task.plan (idx+1))
    | .leaving =>
      if (get s.executionStates id).any (·.isPreempted) then s.moveTo j .ended else s.moveTo j .cancelling
    | .cancelling => s.setStateCancelled j id
    | .resuming => s.moveTo j (.completing ((resumeTarget s.executionStates id first).map fun target => (target,.resumeAfterPreempt)))
    | .completing next => s.setStateCompleted j id next
    | .ended => s

def Engine.cancelPlan (s : Engine) (id : PlanId) : Engine :=
  if (get s.executionStates id).any (·.isRunning) then s.stamp id .cancelled else s

inductive EngineEvent where
  | register (plan : Plan)
  | unregister (id : PlanId)
  | firePlan (id : PlanId) (source : FireSource)
  | fireStep (i nowMs : Nat) (first : PlanId)
  | taskStep (j nowMs : Nat) (first : PlanId)
  | cancelPlan (id : PlanId)
deriving DecidableEq,Repr

def Engine.step (s : Engine) : EngineEvent → Engine
  | .register plan => if valid : plan.validate = .ok () then {s with registry := s.registry.insert plan valid} else s
  | .unregister id => {s with registry := s.registry.remove id}
  | .firePlan id source => {s with fires := s.fires++[Fire.calling id source]}
  | .fireStep i nowMs first => s.firePlanInner i nowMs first
  | .taskStep j nowMs first => s.executePlan j nowMs first
  | .cancelPlan id => s.cancelPlan id

variable {s : Engine} {j : Nat} {task : Task} {id first victim other : PlanId}

theorem otherRunning_none {states : Table PlanId ExecutionState} (found : otherRunning states id first = none)
    (there : get states other = some state) (running : state.isRunning) : other = id := by
  simp only [otherRunning,Option.or_eq_none_iff,List.head?_eq_none_iff,List.filterMap_eq_nil_iff] at found
  have here := found.2 ⟨other,state⟩ ((entries_get states).mpr there)
  cases state with
  | running segmentIdx startedAtMs deadline =>
    by_contra apart
    simp [apart] at here
  | _ => cases running

theorem otherRunning_some {states : Table PlanId ExecutionState} (found : otherRunning states id first = some (victim,segmentIdx)) :
    victim ≠ id ∧ ∃ startedAtMs deadline,get states victim = some (.running segmentIdx startedAtMs deadline) := by
  have member : (victim,segmentIdx) ∈ states.entries.filterMap fun e =>
      match e.2 with
      | .running segmentIdx _ _ => if e.1 = id then none else some (e.1,segmentIdx)
      | _ => none := by
    rcases Option.or_eq_some_iff.mp found with early | late
    · exact List.mem_of_find?_eq_some early
    · exact List.mem_of_head? late.2
  obtain ⟨⟨other,state⟩,listed,shape⟩ := List.mem_filterMap.mp member
  cases state with
  | running idx startedAtMs deadline =>
    by_cases same : other = id
    · simp [same] at shape
    · simp only [same,↓reduceIte,Option.some.injEq,Prod.mk.injEq] at shape
      obtain ⟨rfl,rfl⟩ := shape
      exact ⟨same,startedAtMs,deadline,(entries_get states).mp listed⟩
  | _ => cases shape

theorem modified {tasks : List Task} {change : Task → Task} (there : (tasks.modify j change)[k]? = some task) :
    (j ≠ k ∧ tasks[k]? = some task) ∨ ∃ old,j = k ∧ tasks[k]? = some old ∧ task = change old := by
  obtain ⟨old,found,shape⟩ := modify_cases there
  by_cases same : j = k
  · exact .inr ⟨old,same,found,by simpa [same] using shape⟩
  · exact .inl ⟨same,by simpa [same,shape] using found⟩

-- Past its last look at the map, with a write to come.
def Stage.decided : Stage → Bool
  | .entering _ | .resuming | .completing _ => true
  | _ => false

inductive TaskMove (s : Engine) (j nowMs : Nat) (task : Task) : Engine → Prop where
  | rests : TaskMove s j nowMs task s
  | enters (idx : Nat) (segment : PlanSegment) (stage : task.stage = .entering idx)
      (free : get s.executionStates task.plan.id ≠ some .cancelled) (there : task.plan.segments[idx]? = some segment) :
      TaskMove s j nowMs task (s.setStateRunning j task.plan idx nowMs segment)
  | refused (idx : Nat) (stage : task.stage = .entering idx) (cancelled : get s.executionStates task.plan.id = some .cancelled) :
      TaskMove s j nowMs task (s.moveTo j .ended)
  | walks (after : Stage) (live : task.stage ≠ .ended) (still : after ≠ .ended)
      (seasoned : ∀ idx,task.stage ≠ .entering idx)
      (heeds : shouldExitExecution (get s.executionStates task.plan.id) = true → task.stage.decided = false → after.decided = false) :
      TaskMove s j nowMs task (s.moveTo j after)
  | leaves (stage : task.stage = .leaving) (preempted : (get s.executionStates task.plan.id).any (·.isPreempted)) :
      TaskMove s j nowMs task (s.moveTo j .ended)
  | cancels (stage : task.stage = .cancelling) : TaskMove s j nowMs task (s.setStateCancelled j task.plan.id)
  | completes (next : Option (PlanId × FireSource)) (stage : task.stage = .completing next) :
      TaskMove s j nowMs task (s.setStateCompleted j task.plan.id next)

theorem planStage_ne_ended (plan : Plan) (idx : Nat) : planStage plan idx ≠ .ended := by
  unfold planStage
  split
  · simp
  · cases plan.onComplete <;> simp

theorem executePlan_move (there : s.tasks[j]? = some task) : TaskMove s j nowMs task (s.executePlan j nowMs first) := by
  unfold Engine.executePlan
  rw [there]
  dsimp only
  cases stage : task.stage with
  | entering idx =>
    dsimp only
    split
    · rename_i segment there
      unfold Engine.enterSegment
      split
      · exact .refused idx stage ‹_›
      · exact .enters idx segment stage ‹_› there
    · exact .rests
  | waiting idx =>
    dsimp only
    split
    · apply TaskMove.walks <;> simp [stage,Stage.decided]
    · rename_i stays
      apply TaskMove.walks <;> simp [stage,planStage_ne_ended,stays]
  | leaving =>
    dsimp only
    split
    · exact .leaves stage ‹_›
    · apply TaskMove.walks <;> simp [stage,Stage.decided]
  | cancelling => exact .cancels stage
  | resuming => apply TaskMove.walks <;> simp [stage,Stage.decided]
  | completing next => exact .completes next stage
  | ended => exact .rests

-- A plan between the check of its fire and the first segment of its task, and the victim to be stamped first.
def Fire.pending : Fire → Option (PlanId × Option PlanId)
  | .stamping plan _ victim _ => some (plan.id,some victim)
  | _ => none

theorem set_parts {α β : Type} {f : α → Option β} {items : List α} {i : Nat} {old : α} (there : items[i]? = some old) (new : α) :
    ∃ before after,items.filterMap f = before++(f old).toList++after ∧ (items.set i new).filterMap f = before++(f new).toList++after := by
  obtain ⟨bound,rfl⟩ := List.getElem?_eq_some_iff.mp there
  refine ⟨(items.take i).filterMap f,(items.drop (i+1)).filterMap f,?_,?_⟩
  · conv_lhs => rw [← List.take_append_drop i items,List.drop_eq_getElem_cons bound,List.filterMap_append]
    rw [List.append_assoc]
    cases made : f items[i] <;> simp only [List.filterMap_cons,made] <;> rfl
  · rw [List.set_eq_take_append_cons_drop,if_pos bound,List.filterMap_append,List.append_assoc]
    cases made : f new <;> simp only [List.filterMap_cons,made] <;> rfl

inductive FireMove (s : Engine) (i : Nat) : Engine → Prop where
  | rests (fires : List Fire) (fireLog : Table PlanId FireLogEntry)
      (valid : (∀ fire ∈ s.fires,fire.valid) → ∀ fire ∈ fires,fire.valid)
      (quiet : fires.filterMap Fire.pending = s.fires.filterMap Fire.pending) : FireMove s i {s with fires := fires,fireLog := fireLog}
  | passes (plan : Plan) (firedAtMs : Nat) (victim : PlanId) (segmentIdx : Nat) (checking : s.fires[i]? = some (.checking plan firedAtMs))
      (preempt : plan.preempt = true) (idle : (get s.executionStates plan.id).any (·.isRunning) = false) (apart : victim ≠ plan.id)
      (running : (get s.executionStates victim).any (·.isRunning) = true) :
      FireMove s i {s with fires := s.fires.set i (.stamping plan firedAtMs victim segmentIdx)}
  | spawns (plan : Plan) (firedAtMs : Nat) (checking : s.fires[i]? = some (.checking plan firedAtMs))
      (idle : ∀ id state,get s.executionStates id = some state → state.isRunning = false) :
      FireMove s i (s.spawn i plan)
  | stamps (plan : Plan) (firedAtMs : Nat) (victim : PlanId) (segmentIdx : Nat)
      (stamping : s.fires[i]? = some (.stamping plan firedAtMs victim segmentIdx)) :
      FireMove s i (((s.stamp victim (.preempted segmentIdx plan.id firedAtMs)).notify (get s.latest victim) victim .preempted).spawn i plan)

theorem FireMove.returns {old : Fire} (there : s.fires[i]? = some old) (fire : Fire) (fireLog : Table PlanId FireLogEntry)
    (silent : old.pending = none ∧ fire.pending = none) (valid : (∀ fire ∈ s.fires,fire.valid) → fire.valid) :
    FireMove s i {s with fires := s.fires.set i fire,fireLog := fireLog} := by
  apply FireMove.rests
  · intro all other member
    rcases List.mem_or_eq_of_mem_set member with old | rfl
    · exact all other old
    · exact valid all
  · obtain ⟨before,after,was,now⟩ := set_parts there (f := Fire.pending) fire
    rw [was,now,silent.1,silent.2]

theorem firePlanInner_move : FireMove s i (s.firePlanInner i nowMs first) := by
  unfold Engine.firePlanInner
  split
  · rename_i id source calling
    split
    · exact .returns calling .returned s.fireLog ⟨rfl,rfl⟩ fun _ => trivial
    · rename_i plan there
      exact .returns calling (.checking plan nowMs) _ ⟨rfl,rfl⟩ fun _ => (s.registry.sound _ plan there).2
  · rename_i plan firedAtMs checking
    split
    · exact .returns checking .returned s.fireLog ⟨rfl,rfl⟩ fun _ => trivial
    · rename_i self
      split
      · rename_i quiet
        apply FireMove.spawns plan firedAtMs checking
        intro id state there
        by_contra running
        have here := otherRunning_none quiet there (by simpa using running)
        subst here
        simp [there,running] at self
      · rename_i victim segmentIdx found
        split
        · obtain ⟨apart,startedAtMs,deadline,there⟩ := otherRunning_some found
          apply FireMove.passes plan firedAtMs victim segmentIdx checking ‹_› (by simpa using self) apart
          rw [there]
          rfl
        · exact .returns checking .returned s.fireLog ⟨rfl,rfl⟩ fun _ => trivial
  · exact .stamps _ _ _ _ ‹_›
  · exact .rests s.fires s.fireLog (fun all => all) rfl

end EvoCore.PlanEngine
