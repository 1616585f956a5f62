import EvoCore.SinglePlan

namespace EvoCore.PlanEngine
open Runs Tables Plans

def Idle (s : Engine) : Prop := ∀ (k : Nat) (task : Task),s.tasks[k]? = some task → task.stage = .ended

-- A fire of the plan and then its task, without a step of anyone else.
def refire (s : Engine) (id : PlanId) (source : FireSource) (first : PlanId) (calledAt checkedAt : Nat) (times : List Nat) : List EngineEvent :=
  ([.firePlan id source,.fireStep s.fires.length calledAt first,.fireStep s.fires.length checkedAt first] : List EngineEvent)++
    times.map fun nowMs => EngineEvent.taskStep s.tasks.length nowMs first

-- The task enters every segment once, in order; each takes it two locks.
def RunsThrough (s : Engine) (id : PlanId) (plan : Plan) : Prop :=
  ∀ source first calledAt checkedAt times,times.length = 2*plan.segments.length →
    ((run Engine.step s (refire s id source first calledAt checkedAt times)).tasks[s.tasks.length]?).map (fun task => (task.plan,task.entered)) =
      some (plan,List.range plan.segments.length)

def Backed (s : Engine) : Prop :=
  ∀ id,(get s.executionStates id).any (·.isRunning) → ∃ (k : Nat) (task : Task),s.tasks[k]? = some task ∧ task.plan.id = id ∧ task.executing

variable {s : Engine} {j : Nat} {task : Task} {plan : Plan} {segment : PlanSegment} {state : ExecutionState} {id first victim other : PlanId}

theorem Backed.kept {after : Engine} (backed : Backed s)
    (fewer : ∀ id,(get after.executionStates id).any (·.isRunning) → (get s.executionStates id).any (·.isRunning))
    (tasks : ∀ (k : Nat) (task : Task),s.tasks[k]? = some task → task.executing → (get after.executionStates task.plan.id).any (·.isRunning) →
      ∃ (k : Nat) (found : Task),after.tasks[k]? = some found ∧ found.plan.id = task.plan.id ∧ found.executing) : Backed after := by
  intro id running
  obtain ⟨k,task,there,rfl,executing⟩ := backed id (fewer id running)
  exact tasks k task there executing running

theorem insert_quiet {states : Table PlanId ExecutionState} (quiet : state.isRunning = false)
    (running : (get (states.insert id state) other).any (·.isRunning)) : other ≠ id ∧ (get states other).any (·.isRunning) := by
  rw [get_insert] at running
  split at running
  · rw [Option.any_some,quiet] at running
    cases running
  · exact ⟨‹_›,running⟩

theorem preempted_quiet {entry : Option ExecutionState} (preempted : entry.any (·.isPreempted)) : entry.any (·.isRunning) = false := by
  cases entry with
  | none => rfl
  | some state =>
    cases state with
    | preempted segment byPlan atMs => rfl
    | _ => cases preempted

theorem spawn_backed (backed : Backed s) : Backed (s.spawn i plan) := by
  apply backed.kept
  · exact fun id running => running
  · exact fun k task there executing _ => ⟨k,task,append_there there,rfl,executing⟩

theorem stamp_backed (backed : Backed s) (quiet : state.isRunning = false) : Backed (s.stamp id state) := by
  apply backed.kept
  · exact fun other running => (insert_quiet quiet running).2
  · intro k task there executing _
    refine ⟨k,task.halt id,?_,?_,?_⟩
    · simp [Engine.stamp,there]
    · simp
    · unfold Task.executing
      rw [halt_stage,halt_entered]
      exact executing

theorem ends_backed {after : Engine} (backed : Backed s) (there : s.tasks[j]? = some task)
    (fewer : ∀ id,(get after.executionStates id).any (·.isRunning) → (get s.executionStates id).any (·.isRunning))
    (tasks : after.tasks = s.tasks.modify j ({· with stage := .ended}))
    (quiet : (get after.executionStates task.plan.id).any (·.isRunning) = false) : Backed after := by
  apply backed.kept fewer
  intro k other found executing running
  rw [tasks]
  by_cases same : j = k
  · subst same
    rw [there] at found
    cases found
    rw [quiet] at running
    cases running
  · exact ⟨k,other,modify_other found same,rfl,executing⟩

theorem walks_backed (backed : Backed s) (still : stage ≠ .ended) : Backed (s.moveTo j stage) := by
  apply backed.kept
  · exact fun id running => running
  · intro k other found executing _
    by_cases same : j = k
    · subst same
      exact ⟨j,_,modify_same found,rfl,still,executing.2⟩
    · exact ⟨k,other,modify_other found same,rfl,executing⟩

theorem enters_backed (backed : Backed s) (there : s.tasks[j]? = some task) :
    Backed (s.setStateRunning j task.plan idx nowMs segment) := by
  intro id running
  by_cases same : id = task.plan.id
  · exact ⟨j,_,modify_same there,same.symm,by simp [Task.executing]⟩
  · simp only [Engine.setStateRunning,get_insert,same,↓reduceIte] at running
    obtain ⟨k,found,holds,rfl,executing⟩ := backed id running
    have apart : j ≠ k := by
      intro equal
      subst equal
      rw [there] at holds
      cases holds
      exact same rfl
    exact ⟨k,found,modify_other holds apart,rfl,executing⟩

theorem task_backed (backed : Backed s) : Backed (s.executePlan j nowMs first) := by
  cases there : s.tasks[j]? with
  | none =>
    unfold Engine.executePlan
    rw [there]
    exact backed
  | some task =>
    have move : TaskMove s j nowMs task (s.executePlan j nowMs first) := executePlan_move there
    generalize s.executePlan j nowMs first = after at move ⊢
    cases move with
    | rests => exact backed
    | enters idx segment stage free => exact enters_backed backed there
    | refused idx stage cancelled =>
      refine ends_backed backed there ?_ rfl ?_
      · exact fun _ running => running
      · simp [Engine.moveTo,cancelled,ExecutionState.isRunning]
    | walks after live still seasoned heeds => exact walks_backed backed still
    | leaves stage preempted =>
      refine ends_backed backed there ?_ rfl (preempted_quiet preempted)
      exact fun _ running => running
    | cancels stage =>
      refine ends_backed backed there ?_ rfl ?_
      · exact fun _ running => (insert_quiet rfl running).2
      · simp [Engine.setStateCancelled,Engine.moveTo,Engine.notify,ExecutionState.isRunning]
    | completes next stage =>
      refine ends_backed backed there ?_ rfl ?_
      · exact fun _ running => (insert_quiet rfl running).2
      · simp [Engine.setStateCompleted,Engine.moveTo,Engine.notify,ExecutionState.isRunning]

theorem step_backed (backed : Backed s) : Backed (s.step event) := by
  cases event with
  | register plan =>
    simp only [Engine.step]
    split <;> exact backed
  | unregister id => exact backed
  | firePlan id source => exact backed
  | fireStep i nowMs first =>
    have move : FireMove s i (s.firePlanInner i nowMs first) := firePlanInner_move
    simp only [Engine.step]
    generalize s.firePlanInner i nowMs first = after at move ⊢
    cases move with
    | rests fires fireLog valid quiet => exact backed
    | passes plan firedAtMs victim segmentIdx checking => exact backed
    | spawns plan firedAtMs checking idle => exact spawn_backed backed
    | stamps plan firedAtMs victim segmentIdx stamping =>
      have stamped : Backed (s.stamp victim (.preempted segmentIdx plan.id firedAtMs)) := stamp_backed backed rfl
      exact spawn_backed stamped
  | taskStep j nowMs first => exact task_backed backed
  | cancelPlan id =>
    simp only [Engine.step,Engine.cancelPlan]
    split
    · exact stamp_backed backed rfl
    · exact backed

theorem start_backed : Backed .start := by
  intro id running
  simp [Engine.start] at running

theorem idle_quiet (backed : Backed s) (idle : Idle s) (id : PlanId) : (get s.executionStates id).any (·.isRunning) = false := by
  by_contra running
  obtain ⟨k,task,there,_,executing⟩ := backed id (by simpa using running)
  exact executing.1 (idle k task there)

theorem segment_walked (first : PlanId) (there : s.tasks[j]? = some ⟨plan,.entering idx,entered,stopped⟩) (inside : idx < plan.segments.length)
    (free : get s.executionStates plan.id ≠ some .cancelled) (enteredAt leftAt : Nat) :
    let after := (s.step (.taskStep j enteredAt first)).step (.taskStep j leftAt first)
    after.tasks[j]? = some ⟨plan,planStage plan (idx+1),entered++[idx],stopped⟩ ∧
      get after.executionStates plan.id ≠ some .cancelled := by
  have segment : plan.segments[idx]? = some plan.segments[idx] := List.getElem?_eq_getElem inside
  have first_step : s.step (.taskStep j enteredAt first) = s.setStateRunning j plan idx enteredAt plan.segments[idx] := by
    simp [Engine.step,Engine.executePlan,there,segment,Engine.enterSegment,free]
  have waiting : (s.setStateRunning j plan idx enteredAt plan.segments[idx]).tasks[j]? =
      some ⟨plan,.waiting idx,entered++[idx],stopped⟩ := modify_same there
  have running : shouldExitExecution (get (s.setStateRunning j plan idx enteredAt plan.segments[idx]).executionStates plan.id) = false := by
    simp [Engine.setStateRunning,shouldExitExecution,ExecutionState.isPreempted]
  have second_step : (s.setStateRunning j plan idx enteredAt plan.segments[idx]).step (.taskStep j leftAt first) =
      (s.setStateRunning j plan idx enteredAt plan.segments[idx]).moveTo j (planStage plan (idx+1)) := by
    simp only [Engine.step,Engine.executePlan,waiting,running]
    rfl
  dsimp only
  rw [first_step,second_step]
  refine ⟨modify_same waiting,?_⟩
  simp [Engine.moveTo,Engine.setStateRunning]

-- The induction is on the segments that are left.
theorem segments_walked {left idx : Nat} (there : s.tasks[j]? = some ⟨plan,planStage plan idx,List.range idx,stopped⟩)
    (rest : idx+left = plan.segments.length) (free : get s.executionStates plan.id ≠ some .cancelled) (times : List Nat)
    (enough : times.length = 2*left) :
    ((run Engine.step s (times.map fun nowMs => .taskStep j nowMs first)).tasks[j]?).map (fun task => (task.plan,task.entered)) =
      some (plan,List.range plan.segments.length) := by
  induction left generalizing s idx times with
  | zero =>
    have none : times = [] := List.eq_nil_of_length_eq_zero enough
    subst none
    have all : idx = plan.segments.length := rest
    simp [there,all]
  | succ left ih =>
    match times,enough with
    | enteredAt::leftAt::times,enough =>
      have inside : idx < plan.segments.length := by omega
      rw [planStage,if_pos inside] at there
      obtain ⟨walked,still⟩ := segment_walked first there inside free enteredAt leftAt
      rw [List.map_cons,List.map_cons,run_cons,run_cons]
      apply ih
      · rw [walked,List.range_succ]
      · omega
      · exact still
      · simpa [Nat.mul_add] using enough

theorem ended_stays (there : s.tasks[j]? = some task) (ended : task.stage = .ended) (times : List Nat) :
    run Engine.step s (times.map fun nowMs => .taskStep j nowMs first) = s := by
  induction times with
  | nil => rfl
  | cons nowMs times ih =>
    have rests : s.step (.taskStep j nowMs first) = s := by simp [Engine.step,Engine.executePlan,there,ended]
    rw [List.map_cons,run_cons,rests]
    exact ih

theorem refused_stays (there : s.tasks[j]? = some ⟨plan,planStage plan 0,[],stopped⟩) (some_ : plan.segments ≠ [])
    (cancelled : get s.executionStates plan.id = some .cancelled) (times : List Nat) (enough : times ≠ []) :
    ((run Engine.step s (times.map fun nowMs => .taskStep j nowMs first)).tasks[j]?).map (fun task => (task.plan,task.entered)) =
      some (plan,[]) := by
  have inside : 0 < plan.segments.length := List.length_pos_iff.mpr some_
  rw [planStage,if_pos inside] at there
  match times,enough with
  | nowMs::times,_ =>
    have segment : plan.segments[0]? = some plan.segments[0] := List.getElem?_eq_getElem inside
    have refused : s.step (.taskStep j nowMs first) = s.moveTo j .ended := by
      simp [Engine.step,Engine.executePlan,there,segment,Engine.enterSegment,cancelled]
    have ended : (s.moveTo j .ended).tasks[j]? = some ⟨plan,.ended,[],stopped⟩ := modify_same there
    rw [List.map_cons,run_cons,refused,ended_stays ended rfl,ended]
    rfl

theorem otherRunning_quiet {states : Table PlanId ExecutionState} (quiet : ∀ other,(get states other).any (·.isRunning) = false) :
    otherRunning states id first = none := by
  cases found : otherRunning states id first with
  | none => rfl
  | some pick =>
    obtain ⟨-,startedAtMs,deadline,there⟩ := otherRunning_some found
    have running := quiet pick.1
    rw [there] at running
    cases running

theorem fire_spawns (registered : get s.registry.plans id = some plan) (quiet : ∀ other,(get s.executionStates other).any (·.isRunning) = false)
    (source : FireSource) (first : PlanId) (calledAt checkedAt : Nat) :
    let after := run Engine.step s [.firePlan id source,.fireStep s.fires.length calledAt first,.fireStep s.fires.length checkedAt first]
    after.tasks[s.tasks.length]? = some ⟨plan,planStage plan 0,[],false⟩ ∧ after.executionStates = s.executionStates := by
  have called : (s.fires++[Fire.calling id source])[s.fires.length]? = some (.calling id source) := by simp
  have checking : ((s.fires++[Fire.calling id source]).set s.fires.length (.checking plan calledAt))[s.fires.length]? =
      some (.checking plan calledAt) := by simp
  have calls : {s with fires := s.fires++[Fire.calling id source]}.step (.fireStep s.fires.length calledAt first) =
      {s with
        fires := (s.fires++[Fire.calling id source]).set s.fires.length (.checking plan calledAt)
        fireLog := logFire s.fireLog id source calledAt} := by
    simp only [Engine.step,Engine.firePlanInner,called,registered]
  rw [run_cons,run_cons,run_cons,run_nil,Engine.step,calls]
  simp only [Engine.step,Engine.firePlanInner,checking,quiet plan.id,otherRunning_quiet quiet]
  exact ⟨List.getElem?_concat_length,rfl⟩

theorem refired_exactly (events : List EngineEvent) (id : PlanId) (plan : Plan) (idle : Idle (run Engine.step .start events))
    (registered : get (run Engine.step .start events).registry.plans id = some plan) :
    RunsThrough (run Engine.step .start events) id plan ↔
      get (run Engine.step .start events).executionStates id ≠ some .cancelled := by
  have backed : Backed (run Engine.step .start events) := run_keeps (fun _ _ => step_backed) start_backed
  generalize run Engine.step .start events = s at idle registered backed ⊢
  obtain ⟨rfl,some_⟩ := s.registry.sound id plan registered
  have quiet := idle_quiet backed idle
  constructor
  · intro through cancelled
    have all := through .userCommand plan.id 0 0 (List.replicate (2*plan.segments.length) 0) (by simp)
    obtain ⟨spawned,states⟩ := fire_spawns registered quiet .userCommand plan.id 0 0
    rw [refire,run_append,refused_stays spawned some_ (by rw [states,cancelled]) _ (by simpa using some_)] at all
    have empty := congrArg (fun entry => entry.map fun pair => pair.2.length) all
    simp only [Option.map_some,List.length_nil,List.length_range,Option.some.injEq] at empty
    exact some_ (List.length_eq_zero_iff.mp empty.symm)
  · intro free source first calledAt checkedAt times enough
    obtain ⟨spawned,states⟩ := fire_spawns registered quiet source first calledAt checkedAt
    rw [refire,run_append]
    exact segments_walked spawned (Nat.zero_add _) (states ▸ free) times enough

instance (s : Engine) : Decidable (Idle s) :=
  decidable_of_iff (∀ task ∈ s.tasks,task.stage = .ended) (by
    constructor
    · exact fun all k task there => all task (List.mem_of_getElem? there)
    · intro idle task member
      obtain ⟨k,there⟩ := List.mem_iff_getElem?.mp member
      exact idle k task there)

-- A run of the plan that was not disturbed, and one that was cancelled in its first segment.
def completedRun : List EngineEvent :=
  [.register wakeGentle,.firePlan "wake-gentle" .userCommand,fires 0 0,fires 0 0,walks 0 0,walks 0 60000,walks 0 60000,
    walks 0 120000,walks 0 120000]

def cancelledRun : List EngineEvent :=
  [.register wakeGentle,.firePlan "wake-gentle" .userCommand,fires 0 0,fires 0 0,walks 0 0,.cancelPlan "wake-gentle",
    walks 0 60000,walks 0 60000,walks 0 60000]

theorem completed_plan_refired :
    get (run Engine.step .start completedRun).executionStates "wake-gentle" = some .completed ∧
      RunsThrough (run Engine.step .start completedRun) "wake-gentle" wakeGentle := by
  have completed : get (run Engine.step .start completedRun).executionStates "wake-gentle" = some .completed := by decide
  refine ⟨completed,(refired_exactly completedRun "wake-gentle" wakeGentle (by decide) (by decide)).mpr ?_⟩
  rw [completed]
  simp

theorem cancelled_plan_refused :
    Idle (run Engine.step .start cancelledRun) ∧
      get (run Engine.step .start cancelledRun).registry.plans "wake-gentle" = some wakeGentle ∧
      ¬ RunsThrough (run Engine.step .start cancelledRun) "wake-gentle" wakeGentle := by
  refine ⟨by decide,by decide,?_⟩
  intro through
  have all := through .userCommand "wake-gentle" 120000 120000 [120000,120000,180000,180000] rfl
  exact absurd all (by decide)

end EvoCore.PlanEngine
