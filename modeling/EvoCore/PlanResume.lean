import EvoCore.SinglePlan

namespace EvoCore.PlanEngine
open Runs Tables Plans

def ExecutionState.active : ExecutionState → Bool
  | .running .. => true
  | .cancelled => true
  | _ => false

def ExecutionState.marker : ExecutionState → Option PlanId
  | .preempted _ byPlan _ => some byPlan
  | _ => none

-- What the run of a task was fired against: the plan that it preempted, and whether that plan has
-- been running or cancelled in no state since.
structure Origin where
  victim : Option PlanId
  undisturbed : Bool
deriving DecidableEq,Repr

def Origin.note (states : Table PlanId ExecutionState) (origin : Origin) : Origin :=
  { origin with undisturbed := origin.undisturbed && !(origin.victim.any fun victim => (get states victim).any (·.active)) }

def Engine.quiet (s : Engine) (id first : PlanId) : Bool :=
  !(get s.executionStates id).any (·.isRunning) && (otherRunning s.executionStates id first).isNone

def spawnedBy (s : Engine) : EngineEvent → Option Origin
  | .fireStep i _ first =>
    match s.fires[i]? with
    | some (.checking plan _) => if s.quiet plan.id first then some ⟨none,true⟩ else none
    | some (.stamping _ _ victim _) => some ⟨some victim,true⟩
    | _ => none
  | _ => none

structure History where
  engine : Engine
  origins : List Origin

def History.start : History := ⟨.start,[]⟩

def History.step (h : History) (event : EngineEvent) : History :=
  ⟨h.engine.step event,h.origins.map (Origin.note (h.engine.step event).executionStates)++(spawnedBy h.engine event).toList⟩

-- At the end of the last segment: the plan of the origin, or nothing without one.
def Due (origin : Origin) (stage : Option Stage) : Prop :=
  (origin.victim = none → stage = some (.completing none)) ∧
    ∀ victim,origin.victim = some victim → origin.undisturbed → stage = some (.completing (some (victim,.resumeAfterPreempt)))

structure Resumes (h : History) (event : EngineEvent) : Prop where
  due : ∀ j nowMs first task origin,event = .taskStep j nowMs first → h.engine.tasks[j]? = some task → task.stage = .resuming →
    h.origins[j]? = some origin → Due origin ((h.step event).engine.tasks[j]?.map Task.stage)
  fired : ∀ j nowMs first task next,event = .taskStep j nowMs first → h.engine.tasks[j]? = some task → task.stage = .completing next →
    (h.step event).engine.fires = h.engine.fires++next.toList.map fun (target,source) => Fire.calling target source

def Stage.closing : Stage → Bool
  | .resuming => true
  | .completing _ => true
  | _ => false

def Task.resumes (task : Task) : Prop := task.stage ≠ .ended ∧ task.plan.onComplete = .resumePreviousSource

instance (task : Task) : Decidable task.resumes := inferInstanceAs (Decidable (_ ∧ _))

-- No plan has a marker of this one from an earlier run.
def Unmarked (s : Engine) (id : PlanId) : Prop := ∀ entry ∈ s.executionStates.entries,entry.2.marker ≠ some id

instance (s : Engine) (id : PlanId) : Decidable (Unmarked s id) := inferInstanceAs (Decidable (∀ entry ∈ _,_))

structure Stampable (s : Engine) (plan : Plan) (victim : PlanId) : Prop where
  unmarked : plan.onComplete = .resumePreviousSource → Unmarked s plan.id
  alone : ∀ task ∈ s.tasks,task.plan.id = plan.id → ¬task.resumes
  fresh : (get s.executionStates victim).any (·.isPreempted) = false
  underway : ∀ task ∈ s.tasks,task.plan.id = victim → task.stage.closing = false

instance (s : Engine) (plan : Plan) (victim : PlanId) : Decidable (Stampable s plan victim) :=
  decidable_of_iff ((plan.onComplete = .resumePreviousSource → Unmarked s plan.id) ∧ (∀ task ∈ s.tasks,task.plan.id = plan.id → ¬task.resumes) ∧
      (get s.executionStates victim).any (·.isPreempted) = false ∧ ∀ task ∈ s.tasks,task.plan.id = victim → task.stage.closing = false) (by
    constructor
    · rintro ⟨unmarked,alone,fresh,underway⟩
      exact ⟨unmarked,alone,fresh,underway⟩
    · intro stampable
      exact ⟨stampable.unmarked,stampable.alone,stampable.fresh,stampable.underway⟩)

-- A run that resumes starts without markers of its plan; a plan is preempted by one that has no
-- such run left, while it is not preempted already and before its own tasks close.
def Separate (h : History) (event : EngineEvent) : Prop :=
  ∀ i nowMs first,event = .fireStep i nowMs first →
    (∀ plan firedAtMs,h.engine.fires[i]? = some (.checking plan firedAtMs) → h.engine.quiet plan.id first →
      plan.onComplete = .resumePreviousSource → Unmarked h.engine plan.id) ∧
    ∀ plan firedAtMs victim segmentIdx,h.engine.fires[i]? = some (.stamping plan firedAtMs victim segmentIdx) → Stampable h.engine plan victim

variable {h : History} {s after : Engine} {j : Nat} {task : Task} {plan : Plan} {state : ExecutionState} {origin : Origin}
  {id first victim other : PlanId}

theorem unmarked_get (unmarked : Unmarked s id) (there : get s.executionStates other = some state) : state.marker ≠ some id :=
  unmarked ⟨other,state⟩ ((entries_get _).mpr there)

theorem marked_preempted (marked : state.marker = some id) : state.isPreempted = true := by
  cases state with
  | preempted segment byPlan atMs => rfl
  | _ => cases marked

-- A preempted plan has no task that closes, and only a plan that says so resumes another.
structure Fit (states : Table PlanId ExecutionState) (task : Task) : Prop where
  drained : (get states task.plan.id).any (·.isPreempted) → task.stage.closing = false
  declared : task.stage = .resuming → task.plan.onComplete = .resumePreviousSource

structure Attributed (h : History) : Prop where
  counted : h.origins.length = h.engine.tasks.length
  valid : ∀ fire ∈ h.engine.fires,fire.valid
  fit : ∀ task ∈ h.engine.tasks,Fit h.engine.executionStates task
  marks : ∀ (j : Nat) task origin,h.engine.tasks[j]? = some task → task.resumes → h.origins[j]? = some origin →
    ∀ other state,get h.engine.executionStates other = some state → state.marker = some task.plan.id → origin.victim = some other
  kept : ∀ (j : Nat) task origin victim,h.engine.tasks[j]? = some task → task.resumes → h.origins[j]? = some origin →
    origin.victim = some victim → origin.undisturbed = true →
    ∃ state,get h.engine.executionStates victim = some state ∧ state.marker = some task.plan.id

-- What a step without a stamp of preemption does: a marker goes only where its plan runs again
-- or is cancelled, and no marker comes.
structure Fades (s after : Engine) : Prop where
  tasks : ∀ (j : Nat) task,after.tasks[j]? = some task → ∃ old,s.tasks[j]? = some old ∧ old.plan = task.plan ∧ (task.stage ≠ .ended → old.stage ≠ .ended)
  count : after.tasks.length = s.tasks.length
  valid : (∀ fire ∈ s.fires,fire.valid) → ∀ fire ∈ after.fires,fire.valid
  fit : ∀ task ∈ after.tasks,Fit after.executionStates task
  stays : ∀ other state,get s.executionStates other = some state → state.isPreempted →
    get after.executionStates other = some state ∨ (get after.executionStates other).any (·.active)
  new : ∀ other state,get after.executionStates other = some state → get s.executionStates other = some state ∨ state.marker = none

theorem fades_attributed (attributed : Attributed h) (fades : Fades h.engine after) :
    Attributed ⟨after,h.origins.map (Origin.note after.executionStates)⟩ := by
  have back : ∀ (j : Nat) task origin,after.tasks[j]? = some task → task.resumes →
      (h.origins.map (Origin.note after.executionStates))[j]? = some origin →
      ∃ old before,h.engine.tasks[j]? = some old ∧ old.plan = task.plan ∧ old.resumes ∧ h.origins[j]? = some before ∧
        origin = before.note after.executionStates := by
    intro j task origin there resumes known
    obtain ⟨old,was,same,live⟩ := fades.tasks j task there
    rw [List.getElem?_map] at known
    obtain ⟨before,held,rfl⟩ := Option.map_eq_some_iff.mp known
    exact ⟨old,before,was,same,⟨live resumes.1,same ▸ resumes.2⟩,held,rfl⟩
  constructor
  · rw [List.length_map,attributed.counted]
    exact fades.count.symm
  · exact fades.valid attributed.valid
  · exact fades.fit
  · intro j task origin there resumes known other state found marked
    obtain ⟨old,before,was,same,resumed,held,rfl⟩ := back j task origin there resumes known
    rcases fades.new other state found with unchanged | none_
    · exact attributed.marks j old before was resumed held other state unchanged (by rw [same]; exact marked)
    · rw [none_] at marked
      cases marked
  · intro j task origin victim there resumes known named undisturbed
    obtain ⟨old,before,was,same,resumed,held,rfl⟩ := back j task origin there resumes known
    simp only [Origin.note,Bool.and_eq_true,Bool.not_eq_true'] at undisturbed
    have named_ : before.victim = some victim := named
    obtain ⟨state,found,marked⟩ := attributed.kept j old before victim was resumed held named_ undisturbed.1
    rw [same] at marked
    rcases fades.stays victim state found (marked_preempted marked) with stays | active
    · exact ⟨state,stays,marked⟩
    · have calm := undisturbed.2
      rw [named_,Option.any_some,active] at calm
      cases calm

theorem spawn_stage (valid : plan.segments ≠ []) : planStage plan 0 = .entering 0 := by
  unfold planStage
  rw [if_pos (List.length_pos_of_ne_nil valid)]

theorem calm_fades (attributed : Attributed h) (tasks : after.tasks = h.engine.tasks) (states : after.executionStates = h.engine.executionStates)
    (valid : (∀ fire ∈ h.engine.fires,fire.valid) → ∀ fire ∈ after.fires,fire.valid) : Fades h.engine after := by
  constructor
  · intro j task there
    rw [tasks] at there
    exact ⟨task,there,rfl,fun live => live⟩
  · rw [tasks]
  · exact valid
  · rw [tasks,states]
    exact attributed.fit
  · intro other state there _
    rw [states]
    exact .inl there
  · intro other state there
    rw [states] at there
    exact .inl there

theorem moved_fades (attributed : Attributed h) (there : h.engine.tasks[j]? = some task) (live : task.stage ≠ .ended)
    (fits : Fit h.engine.executionStates {task with stage := stage}) : Fades h.engine (h.engine.moveTo j stage) := by
  constructor
  · intro k other found
    rcases modified found with ⟨-,same⟩ | ⟨old,rfl,was,rfl⟩
    · exact ⟨other,same,rfl,fun live => live⟩
    · cases Option.some.inj (there.symm.trans was)
      exact ⟨task,was,rfl,fun _ => live⟩
  · exact List.length_modify ..
  · exact fun all => all
  · intro other member
    obtain ⟨k,found⟩ := List.mem_iff_getElem?.mp member
    rcases modified found with ⟨-,same⟩ | ⟨old,rfl,was,rfl⟩
    · exact attributed.fit other (List.mem_of_getElem? same)
    · cases Option.some.inj (there.symm.trans was)
      exact fits
  · exact fun other state found _ => .inl found
  · exact fun other state found => .inl found

theorem writes_fades (attributed : Attributed h) (there : h.engine.tasks[j]? = some task) (live : task.stage ≠ .ended)
    (unmarked : state.isPreempted = false)
    (seen : state.active = true ∨ (get h.engine.executionStates task.plan.id).any (·.isPreempted) = false)
    (states : after.executionStates = h.engine.executionStates.insert task.plan.id state)
    (tasks : after.tasks = h.engine.tasks.modify j change) (planned : ∀ t,(change t).plan = t.plan)
    (away : ∀ t,(change t).stage ≠ .resuming) (valid : (∀ fire ∈ h.engine.fires,fire.valid) → ∀ fire ∈ after.fires,fire.valid) : Fades h.engine after := by
  have plain : state.marker = none := by
    cases state with
    | preempted segment byPlan atMs => cases unmarked
    | _ => rfl
  constructor
  · intro k other found
    rw [tasks] at found
    rcases modified found with ⟨-,same⟩ | ⟨old,rfl,was,rfl⟩
    · exact ⟨other,same,rfl,fun live => live⟩
    · cases Option.some.inj (there.symm.trans was)
      exact ⟨task,was,(planned task).symm,fun _ => live⟩
  · rw [tasks,List.length_modify]
  · exact valid
  · intro other member
    rw [tasks] at member
    obtain ⟨k,found⟩ := List.mem_iff_getElem?.mp member
    constructor
    · intro preempted
      rw [states,get_insert] at preempted
      split at preempted
      · rw [Option.any_some,unmarked] at preempted
        cases preempted
      · rename_i apart
        rcases modified found with ⟨-,same⟩ | ⟨old,rfl,was,rfl⟩
        · exact (attributed.fit other (List.mem_of_getElem? same)).drained preempted
        · cases Option.some.inj (there.symm.trans was)
          exact absurd (congrArg Plan.id (planned task)) apart
    · intro resuming
      rcases modified found with ⟨-,same⟩ | ⟨old,rfl,was,rfl⟩
      · exact (attributed.fit other (List.mem_of_getElem? same)).declared resuming
      · exact absurd resuming (away old)
  · intro other before found preempted
    rw [states,get_insert]
    split
    · rename_i same
      subst same
      rcases seen with active | quiet
      · exact .inr (by rw [Option.any_some]; exact active)
      · rw [found,Option.any_some,preempted] at quiet
        cases quiet
    · exact .inl found
  · intro other new found
    rw [states,get_insert] at found
    split at found
    · cases found
      exact .inr plain
    · exact .inl found

theorem cancel_fades (attributed : Attributed h) (id : PlanId) : Fades h.engine (h.engine.cancelPlan id) := by
  unfold Engine.cancelPlan
  split
  · constructor
    · intro k other found
      simp only [Engine.stamp,List.getElem?_map,Option.map_eq_some_iff] at found
      obtain ⟨old,was,rfl⟩ := found
      refine ⟨old,was,by simp,fun live => ?_⟩
      rwa [halt_stage] at live
    · exact List.length_map ..
    · exact fun all => all
    · intro other member
      obtain ⟨old,was,rfl⟩ := List.mem_map.mp member
      constructor
      · intro preempted
        rw [halt_stage]
        simp only [Engine.stamp,halt_plan,get_insert] at preempted
        split at preempted
        · cases preempted
        · exact (attributed.fit old was).drained preempted
      · rw [halt_stage,halt_plan]
        exact (attributed.fit old was).declared
    · intro other before found preempted
      simp only [Engine.stamp,get_insert]
      split
      · exact .inr rfl
      · exact .inl found
    · intro other new found
      simp only [Engine.stamp,get_insert] at found
      split at found
      · cases found
        exact .inr rfl
      · exact .inl found
  · exact calm_fades attributed rfl rfl fun all => all

theorem closing_quiet (attributed : Attributed h) (there : h.engine.tasks[j]? = some task) (closing : task.stage.closing = true) :
    (get h.engine.executionStates task.plan.id).any (·.isPreempted) = false := by
  by_contra preempted
  rw [(attributed.fit task (List.mem_of_getElem? there)).drained (by simpa using preempted)] at closing
  cases closing

theorem planStage_resuming {idx : Nat} (resuming : planStage plan idx = .resuming) : plan.onComplete = .resumePreviousSource := by
  unfold planStage at resuming
  split at resuming
  · cases resuming
  · split at resuming
    · cases resuming
    · cases resuming
    · cases resuming
    · assumption

theorem still_fit {states : Table PlanId ExecutionState} (still : stage.closing = false) : Fit states {task with stage := stage} := by
  refine ⟨fun _ => still,fun resuming => ?_⟩
  change stage = .resuming at resuming
  rw [resuming] at still
  cases still

theorem task_fades (attributed : Attributed h) (nowMs : Nat) (first : PlanId) : Fades h.engine (h.engine.executePlan j nowMs first) := by
  have rests : Fades h.engine h.engine := calm_fades attributed rfl rfl fun all => all
  unfold Engine.executePlan
  cases there : h.engine.tasks[j]? with
  | none => exact rests
  | some task =>
    dsimp only
    cases stage : task.stage with
    | entering idx =>
      have live : task.stage ≠ .ended := by rw [stage]; exact Stage.noConfusion
      dsimp only
      split
      · rename_i segment found
        unfold Engine.enterSegment
        split
        · exact moved_fades attributed there live (still_fit rfl)
        · exact writes_fades attributed there live rfl (.inl rfl) rfl rfl (fun _ => rfl) (fun _ none_ => by cases none_) fun all => all
      · exact rests
    | waiting idx =>
      have live : task.stage ≠ .ended := by rw [stage]; exact Stage.noConfusion
      dsimp only
      split
      · exact moved_fades attributed there live (still_fit rfl)
      · rename_i goes
        refine moved_fades attributed there live ⟨fun preempted => absurd ?_ goes,planStage_resuming⟩
        unfold shouldExitExecution
        cases found : get h.engine.executionStates task.plan.id with
        | none => simp [found] at preempted
        | some state =>
          have preempted_ : state.isPreempted = true := by simpa [found] using preempted
          rw [Option.any_some,preempted_,Bool.or_true]
    | leaving =>
      have live : task.stage ≠ .ended := by rw [stage]; exact Stage.noConfusion
      dsimp only
      split
      · exact moved_fades attributed there live (still_fit rfl)
      · exact moved_fades attributed there live (still_fit rfl)
    | cancelling =>
      have live : task.stage ≠ .ended := by rw [stage]; exact Stage.noConfusion
      exact writes_fades attributed there live rfl (.inl rfl) rfl rfl (fun _ => rfl) (fun _ none_ => by cases none_) fun all => all
    | resuming =>
      have live : task.stage ≠ .ended := by rw [stage]; exact Stage.noConfusion
      have quiet := closing_quiet attributed there (by rw [stage]; rfl)
      refine moved_fades attributed there live ⟨fun preempted => ?_,fun none_ => by cases none_⟩
      rw [quiet] at preempted
      cases preempted
    | completing next =>
      have live : task.stage ≠ .ended := by rw [stage]; exact Stage.noConfusion
      have quiet := closing_quiet attributed there (by rw [stage]; rfl)
      refine writes_fades attributed there live rfl (.inr quiet) rfl rfl (fun _ => rfl) (fun _ none_ => by cases none_) ?_
      intro all fire member
      rcases List.mem_append.mp member with old | new
      · exact all fire old
      · obtain ⟨target,-,rfl⟩ := List.mem_map.mp new
        trivial
    | ended => exact rests

theorem append_attributed {origins : List Origin} {fires : List Fire} (attributed : Attributed ⟨s,origins⟩) (valid : plan.segments ≠ [])
    (calls : ∀ fire ∈ fires,fire.valid)
    (marks : plan.onComplete = .resumePreviousSource → ∀ other state,get s.executionStates other = some state → state.marker = some plan.id →
      origin.victim = some other)
    (kept : ∀ victim,origin.victim = some victim → ∃ state,get s.executionStates victim = some state ∧ state.marker = some plan.id) :
    Attributed ⟨{s with fires := fires,tasks := s.tasks++[⟨plan,planStage plan 0,[],false⟩]},origins++[origin]⟩ := by
  have counted : origins.length = s.tasks.length := attributed.counted
  have parts : ∀ (j : Nat) task found,(s.tasks++[⟨plan,planStage plan 0,[],false⟩])[j]? = some task → (origins++[origin])[j]? = some found →
      (s.tasks[j]? = some task ∧ origins[j]? = some found) ∨ (task = ⟨plan,planStage plan 0,[],false⟩ ∧ found = origin) := by
    intro j task found there known
    rcases append_cases there with was | ⟨at_,rfl⟩
    · obtain ⟨bound,-⟩ := List.getElem?_eq_some_iff.mp was
      rw [List.getElem?_append_left (by omega)] at known
      exact .inl ⟨was,known⟩
    · rw [at_,← counted,List.getElem?_append_right (Nat.le_refl _),Nat.sub_self] at known
      exact .inr ⟨rfl,(Option.some.inj known).symm⟩
  constructor
  · simp [counted]
  · exact calls
  · intro task member
    rcases List.mem_append.mp member with old | new
    · exact attributed.fit task old
    · cases List.mem_singleton.mp new
      rw [spawn_stage valid]
      exact ⟨fun _ => rfl,fun none_ => by cases none_⟩
  · intro j task found there resumes known other state here marked
    rcases parts j task found there known with ⟨was,held⟩ | ⟨rfl,rfl⟩
    · exact attributed.marks j task found was resumes held other state here marked
    · exact marks resumes.2 other state here marked
  · intro j task found victim there resumes known named undisturbed
    rcases parts j task found there known with ⟨was,held⟩ | ⟨rfl,rfl⟩
    · exact attributed.kept j task found victim was resumes held named undisturbed
    · exact kept victim named

theorem stamp_attributed (attributed : Attributed h) (stampable : Stampable h.engine plan victim) (segmentIdx firedAtMs : Nat) :
    Attributed ⟨h.engine.stamp victim (.preempted segmentIdx plan.id firedAtMs),
      h.origins.map (Origin.note (h.engine.stamp victim (.preempted segmentIdx plan.id firedAtMs)).executionStates)⟩ := by
  have back : ∀ (j : Nat) task,(h.engine.tasks.map (Task.halt victim))[j]? = some task → ∃ old,h.engine.tasks[j]? = some old ∧
      old.plan = task.plan ∧ old.stage = task.stage := by
    intro j task there
    rw [List.getElem?_map] at there
    obtain ⟨old,was,rfl⟩ := Option.map_eq_some_iff.mp there
    exact ⟨old,was,halt_plan.symm,halt_stage.symm⟩
  constructor
  · simp [Engine.stamp,attributed.counted]
  · exact attributed.valid
  · intro task member
    obtain ⟨j,there⟩ := List.mem_iff_getElem?.mp member
    obtain ⟨old,was,same,stage⟩ := back j task there
    have fit := attributed.fit old (List.mem_of_getElem? was)
    constructor
    · intro preempted
      rw [← stage]
      simp only [Engine.stamp,get_insert] at preempted
      split at preempted
      · rename_i own
        exact stampable.underway old (List.mem_of_getElem? was) (by rw [same]; exact own)
      · exact fit.drained (by rw [same]; exact preempted)
    · rw [← stage,← same]
      exact fit.declared
  · intro j task origin there resumes known other state found marked
    obtain ⟨old,was,same,stage⟩ := back j task there
    rw [List.getElem?_map] at known
    obtain ⟨before,held,rfl⟩ := Option.map_eq_some_iff.mp known
    have resumed : old.resumes := by
      unfold Task.resumes
      rw [stage,same]
      exact resumes
    simp only [Engine.stamp,get_insert] at found
    split at found
    · cases found
      have own : plan.id = task.plan.id := Option.some.inj marked
      exact absurd resumed (stampable.alone old (List.mem_of_getElem? was) (by rw [same,own]))
    · exact attributed.marks j old before was resumed held other state found (by rw [same]; exact marked)
  · intro j task origin named there resumes known victim_ undisturbed
    obtain ⟨old,was,same,stage⟩ := back j task there
    rw [List.getElem?_map] at known
    obtain ⟨before,held,rfl⟩ := Option.map_eq_some_iff.mp known
    have resumed : old.resumes := by
      unfold Task.resumes
      rw [stage,same]
      exact resumes
    simp only [Origin.note,Bool.and_eq_true] at undisturbed
    obtain ⟨state,found,marked⟩ := attributed.kept j old before named was resumed held victim_ undisturbed.1
    have apart : named ≠ victim := by
      rintro rfl
      have fresh := stampable.fresh
      rw [found,Option.any_some,marked_preempted marked] at fresh
      cases fresh
    refine ⟨state,?_,by rw [← same]; exact marked⟩
    simp only [Engine.stamp,get_insert,if_neg apart]
    exact found

theorem fire_attributed (attributed : Attributed h) (separate : Separate h (.fireStep i nowMs first)) :
    Attributed (h.step (.fireStep i nowMs first)) := by
  have calm : ∀ after,Fades h.engine after → Attributed ⟨after,h.origins.map (Origin.note after.executionStates)++[]⟩ := by
    intro after fades
    rw [List.append_nil]
    exact fades_attributed attributed fades
  have returns : ∀ (fire : Fire) (fireLog : Table PlanId FireLogEntry),fire.valid →
      Fades h.engine {h.engine with fires := h.engine.fires.set i fire,fireLog := fireLog} := by
    intro fire fireLog valid
    refine calm_fades attributed rfl rfl fun all other member => ?_
    rcases List.mem_or_eq_of_mem_set member with old | rfl
    · exact all other old
    · exact valid
  have set_valid : ∀ fire ∈ h.engine.fires.set i .returned,fire.valid := by
    intro fire member
    rcases List.mem_or_eq_of_mem_set member with old | rfl
    · exact attributed.valid fire old
    · trivial
  obtain ⟨checks,stamps⟩ := separate i nowMs first rfl
  unfold History.step
  simp only [Engine.step,spawnedBy]
  unfold Engine.firePlanInner
  cases called : h.engine.fires[i]? with
  | none => exact calm _ (calm_fades attributed rfl rfl fun all => all)
  | some fire =>
    cases fire with
    | calling id source =>
      dsimp only
      cases found : get h.engine.registry.plans id with
      | none => exact calm _ (returns .returned h.engine.fireLog trivial)
      | some plan => exact calm _ (returns (.checking plan nowMs) _ (h.engine.registry.sound id plan found).2)
    | returned => exact calm _ (calm_fades attributed rfl rfl fun all => all)
    | checking plan firedAtMs =>
      have valid : plan.segments ≠ [] := attributed.valid (.checking plan firedAtMs) (List.mem_of_getElem? called)
      have quietly := checks plan firedAtMs called
      unfold Engine.quiet at quietly ⊢
      dsimp only
      cases self : (get h.engine.executionStates plan.id).any (·.isRunning) with
      | true => exact calm _ (returns .returned h.engine.fireLog trivial)
      | false =>
        rw [self] at quietly
        cases found : otherRunning h.engine.executionStates plan.id first with
        | none =>
          rw [found] at quietly
          refine append_attributed (fades_attributed attributed (calm_fades attributed rfl rfl fun all => all)) valid set_valid ?_ ?_
          · intro resumes other state there marked
            exact absurd marked (unmarked_get (quietly rfl resumes) there)
          · intro victim none_
            cases none_
        | some running =>
          obtain ⟨victim,segmentIdx⟩ := running
          refine calm _ ?_
          simp only [Bool.false_eq_true,if_false]
          split
          · exact returns (.stamping plan firedAtMs victim segmentIdx) h.engine.fireLog valid
          · exact returns .returned h.engine.fireLog trivial
    | stamping plan firedAtMs victim segmentIdx =>
      have valid : plan.segments ≠ [] := attributed.valid (.stamping plan firedAtMs victim segmentIdx) (List.mem_of_getElem? called)
      have stampable := stamps plan firedAtMs victim segmentIdx called
      have stamped := stamp_attributed attributed stampable segmentIdx firedAtMs
      have mine : get (h.engine.stamp victim (.preempted segmentIdx plan.id firedAtMs)).executionStates victim =
          some (.preempted segmentIdx plan.id firedAtMs) := by simp [Engine.stamp]
      have noticed : Attributed ⟨(h.engine.stamp victim (.preempted segmentIdx plan.id firedAtMs)).notify (get h.engine.latest victim) victim .preempted,
          h.origins.map (Origin.note (h.engine.stamp victim (.preempted segmentIdx plan.id firedAtMs)).executionStates)⟩ :=
        ⟨stamped.counted,stamped.valid,stamped.fit,stamped.marks,stamped.kept⟩
      refine append_attributed noticed valid set_valid ?_ ?_
      · intro resumes other state there marked
        by_cases same : other = victim
        · rw [same]
        · have before : get h.engine.executionStates other = some state := by
            simpa [Engine.stamp,Engine.notify,same] using there
          exact absurd marked (unmarked_get (stampable.unmarked resumes) before)
      · intro named same
        cases Option.some.inj same
        exact ⟨_,mine,rfl⟩

theorem step_attributed (h : History) (event : EngineEvent) (attributed : Attributed h) (separate : Separate h event) : Attributed (h.step event) := by
  have calm : ∀ after,Fades h.engine after → Attributed ⟨after,h.origins.map (Origin.note after.executionStates)++[]⟩ := by
    intro after fades
    rw [List.append_nil]
    exact fades_attributed attributed fades
  cases event with
  | register plan =>
    refine calm _ ?_
    simp only [Engine.step]
    split
    · exact calm_fades attributed rfl rfl fun all => all
    · exact calm_fades attributed rfl rfl fun all => all
  | unregister id => exact calm _ (calm_fades attributed rfl rfl fun all => all)
  | firePlan id source =>
    refine calm _ (calm_fades attributed rfl rfl fun all fire member => ?_)
    rcases List.mem_append.mp member with old | new
    · exact all fire old
    · cases List.mem_singleton.mp new
      trivial
  | fireStep i nowMs first => exact fire_attributed attributed separate
  | taskStep j nowMs first => exact calm _ (task_fades attributed nowMs first)
  | cancelPlan id => exact calm _ (cancel_fades attributed id)

-- The plans with a marker of this one, and when they got it.
def preemptedBy (states : Table PlanId ExecutionState) (id : PlanId) : List (PlanId × Nat) :=
  states.entries.filterMap fun e =>
    match e.2 with
    | .preempted _ byPlan atMs => if byPlan = id then some (e.1,atMs) else none
    | _ => none

def newestOf (marked : List (PlanId × Nat)) : List (PlanId × Nat) := marked.filter fun candidate => marked.all fun other => other.2 ≤ candidate.2

theorem resumeTarget_newest (states : Table PlanId ExecutionState) : resumeTarget states id first =
    (((newestOf (preemptedBy states id)).find? fun candidate => candidate.1 = first).or (newestOf (preemptedBy states id)).getLast?).map (·.1) := rfl

theorem mem_preemptedBy {states : Table PlanId ExecutionState} : (other,ms) ∈ preemptedBy states id ↔
    ∃ segmentIdx,get states other = some (.preempted segmentIdx id ms) := by
  unfold preemptedBy
  rw [List.mem_filterMap]
  constructor
  · rintro ⟨⟨plan,state⟩,listed,shape⟩
    cases state with
    | preempted segmentIdx byPlan atMs =>
      simp only [Option.ite_none_right_eq_some,Option.some.injEq,Prod.mk.injEq] at shape
      obtain ⟨rfl,rfl,rfl⟩ := shape
      exact ⟨segmentIdx,(entries_get states).mp listed⟩
    | _ => cases shape
  · rintro ⟨segmentIdx,found⟩
    exact ⟨⟨other,_⟩,(entries_get states).mpr found,by simp⟩

theorem marker_some (marked : state.marker = some id) : ∃ segmentIdx ms,state = .preempted segmentIdx id ms := by
  cases state with
  | preempted segmentIdx byPlan atMs =>
    cases marked
    exact ⟨segmentIdx,atMs,rfl⟩
  | _ => cases marked

theorem resumeTarget_mem {states : Table PlanId ExecutionState} (found : resumeTarget states id first = some other) :
    ∃ state,get states other = some state ∧ state.marker = some id := by
  rw [resumeTarget_newest] at found
  obtain ⟨⟨plan,ms⟩,chosen,same⟩ := Option.map_eq_some_iff.mp found
  dsimp only at same
  subst same
  have newest : (plan,ms) ∈ newestOf (preemptedBy states id) := by
    rcases Option.or_eq_some_iff.mp chosen with early | ⟨-,late⟩
    · exact List.mem_of_find?_eq_some early
    · exact List.mem_of_getLast? late
  obtain ⟨segmentIdx,there⟩ := mem_preemptedBy.mp (List.mem_filter.mp newest).1
  exact ⟨_,there,rfl⟩

theorem resumeTarget_some {states : Table PlanId ExecutionState} (there : get states victim = some state) (marked : state.marker = some id)
    (only : ∀ other state,get states other = some state → state.marker = some id → other = victim) :
    resumeTarget states id first = some victim := by
  obtain ⟨segmentIdx,ms,rfl⟩ := marker_some marked
  have all : ∀ candidate ∈ preemptedBy states id,candidate = (victim,ms) := by
    rintro ⟨other,when_⟩ listed
    obtain ⟨segment,found⟩ := mem_preemptedBy.mp listed
    have same := only other _ found rfl
    subst same
    cases Option.some.inj (there.symm.trans found)
    rfl
  have newest : (victim,ms) ∈ newestOf (preemptedBy states id) := by
    refine List.mem_filter.mpr ⟨mem_preemptedBy.mpr ⟨segmentIdx,there⟩,List.all_eq_true.mpr fun other listed => ?_⟩
    rw [all other listed]
    exact decide_eq_true (Nat.le_refl ms)
  cases found : resumeTarget states id first with
  | some other =>
    obtain ⟨state,here,marker⟩ := resumeTarget_mem found
    rw [only other state here marker]
  | none =>
    rw [resumeTarget_newest] at found
    have gone := (Option.or_eq_none_iff.mp (Option.map_eq_none_iff.mp found)).2
    rw [List.getLast?_eq_none_iff] at gone
    rw [gone] at newest
    cases newest

theorem resumes_due (attributed : Attributed h) (event : EngineEvent) : Resumes h event := by
  constructor
  · rintro j nowMs first task origin rfl there resuming known
    have resumes : task.resumes := by
      refine ⟨?_,(attributed.fit task (List.mem_of_getElem? there)).declared resuming⟩
      rw [resuming]
      exact Stage.noConfusion
    have step : (h.step (.taskStep j nowMs first)).engine.tasks[j]?.map Task.stage =
        some (.completing ((resumeTarget h.engine.executionStates task.plan.id first).map fun target => (target,.resumeAfterPreempt))) := by
      simp only [History.step,Engine.step,Engine.executePlan,there,resuming,Engine.moveTo]
      rw [modify_same there]
      rfl
    have only := attributed.marks j task origin there resumes known
    constructor
    · intro idle
      cases target : resumeTarget h.engine.executionStates task.plan.id first with
      | none => rw [step,target]; rfl
      | some other =>
        obtain ⟨state,found,marked⟩ := resumeTarget_mem target
        have named := only other state found marked
        rw [idle] at named
        cases named
    · intro victim named undisturbed
      obtain ⟨state,found,marked⟩ := attributed.kept j task origin victim there resumes known named undisturbed
      have target : resumeTarget h.engine.executionStates task.plan.id first = some victim := by
        refine resumeTarget_some found marked ?_
        intro other state found marked
        exact Option.some.inj ((only other state found marked).symm.trans named)
      rw [step,target]
      rfl
  · rintro j nowMs first task next rfl there completing
    simp only [History.step,Engine.step,Engine.executePlan,there,completing]
    rfl

theorem start_attributed : Attributed .start := by
  constructor
  · rfl
  · intro fire none_
    cases none_
  · intro task none_
    cases none_
  · intro j task origin there
    cases there
  · intro j task origin victim there
    cases there

-- Resume restores exactly what this run preempted, where each run is kept apart from the earlier ones.
theorem resume_restores (events : List EngineEvent) (separate : Guarded History.step Separate .start events) :
    Guarded History.step Resumes .start events :=
  guarded_carries step_attributed (fun _ event attributed _ => resumes_due attributed event) start_attributed separate

instance (h : History) (event : EngineEvent) : Decidable (Separate h event) :=
  match event with
  | .fireStep i _ first =>
    match there : h.engine.fires[i]? with
    | some (.checking plan _) =>
      decidable_of_iff (h.engine.quiet plan.id first → plan.onComplete = .resumePreviousSource → Unmarked h.engine plan.id) (by simp [Separate,there])
    | some (.stamping plan _ victim _) =>
      decidable_of_iff (Stampable h.engine plan victim) (by
        constructor
        · rintro stampable _ _ _ ⟨⟩
          constructor
          · intro _ _ found
            cases there.symm.trans found
          · intro _ _ _ _ found
            cases there.symm.trans found
            exact stampable
        · exact fun separate => (separate _ _ _ rfl).2 _ _ _ _ there)
    | some (.calling _ _) => .isTrue (by simp [Separate,there])
    | some .returned => .isTrue (by simp [Separate,there])
    | none => .isTrue (by simp [Separate,there])
  | .register _ => .isTrue (by simp [Separate])
  | .unregister _ => .isTrue (by simp [Separate])
  | .firePlan _ _ => .isTrue (by simp [Separate])
  | .taskStep _ _ _ => .isTrue (by simp [Separate])
  | .cancelPlan _ => .isTrue (by simp [Separate])

theorem dinner_resumes : Guarded History.step Resumes .start dinnerRun := resume_restores dinnerRun (by decide)

def doorbell : Plan := ⟨"doorbell","Doorbell",.userCommand,true,[⟨.duration 10⟩],.stop,0⟩

-- A third plan preempts the one that resumes; fired once more, against an idle engine, that one
-- still has its first run's marker.
def staleRun : List EngineEvent :=
  [.register wakeGentle,.register dinnerTime,.register doorbell,.firePlan "wake-gentle" .userCommand,fires 0 0,fires 0 0,walks 0 0,
    .firePlan "dinner-time" .userCommand,fires 1 1000,fires 1 1000,fires 1 1000,walks 0 1000,walks 0 1000,walks 1 1000,
    .firePlan "doorbell" .userCommand,fires 2 2000,fires 2 2000,fires 2 2000,walks 1 2000,walks 1 2000,walks 2 2000,walks 2 12000,walks 2 12000,
    .firePlan "dinner-time" .userCommand,fires 3 20000,fires 3 20000,walks 3 20000,walks 3 80000,walks 3 80000]

theorem stale_marker_resumed : ¬∀ events,Guarded History.step Resumes .start events := by
  intro always
  have split : staleRun = staleRun.take 28++[walks 3 80000] := by decide
  have all := always staleRun
  rw [split,guarded_append] at all
  have last := all.2.1.due 3 80000 "wake-gentle" ⟨dinnerTime,.resuming,[0],false⟩ ⟨none,true⟩ rfl (by decide) rfl (by decide)
  have stage := last.1 rfl
  revert stage
  decide

end EvoCore.PlanEngine
