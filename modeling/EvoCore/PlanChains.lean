import EvoCore.PlanCycles
import EvoCore.PlanRefire

namespace EvoCore.PlanEngine
open Runs Tables Plans

def startedBy (j : Nat) (s : Engine) : EngineEvent → List Fire
  | .taskStep k nowMs first => if k = j then (s.executePlan k nowMs first).fires.drop s.fires.length else []
  | _ => []

def startedIn (j : Nat) : Engine → List EngineEvent → List Fire
  | _,[] => []
  | s,event::rest => startedBy j s event ++ startedIn j (s.step event) rest

def Fire.chained : Fire → Bool
  | .calling _ .planChain => true
  | _ => false

def Engine.completed (s : Engine) (j : Nat) (id : PlanId) : Prop := ⟨some j,id,.completed⟩ ∈ s.notices

def chainTarget (plan : Plan) : List Fire :=
  match plan.onComplete with
  | .nextPlan next => [.calling next .planChain]
  | _ => []

def nextFires (next : Option (PlanId × FireSource)) : List Fire := next.toList.map fun target => .calling target.1 target.2

-- A task that completes next fires the target of its own plan.
def Fitting (plan : Plan) : Stage → Prop
  | .completing next => (nextFires next).filter Fire.chained = chainTarget plan
  | .resuming => plan.onComplete = .resumePreviousSource
  | _ => True

-- The fires of a task that are chained: its plan's target once it has completed, none before.
structure Charged (s : Engine) (started : Nat → List Fire) : Prop where
  fitting : ∀ (j : Nat) (task : Task),s.tasks[j]? = some task → Fitting task.plan task.stage
  open_ : ∀ (j : Nat) (task : Task),s.tasks[j]? = some task → (∀ id,¬ s.completed j id) → (started j).filter Fire.chained = []
  done : ∀ (j : Nat) (task : Task),s.tasks[j]? = some task → ∀ id,s.completed j id → task.stage = .ended ∧ task.plan.id = id ∧
    (started j).filter Fire.chained = chainTarget task.plan
  absent : ∀ j : Nat,s.tasks[j]? = none → started j = [] ∧ ∀ id,¬ s.completed j id

variable {s after : Engine} {j : Nat} {task : Task} {plan : Plan}

theorem planStage_fitting (plan : Plan) (idx : Nat) : Fitting plan (planStage plan idx) := by
  unfold planStage
  split
  · trivial
  · cases chained : plan.onComplete with
    | nextPlan next =>
      change (nextFires (some (next,.planChain))).filter Fire.chained = chainTarget plan
      rw [chainTarget,chained]
      rfl
    | stop =>
      change (nextFires none).filter Fire.chained = chainTarget plan
      rw [chainTarget,chained]
      rfl
    | loop => trivial
    | resumePreviousSource => exact chained

theorem startedIn_snoc (events : List EngineEvent) (event : EngineEvent) :
    startedIn j s (events++[event]) = startedIn j s events ++ startedBy j (run Engine.step s events) event := by
  induction events generalizing s with
  | nil => simp [startedIn]
  | cons first rest ih => simp [startedIn,ih]

theorem executePlan_fitting (nowMs : Nat) (first : PlanId) (there : s.tasks[j]? = some task) (fitting : Fitting task.plan task.stage) :
    (∃ next,task.stage = .completing next ∧ s.executePlan j nowMs first = s.setStateCompleted j task.plan.id next) ∨
    ((s.executePlan j nowMs first).fires = s.fires ∧
      (∀ k id,(s.executePlan j nowMs first).completed k id ↔ s.completed k id) ∧
      ∃ change,(s.executePlan j nowMs first).tasks = s.tasks.modify j change ∧ (change task).plan = task.plan ∧
        Fitting task.plan (change task).stage ∧ (task.stage = .ended → (change task).stage = .ended)) := by
  unfold Engine.executePlan
  simp only [there]
  cases stage : task.stage with
  | entering idx =>
    right
    simp only
    split
    · rename_i segment _
      unfold Engine.enterSegment
      split
      · exact ⟨rfl,fun _ _ => Iff.rfl,_,rfl,rfl,trivial,fun ended => by cases ended⟩
      · exact ⟨rfl,fun _ _ => Iff.rfl,_,rfl,rfl,trivial,fun ended => by cases ended⟩
    · exact ⟨rfl,fun _ _ => Iff.rfl,id,(List.modify_id _ _).symm,rfl,stage ▸ fitting,fun ended => by cases ended⟩
  | waiting idx =>
    right
    simp only
    split
    · exact ⟨rfl,fun _ _ => Iff.rfl,_,rfl,rfl,trivial,fun ended => by cases ended⟩
    · exact ⟨rfl,fun _ _ => Iff.rfl,_,rfl,rfl,planStage_fitting task.plan (idx+1),fun ended => by cases ended⟩
  | leaving =>
    right
    simp only
    split
    · exact ⟨rfl,fun _ _ => Iff.rfl,_,rfl,rfl,trivial,fun ended => by cases ended⟩
    · exact ⟨rfl,fun _ _ => Iff.rfl,_,rfl,rfl,trivial,fun ended => by cases ended⟩
  | cancelling =>
    right
    refine ⟨rfl,?_,_,rfl,rfl,trivial,fun ended => by cases ended⟩
    intro k id
    simp [Engine.completed,Engine.setStateCancelled,Engine.moveTo,Engine.notify]
  | resuming =>
    right
    refine ⟨rfl,fun _ _ => Iff.rfl,_,rfl,rfl,?_,fun ended => by cases ended⟩
    rw [stage] at fitting
    change (nextFires _).filter Fire.chained = chainTarget task.plan
    have resumes : task.plan.onComplete = .resumePreviousSource := fitting
    rw [chainTarget,resumes]
    cases resumeTarget s.executionStates task.plan.id first <;> rfl
  | completing next => exact .inl ⟨next,rfl,rfl⟩
  | ended => exact .inr ⟨rfl,fun _ _ => Iff.rfl,id,(List.modify_id _ _).symm,rfl,stage ▸ trivial,fun _ => stage⟩

variable {started : Nat → List Fire}

theorem Charged.beside (charged : Charged s started) (notices : ∀ k id,after.completed k id ↔ s.completed k id)
    (tasks : ∀ (k : Nat) (task : Task),after.tasks[k]? = some task →
      (∃ old,s.tasks[k]? = some old ∧ old.plan = task.plan ∧ old.stage = task.stage) ∨ (s.tasks[k]? = none ∧ Fitting task.plan task.stage))
    (fewer : ∀ k : Nat,after.tasks[k]? = none → s.tasks[k]? = none) : Charged after started := by
  constructor
  · intro k task there
    rcases tasks k task there with ⟨old,found,plan,stage⟩ | ⟨_,fitting⟩
    · rw [← plan,← stage]
      exact charged.fitting k old found
    · exact fitting
  · intro k task there none_
    rcases tasks k task there with ⟨old,found,_,_⟩ | ⟨new,_⟩
    · exact charged.open_ k old found fun id done => none_ id ((notices k id).mpr done)
    · rw [(charged.absent k new).1]
      rfl
  · intro k task there id done
    have before := (notices k id).mp done
    rcases tasks k task there with ⟨old,found,plan,stage⟩ | ⟨new,_⟩
    · rw [← plan,← stage]
      exact charged.done k old found id before
    · exact absurd before ((charged.absent k new).2 id)
  · intro k gone
    obtain ⟨empty,none_⟩ := charged.absent k (fewer k gone)
    exact ⟨empty,fun id done => none_ id ((notices k id).mp done)⟩

theorem Charged.spawn (charged : Charged s started) (i : Nat) (plan : Plan) : Charged (s.spawn i plan) started := by
  refine charged.beside (fun _ _ => Iff.rfl) ?_ ?_
  · intro k task there
    rcases append_cases there with old | ⟨rfl,rfl⟩
    · exact .inl ⟨task,old,rfl,rfl⟩
    · exact .inr ⟨List.getElem?_eq_none (le_refl _),planStage_fitting plan 0⟩
  · intro k gone
    simp only [Engine.spawn,List.getElem?_eq_none_iff,List.length_append] at gone ⊢
    omega

theorem Charged.stamp (charged : Charged s started) (id : PlanId) (state : ExecutionState) : Charged (s.stamp id state) started := by
  refine charged.beside (fun _ _ => Iff.rfl) ?_ ?_
  · intro k task there
    simp only [Engine.stamp,List.getElem?_map,Option.map_eq_some_iff] at there
    obtain ⟨old,found,rfl⟩ := there
    refine .inl ⟨old,found,?_⟩
    unfold Task.halt
    split <;> exact ⟨rfl,rfl⟩
  · intro k gone
    simpa [Engine.stamp] using gone

theorem Charged.walk (charged : Charged s started) (there : s.tasks[j]? = some task) (nowMs : Nat) (first : PlanId) :
    Charged (s.executePlan j nowMs first)
      fun k => started k ++ if j = k then (s.executePlan j nowMs first).fires.drop s.fires.length else [] := by
  rcases executePlan_fitting nowMs first there (charged.fitting j task there) with
    ⟨next,stage,completes⟩ | ⟨fires,notices,change,tasks,plan,fitting,stays⟩
  · rw [completes]
    have unfinished : ∀ id,¬ s.completed j id := by
      intro id done
      have ended := (charged.done j task there id done).1
      rw [stage] at ended
      cases ended
    have told : ∀ k id,(s.setStateCompleted j task.plan.id next).completed k id ↔ s.completed k id ∨ (k = j ∧ id = task.plan.id) := by
      intro k id
      simp [Engine.completed,Engine.setStateCompleted,Engine.moveTo,Engine.notify]
    have new : (s.setStateCompleted j task.plan.id next).fires.drop s.fires.length = nextFires next := by
      simp [Engine.setStateCompleted,Engine.moveTo,Engine.notify,nextFires]
    have target : (nextFires next).filter Fire.chained = chainTarget task.plan := by
      have fits := charged.fitting j task there
      rw [stage] at fits
      exact fits
    have tasks : (s.setStateCompleted j task.plan.id next).tasks = s.tasks.modify j ({· with stage := .ended}) := rfl
    rw [new]
    constructor
    · intro k other found
      rw [tasks] at found
      rcases modified found with ⟨_,before⟩ | ⟨old,_,before,rfl⟩
      · exact charged.fitting k other before
      · trivial
    · intro k other found none_
      rw [tasks] at found
      rcases modified found with ⟨apart,before⟩ | ⟨old,rfl,before,rfl⟩
      · rw [if_neg apart,List.append_nil]
        exact charged.open_ k other before fun id done => none_ id ((told k id).mpr (.inl done))
      · exact absurd ((told j task.plan.id).mpr (.inr ⟨rfl,rfl⟩)) (none_ task.plan.id)
    · intro k other found id done
      rw [tasks] at found
      rcases modified found with ⟨apart,before⟩ | ⟨old,rfl,before,rfl⟩
      · rw [if_neg apart,List.append_nil]
        rcases (told k id).mp done with earlier | ⟨same,_⟩
        · exact charged.done k other before id earlier
        · exact absurd same.symm apart
      · cases Option.some.inj (there.symm.trans before)
        rw [if_pos rfl,List.filter_append,charged.open_ j task there unfinished,target]
        rcases (told j id).mp done with earlier | ⟨_,own⟩
        · exact absurd earlier (unfinished id)
        · exact ⟨rfl,own.symm,rfl⟩
    · intro k gone
      rw [tasks,List.getElem?_eq_none_iff,List.length_modify,← List.getElem?_eq_none_iff] at gone
      obtain ⟨empty,none_⟩ := charged.absent k gone
      have apart : j ≠ k := by
        rintro rfl
        rw [there] at gone
        cases gone
      rw [if_neg apart,empty]
      refine ⟨rfl,fun id done => ?_⟩
      rcases (told k id).mp done with earlier | ⟨same,_⟩
      · exact none_ id earlier
      · exact apart same.symm
  · have nothing : (fun k => started k ++ if j = k then (s.executePlan j nowMs first).fires.drop s.fires.length else []) = started := by
      funext k
      simp [fires]
    rw [nothing]
    have back : ∀ (k : Nat) (other : Task),(s.executePlan j nowMs first).tasks[k]? = some other →
        (j ≠ k ∧ s.tasks[k]? = some other) ∨ (j = k ∧ other = change task) := by
      intro k other found
      rw [tasks] at found
      rcases modified found with ⟨apart,before⟩ | ⟨old,rfl,before,rfl⟩
      · exact .inl ⟨apart,before⟩
      · cases Option.some.inj (there.symm.trans before)
        exact .inr ⟨rfl,rfl⟩
    constructor
    · intro k other found
      rcases back k other found with ⟨_,before⟩ | ⟨rfl,rfl⟩
      · exact charged.fitting k other before
      · rw [plan]
        exact fitting
    · intro k other found none_
      have open_ : ∀ id,¬ s.completed k id := fun id done => none_ id ((notices k id).mpr done)
      rcases back k other found with ⟨_,before⟩ | ⟨rfl,rfl⟩
      · exact charged.open_ k other before open_
      · exact charged.open_ j task there open_
    · intro k other found id done
      have earlier := (notices k id).mp done
      rcases back k other found with ⟨_,before⟩ | ⟨rfl,rfl⟩
      · exact charged.done k other before id earlier
      · obtain ⟨ended,own,target⟩ := charged.done j task there id earlier
        rw [plan]
        exact ⟨stays ended,own,target⟩
    · intro k gone
      rw [tasks,List.getElem?_eq_none_iff,List.length_modify,← List.getElem?_eq_none_iff] at gone
      obtain ⟨empty,none_⟩ := charged.absent k gone
      exact ⟨empty,fun id done => none_ id ((notices k id).mp done)⟩

theorem Charged.step (charged : Charged s started) (event : EngineEvent) : Charged (s.step event) fun k => started k ++ startedBy k s event := by
  have quiet : ∀ after,Charged after started → (∀ k,startedBy k s event = []) → Charged after fun k => started k ++ startedBy k s event := by
    intro after held none_
    simpa only [none_,List.append_nil] using held
  cases event with
  | register plan =>
    refine quiet _ ?_ fun _ => rfl
    simp only [Engine.step]
    split
    · exact ⟨charged.fitting,charged.open_,charged.done,charged.absent⟩
    · exact charged
  | unregister id => exact quiet _ ⟨charged.fitting,charged.open_,charged.done,charged.absent⟩ fun _ => rfl
  | firePlan id source => exact quiet _ ⟨charged.fitting,charged.open_,charged.done,charged.absent⟩ fun _ => rfl
  | fireStep i nowMs first =>
    refine quiet _ ?_ fun _ => rfl
    have move : FireMove s i (s.firePlanInner i nowMs first) := firePlanInner_move
    simp only [Engine.step]
    generalize s.firePlanInner i nowMs first = after at move ⊢
    cases move with
    | rests fires fireLog valid quiet => exact ⟨charged.fitting,charged.open_,charged.done,charged.absent⟩
    | passes plan firedAtMs victim segmentIdx checking => exact ⟨charged.fitting,charged.open_,charged.done,charged.absent⟩
    | spawns plan firedAtMs checking idle => exact charged.spawn i plan
    | stamps plan firedAtMs victim segmentIdx stamping =>
      refine Charged.spawn ?_ i plan
      refine (charged.stamp victim (.preempted segmentIdx plan.id firedAtMs)).beside ?_ ?_ fun _ gone => gone
      · intro k id
        simp [Engine.completed,Engine.notify]
      · intro k task there
        exact .inl ⟨task,there,rfl,rfl⟩
  | taskStep j nowMs first =>
    cases there : s.tasks[j]? with
    | none =>
      have rests : s.executePlan j nowMs first = s := by simp only [Engine.executePlan,there]
      have none_ : ∀ k,startedBy k s (.taskStep j nowMs first) = [] := by
        intro k
        simp [startedBy,rests]
      refine quiet _ ?_ none_
      simp only [Engine.step,rests]
      exact charged
    | some task => exact charged.walk there nowMs first
  | cancelPlan id =>
    refine quiet _ ?_ fun _ => rfl
    simp only [Engine.step,Engine.cancelPlan]
    split
    · exact charged.stamp id .cancelled
    · exact charged

theorem run_charged (events : List EngineEvent) : Charged (run Engine.step .start events) fun j => startedIn j .start events := by
  induction events using List.reverseRecOn with
  | nil =>
    refine ⟨?_,?_,?_,?_⟩
    · intro j task there
      cases there
    · intro j task there
      cases there
    · intro j task there
      cases there
    · intro j _
      refine ⟨rfl,fun id done => ?_⟩
      cases done
  | append_singleton events event ih =>
    rw [run_snoc]
    have stepped := ih.step event
    simpa only [← startedIn_snoc] using stepped

variable {δ τ ω : Type} [DecidableEq δ]

-- The chain of a completed run, and the chains that the registry admits.
theorem chains_bounded (chrono : Appointments.Chrono δ τ ω) :
    (∀ (events : List EngineEvent) (j : Nat) (task : Task),(run Engine.step .start events).tasks[j]? = some task →
      (run Engine.step .start events).completed j task.plan.id →
      (startedIn j .start events).filter Fire.chained = chainTarget task.plan) ∧
    ∀ storage appointments watches (calls : List PlanRegistry.PlanBook.Call),
      Throughout (PlanRegistry.PlanBook.step chrono)
        (fun book => Chains.NoCycle (PlanRegistry.NextEdge book.plans) ∧
          ∀ path : List PlanId,path.IsChain (PlanRegistry.NextEdge book.plans) → (∀ id ∈ path,id ∈ book.plans.keys) →
            path.length ≤ book.plans.keys.length)
        ⟨∅,storage,appointments,watches⟩ calls := by
  constructor
  · intro events j task there done
    exact ((run_charged events).done j task there task.plan.id done).2.2
  · intro storage appointments watches calls
    have empty : Chains.NoCycle (PlanRegistry.NextEdge (∅ : Table PlanId Plan)) := by
      intro a cycle
      obtain ⟨b,⟨plan,there,_⟩,_⟩ := Relation.TransGen.head'_iff.mp cycle
      simp at there
    have free := @PlanRegistry.calls_free _ _ _ _ ⟨∅,storage,appointments,watches⟩ chrono empty calls
    rw [throughout_prefixes] at free ⊢
    intro k
    exact ⟨free k,fun path chain inside => (free k).chain_bounded chain inside⟩

-- Breakfast follows the alarm; the lights are triggered by the alarm's completion; the last plan by its own.
def alarm : Plan := ⟨"alarm","Alarm",.userCommand,false,[⟨.untilCompletion⟩],.nextPlan "breakfast",0⟩
def breakfast : Plan := ⟨"breakfast","Breakfast",.userCommand,false,[⟨.untilCompletion⟩],.stop,0⟩
def lights : Plan := ⟨"lights","Lights",.planCompletion "alarm",false,[⟨.untilCompletion⟩],.stop,0⟩
def forever : Plan := ⟨"forever","Forever",.planCompletion "forever",false,[⟨.untilCompletion⟩],.stop,0⟩

def morning : List EngineEvent :=
  [.register alarm,.register breakfast,.register lights,.firePlan "alarm" .userCommand,.fireStep 0 0 "",.fireStep 0 0 "",
    .taskStep 0 0 "",.taskStep 0 0 "",.taskStep 0 0 ""]

def books (plan : Plan) : PlanRegistry.PlanBook.Call := .register plan [] ⟨0,0⟩ true true

theorem breakfast_follows :
    (startedIn 0 .start morning).filter Fire.chained = [.calling "breakfast" .planChain] ∧
    Chains.NoCycle (PlanRegistry.NextEdge (run (PlanRegistry.PlanBook.step Appointments.noCalendar) PlanRegistry.freshBook
      [books alarm,books breakfast]).plans) := by
  obtain ⟨fires,free⟩ := chains_bounded Appointments.noCalendar
  obtain ⟨task,there⟩ : ∃ task,(run Engine.step .start morning).tasks[0]? = some task := ⟨_,rfl⟩
  have own : ((run Engine.step .start morning).tasks[0]?).map Task.plan = some alarm := by decide
  have planned : task.plan = alarm := by simpa [there] using own
  constructor
  · have done : (run Engine.step .start morning).completed 0 task.plan.id := by
      rw [planned]
      exact (by decide : ⟨some 0,"alarm",.completed⟩ ∈ (run Engine.step .start morning).notices)
    rw [fires morning 0 task there done,planned]
    rfl
  · exact (throughout_final (free ∅ (some ⟨∅,1000,100⟩) (some ⟨∅,1000,100⟩) [books alarm,books breakfast])).1

-- The alarm has completed and only breakfast was fired; and a registry that answers every completion
-- with a fire is let in.
theorem lights_stay_off :
    (run Engine.step .start morning).completed 0 "alarm" ∧
    get (run Engine.step .start morning).registry.plans "lights" = some lights ∧ lights.trigger = .planCompletion "alarm" ∧
    startedIn 0 .start morning = [.calling "breakfast" .planChain] ∧
    (PlanRegistry.freshBook.call Appointments.noCalendar (books forever)).2 = .ok () ∧
    Relation.TransGen (PlanRegistry.TriggerEdge (PlanRegistry.freshBook.step Appointments.noCalendar (books forever)).plans) "forever" "forever" := by
  refine ⟨?_,by decide,rfl,by decide,by decide,.single ⟨forever,by decide,rfl⟩⟩
  exact (by decide : ⟨some 0,"alarm",.completed⟩ ∈ (run Engine.step .start morning).notices)

end EvoCore.PlanEngine
