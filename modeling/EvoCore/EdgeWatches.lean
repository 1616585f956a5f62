import EvoCore.Watches

namespace EvoCore.Watches
open Runs Tables

variable {ν φ : Type} (values : Values ν φ) (maxPerSecond : Nat) (canonicalId : String) (predicate : StatePredicate ν φ)

-- The predicate alone; only a hysteresis asks more than the state.
def StatePredicate.holds (state : ν) : Bool := (applyStatePredicate values predicate state "" ∅).1

def StatePredicate.stateless : StatePredicate ν φ → Bool
  | .hysteresis _ _ _ => false
  | _ => true

-- The state changes of one subject, as one watch sees them; `previous` is the state before, which no code reads.
structure Sighting (ν φ : Type) where
  watch : Watch ν φ
  previous : Option ν

structure StateChange (ν : Type) where
  plugin : String
  newState : ν
  tick : Tick

def StateChange.seen (change : StateChange ν) : Happening ν × Tick := (.subjectStateChanged change.plugin canonicalId change.newState,change.tick)

def Sighting.step (s : Sighting ν φ) (change : StateChange ν) : Sighting ν φ :=
  ⟨s.watch.observe values maxPerSecond (change.seen canonicalId),some change.newState⟩

-- The watch fires where the predicate begins to hold and nowhere else.
def OnTransition (s : Sighting ν φ) (change : StateChange ν) : Prop :=
  s.watch.fires values maxPerSecond (change.seen canonicalId) ↔
    predicate.holds values change.newState ∧ ¬ s.previous.any (predicate.holds values)

-- A state in which the predicate holds comes right after one in which it does not and is let through by the rate
-- cap, or right after another in which it does and is held back.
def Alternating (s : Sighting ν φ) (change : StateChange ν) : Prop :=
  predicate.holds values change.newState →
    ((accountForEvaluation maxPerSecond s.watch.eval change.tick.now).1 = true ↔ ¬ s.previous.any (predicate.holds values))

structure EdgeWatch (w : Watch ν φ) : Prop where
  active : w.entry.active = true
  edge : w.entry.spec.trigger = .edge
  condition : ∃ minimumDurationMs : Option Nat,w.entry.spec.condition = .subjectState canonicalId predicate minimumDurationMs ∧
    minimumDurationMs.getD 0 = 0

variable {values maxPerSecond canonicalId predicate} {w : Watch ν φ} {change : StateChange ν}

theorem stateless_holds (stateless : predicate.stateless = true) (state : ν) (high : Table String Bool) :
    applyStatePredicate values predicate state canonicalId high = (predicate.holds values state,high) := by
  cases predicate with
  | hysteresis field upper lower => cases stateless
  | _ => rfl

theorem edge_evaluates (kind : EdgeWatch canonicalId predicate w) (stateless : predicate.stateless = true) :
    w.fires values maxPerSecond (change.seen canonicalId) =
        ((accountForEvaluation maxPerSecond w.eval change.tick.now).1 && predicate.holds values change.newState) ∧
      (w.observe values maxPerSecond (change.seen canonicalId)).entry.active = true ∧
      (w.observe values maxPerSecond (change.seen canonicalId)).entry.spec = w.entry.spec := by
  obtain ⟨minimumDurationMs,condition,brief⟩ := kind.condition
  have evaluated : evaluateConditionAgainstEvent values w.entry.spec.condition (change.seen canonicalId).1 w.eval.hysteresisHigh =
      (predicate.holds values change.newState,w.eval.hysteresisHigh) := by
    rw [condition,evaluateConditionAgainstEvent,StateChange.seen,evaluateSubjectStateArm]
    simp only [ne_eq,not_true_eq_false,if_false]
    exact stateless_holds stateless _ _
  have duration : maxMinimumDurationMs w.entry.spec.condition = 0 := by rw [condition,maxMinimumDurationMs,brief]
  obtain ⟨⟨admitted,drops,eval⟩,accounted⟩ : ∃ result,accountForEvaluation maxPerSecond w.eval change.tick.now = result := ⟨_,rfl⟩
  rw [accounted]
  cases admitted with
  | false =>
    obtain ⟨after,quiet⟩ := @observe_refused _ _ _ _ _ (change.seen canonicalId) _ _ rfl kind.active accounted
    rw [after,quiet]
    exact ⟨rfl,kind.active,rfl⟩
  | true =>
    obtain ⟨after,fired⟩ := @observe_admitted _ _ _ _ _ (change.seen canonicalId) _ _ _ _ rfl kind.active accounted evaluated
    rw [after,fired,Bool.true_and]
    cases holds : predicate.holds values change.newState with
    | false =>
      simp only [Bool.false_eq_true,if_false,Watch.unmatched,duration,lt_self_iff_false,decide_false,Bool.false_and]
      exact ⟨trivial,kind.active,trivial⟩
    | true =>
      have live : w.entry.state ≠ .cancelled := by
        intro gone
        have active := kind.active
        rw [WatchEntry.active,gone] at active
        cases active
      simp only [if_true,Watch.matched,duration,lt_self_iff_false,if_false,Watch.dispatch,Watch.inCooldown,kind.edge,
        Bool.false_eq_true,decide_false,Bool.false_and,Watch.fire,WatchEntry.markFired,if_neg live]
      refine ⟨?_,rfl,trivial⟩
      simp [WatchReport.isFired]

theorem edge_observed (kind : EdgeWatch canonicalId predicate w) (stateless : predicate.stateless = true) :
    EdgeWatch canonicalId predicate (w.observe values maxPerSecond (change.seen canonicalId)) := by
  obtain ⟨_,active,spec⟩ := @edge_evaluates _ _ values maxPerSecond _ _ _ change kind stateless
  exact ⟨active,spec ▸ kind.edge,spec ▸ kind.condition⟩

-- The watch fires on transitions only exactly where no two states in which the predicate holds follow each other.
theorem edge_exact (kind : EdgeWatch canonicalId predicate w) (stateless : predicate.stateless = true) (changes : List (StateChange ν)) :
    Guarded (Sighting.step values maxPerSecond canonicalId) (OnTransition values maxPerSecond canonicalId predicate) ⟨w,none⟩ changes ↔
      Guarded (Sighting.step values maxPerSecond canonicalId) (Alternating values maxPerSecond predicate) ⟨w,none⟩ changes := by
  apply guarded_iff fun s => EdgeWatch canonicalId predicate s.watch
  · intro s change kind
    unfold OnTransition Alternating
    rw [(edge_evaluates kind stateless).1]
    cases predicate.holds values change.newState <;> cases (accountForEvaluation maxPerSecond s.watch.eval change.tick.now).1 <;>
      cases s.previous.any (predicate.holds values) <;> simp
  · exact fun s change kind _ => edge_observed kind stateless
  · exact kind

inductive Reading where
  | number (n : Int)
  | object (field : String) (n : Int)
deriving DecidableEq,Repr

def Reading.field : Reading → String → Option Reading
  | .number _,_ => none
  | .object field n,asked => if field = asked then some (.number n) else none

def Reading.asF64 : Reading → Option Int
  | .number n => some n
  | .object _ _ => none

def readings : Values Reading Int where
  get := Reading.field
  eq a b := a = b
  asF64 := Reading.asF64
  asStr _ := none
  lt a b := a < b
  isMatch _ _ := none

def above80 : StatePredicate Reading Int := .greaterThan "temp" 80

def overheating (trigger : WatchTrigger) : Watch Reading Int :=
  ⟨⟨"org.example.fan",⟨"overheating",.subjectState "cpu" above80 none,trigger⟩,⟨"hardware.fan","spin_up","\x7b\x7d"⟩,.pending,none,0,none,none⟩,
    .default⟩

def temp (n : Int) (now : Nat) : StateChange Reading := ⟨"org.example.sensor",.object "temp" n,⟨now,now/1000000,true,"ok"⟩⟩

theorem overheating_edge : EdgeWatch "cpu" above80 (overheating .edge) := ⟨rfl,rfl,none,rfl,rfl⟩

-- From cold to hot and back.
theorem transition_fires :
    Guarded (Sighting.step readings 1000 "cpu") (OnTransition readings 1000 "cpu" above80) ⟨overheating .edge,none⟩
      [temp 70 0,temp 85 1000000,temp 75 2000000] := by
  refine (edge_exact overheating_edge rfl _).mpr ⟨?_,?_,?_,trivial⟩
  · intro holds
    exact absurd holds (by decide)
  · intro _
    decide
  · intro holds
    exact absurd holds (by decide)

-- Two hot states after each other fire twice.
theorem hot_again_fires :
    (overheating .edge).fires readings 1000 ((temp 85 0).seen "cpu") = true ∧
    ((overheating .edge).observe readings 1000 ((temp 85 0).seen "cpu")).fires readings 1000 ((temp 90 1000000).seen "cpu") = true ∧
    ¬ Guarded (Sighting.step readings 1000 "cpu") (OnTransition readings 1000 "cpu" above80) ⟨overheating .edge,none⟩
      [temp 85 0,temp 90 1000000] := by
  have again : ((overheating .edge).observe readings 1000 ((temp 85 0).seen "cpu")).fires readings 1000 ((temp 90 1000000).seen "cpu") = true := by
    decide
  refine ⟨by decide,again,?_⟩
  rintro ⟨_,onTransition,_⟩
  exact absurd (onTransition.mp again).2 (by decide)

end EvoCore.Watches
