import Mathlib

namespace EvoCore.Runs

-- A deterministic machine driven by a list of inputs. Nothing below knows what
-- the states or the inputs are.
variable {σ α β : Type} {step : σ → α → σ} {inv : σ → Prop} {cond : σ → α → Prop}

def run (step : σ → α → σ) (start : σ) (inputs : List α) : σ := inputs.foldl step start

@[simp] theorem run_nil : run step s [] = s := rfl
@[simp] theorem run_cons : run step s (a::rest) = run step (step s a) rest := rfl
@[simp] theorem run_snoc : run step s (inputs++[a]) = step (run step s inputs) a := by
  simp [run]

theorem run_append : run step s (first++second) = run step (run step s first) second := List.foldl_append

-- The invariant holds in every state of the run, the first and the last included.
def Throughout (step : σ → α → σ) (inv : σ → Prop) : σ → List α → Prop
  | s,[] => inv s
  | s,a::rest => inv s ∧ Throughout step inv (step s a) rest

-- Every input meets the condition in the state in which it is taken.
def Guarded (step : σ → α → σ) (cond : σ → α → Prop) : σ → List α → Prop
  | _,[] => True
  | s,a::rest => cond s a ∧ Guarded step cond (step s a) rest

instance guardedDecidable [∀ s a,Decidable (cond s a)] : (s : σ) → (inputs : List α) → Decidable (Guarded step cond s inputs)
  | _,[] => .isTrue trivial
  | s,a::rest =>
    have := guardedDecidable (step s a) rest
    inferInstanceAs (Decidable (cond s a ∧ Guarded step cond (step s a) rest))

theorem throughout_start (held : Throughout step inv s inputs) : inv s := by
  cases inputs with
  | nil => exact held
  | cons a rest => exact held.1

theorem throughout_final (held : Throughout step inv s inputs) : inv (run step s inputs) := by
  induction inputs generalizing s with
  | nil => exact held
  | cons a rest ih => exact ih held.2

theorem guarded_prefixes (each : ∀ before a after,inputs = before++a::after → cond (run step s before) a) :
    Guarded step cond s inputs := by
  induction inputs generalizing s with
  | nil => trivial
  | cons a rest ih =>
    refine ⟨each [] a rest rfl,ih ?_⟩
    intro before b after shape
    exact each (a::before) b after (by rw [shape]; rfl)

theorem throughout_steps : Throughout step inv s inputs ↔ inv s ∧ Guarded step (fun s a => inv (step s a)) s inputs := by
  induction inputs generalizing s with
  | nil => simp [Throughout,Guarded]
  | cons a rest ih => simp [Throughout,Guarded,ih]

theorem guarded_and {other : σ → α → Prop} :
    Guarded step (fun s a => cond s a ∧ other s a) s inputs ↔ Guarded step cond s inputs ∧ Guarded step other s inputs := by
  induction inputs generalizing s with
  | nil => simp [Guarded]
  | cons a rest ih => simp [Guarded,ih,and_and_and_comm]

-- A step that keeps a strong invariant under the condition, and loses the one of interest
-- without it: no run repairs an invariant it has lost without having lost it first. The side
-- holds of every input of the run.
theorem throughout_within (side : σ → α → Prop) (strong : σ → Prop) (weakens : ∀ s,strong s → inv s)
    (keeps : ∀ s a,strong s → side s a → cond s a → strong (step s a))
    (needs : ∀ s a,strong s → side s a → inv (step s a) → cond s a) (start : strong s)
    (sides : Guarded step side s inputs) : Throughout step inv s inputs ↔ Guarded step cond s inputs := by
  induction inputs generalizing s with
  | nil => simpa [Throughout,Guarded] using weakens s start
  | cons a rest ih =>
    constructor
    · intro held
      have met := needs s a start sides.1 (throughout_start held.2)
      exact ⟨met,(ih (keeps s a start sides.1 met) sides.2).mp held.2⟩
    · intro met
      exact ⟨weakens s start,(ih (keeps s a start sides.1 met.1) sides.2).mpr met.2⟩

theorem throughout_under (side : σ → α → Prop) (exact : ∀ s a,inv s → side s a → (inv (step s a) ↔ cond s a))
    (start : inv s) (sides : Guarded step side s inputs) :
    Throughout step inv s inputs ↔ Guarded step cond s inputs := by
  apply throughout_within side inv (fun _ held => held)
  · exact fun s a held within met => (exact s a held within).mpr met
  · exact fun s a held within after => (exact s a held within).mp after
  · exact start
  · exact sides

theorem guarded_free : Guarded step (fun _ _ => True) s inputs := guarded_prefixes fun _ _ _ _ => trivial

theorem throughout_exact (exact : ∀ s a,inv s → (inv (step s a) ↔ cond s a)) (start : inv s) :
    Throughout step inv s inputs ↔ Guarded step cond s inputs :=
  throughout_under _ (fun s a held _ => exact s a held) start guarded_free

theorem throughout_strong (strong : σ → Prop) (weakens : ∀ s,strong s → inv s)
    (keeps : ∀ s a,strong s → cond s a → strong (step s a)) (needs : ∀ s a,strong s → inv (step s a) → cond s a)
    (start : strong s) : Throughout step inv s inputs ↔ Guarded step cond s inputs :=
  throughout_within _ strong weakens (fun s a held _ met => keeps s a held met) (fun s a held _ after => needs s a held after)
    start guarded_free

theorem guarded_iff {good : σ → α → Prop} (inv : σ → Prop) (exact : ∀ s a,inv s → (good s a ↔ cond s a))
    (keeps : ∀ s a,inv s → good s a → inv (step s a)) (start : inv s) :
    Guarded step good s inputs ↔ Guarded step cond s inputs := by
  induction inputs generalizing s with
  | nil => rfl
  | cons a rest ih =>
    constructor
    · intro met
      exact ⟨(exact s a start).mp met.1,(ih (keeps s a start met.1)).mp met.2⟩
    · intro met
      have first := (exact s a start).mpr met.1
      exact ⟨first,(ih (keeps s a start first)).mpr met.2⟩

theorem guarded_keeps (keeps : ∀ s a,inv s → cond s a → inv (step s a)) (start : inv s)
    (met : Guarded step cond s inputs) : Throughout step inv s inputs := by
  induction inputs generalizing s with
  | nil => exact start
  | cons a rest ih => exact ⟨start,ih (keeps s a start met.1) met.2⟩

-- What a step promises in the states of the invariant, every step of the run promises.
theorem guarded_carries {good : σ → α → Prop} (keeps : ∀ s a,inv s → cond s a → inv (step s a))
    (gives : ∀ s a,inv s → cond s a → good s a) (start : inv s) (met : Guarded step cond s inputs) :
    Guarded step good s inputs := by
  induction inputs generalizing s with
  | nil => trivial
  | cons a rest ih => exact ⟨gives s a start met.1,ih (keeps s a start met.1) met.2⟩

theorem run_keeps (keeps : ∀ s a,inv s → inv (step s a)) (start : inv s) : inv (run step s inputs) := by
  induction inputs generalizing s with
  | nil => exact start
  | cons a rest ih => exact ih (keeps s a start)

theorem guarded_append : Guarded step cond s (first++second) ↔
    Guarded step cond s first ∧ Guarded step cond (run step s first) second := by
  induction first generalizing s with
  | nil => simp [Guarded]
  | cons a rest ih => simp [Guarded,ih,and_assoc]

theorem throughout_prefixes : Throughout step inv s inputs ↔ ∀ k,inv (run step s (inputs.take k)) := by
  induction inputs generalizing s with
  | nil => simp [Throughout]
  | cons a rest ih =>
    constructor
    · intro held k
      cases k with
      | zero => exact held.1
      | succ k => exact ih.mp held.2 k
    · intro each
      exact ⟨each 0,ih.mpr fun k => each (k+1)⟩

theorem guarded_positions : Guarded step cond s inputs ↔
    ∀ k a,inputs[k]? = some a → cond (run step s (inputs.take k)) a := by
  induction inputs generalizing s with
  | nil => simp [Guarded]
  | cons a rest ih =>
    constructor
    · intro met k b there
      cases k with
      | zero =>
        cases Option.some.inj there
        exact met.1
      | succ k => exact ih.mp met.2 k b there
    · intro each
      exact ⟨each 0 a rfl,ih.mpr fun k b there => each (k+1) b there⟩

end EvoCore.Runs
