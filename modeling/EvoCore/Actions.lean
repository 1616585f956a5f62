import Mathlib

namespace EvoCore.Actions

-- Actions over a state that may fail, and that keep what they had changed when they do.
variable {ε σ ρ α β : Type} {x : EStateM ε σ α} {f : α → EStateM ε σ β} {s t : σ} {a : α}
  {returned other : α → σ → Prop} {failed lost : σ → Prop} {part : σ → ρ} {kind : σ → Prop}

-- How a run from one state may end: with an answer, or with an error.
def Ends (x : EStateM ε σ α) (s : σ) (returned : α → σ → Prop) (failed : σ → Prop) : Prop :=
  match x s with
  | .ok a t => returned a t
  | .error _ t => failed t

@[simp] theorem ends_pure : Ends (pure a : EStateM ε σ α) s returned failed ↔ returned a s := Iff.rfl

@[simp] theorem ends_throw {e : ε} : Ends (throw e : EStateM ε σ α) s returned failed ↔ failed s := Iff.rfl

theorem ends_bind {returned : β → σ → Prop} :
    Ends (x >>= f) s returned failed ↔ Ends x s (fun a t => Ends (f a) t returned failed) failed := by
  simp only [Ends,bind,EStateM.bind]
  cases x s <;> rfl

theorem ends_map {g : α → β} {returned : β → σ → Prop} :
    Ends (g <$> x) s returned failed ↔ Ends x s (fun a => returned (g a)) failed := by
  simp only [Ends,Functor.map,EStateM.map]
  cases x s <;> rfl

theorem ends_always (returns : ∀ a t,returned a t) (fails : ∀ t,failed t) : Ends x s returned failed := by
  unfold Ends
  cases x s with
  | ok a t => exact returns a t
  | error e t => exact fails t

theorem ends_mono (ends : Ends x s returned failed) (more : ∀ a t,returned a t → other a t) (less : ∀ t,failed t → lost t) :
    Ends x s other lost := by
  unfold Ends at ends ⊢
  cases run : x s with
  | ok a t =>
    rw [run] at ends
    exact more a t ends
  | error e t =>
    rw [run] at ends
    exact less t ends

theorem ends_returned (ends : Ends x s returned failed) (run : x s = .ok a t) : returned a t := by
  unfold Ends at ends
  rw [run] at ends
  exact ends

theorem ends_known (run : x s = .ok a t) : Ends x s returned failed ↔ returned a t := by
  simp only [Ends,run]

theorem ends_refused {e : ε} (run : x s = .error e t) : Ends x s returned failed ↔ failed t := by
  simp only [Ends,run]

-- From here on a run is taken apart by the rules above, not by evaluation.
attribute [irreducible] Ends

-- A part of the state that no run of the action touches.
def Spares (part : σ → ρ) (x : EStateM ε σ α) : Prop :=
  ∀ s,Ends x s (fun _ t => part t = part s) (fun t => part t = part s)

theorem spares_pure : Spares part (pure a : EStateM ε σ α) := fun _ => ends_pure.mpr rfl

theorem spares_throw {e : ε} : Spares part (throw e : EStateM ε σ α) := fun _ => ends_throw.mpr rfl

theorem spares_bind (first : Spares part x) (second : ∀ a,Spares part (f a)) : Spares part (x >>= f) := by
  intro s
  rw [ends_bind]
  refine ends_mono (first s) (fun a t kept => ?_) (fun _ kept => kept)
  exact ends_mono (second a t) (fun _ _ still => still.trans kept) (fun _ still => still.trans kept)

theorem spares_returned (spares : Spares part x) (run : x s = .ok a t) : part t = part s := by
  have kept := ends_returned (spares s) run
  exact kept

theorem spares_map {g : α → β} (spares : Spares part x) : Spares part (g <$> x) := by
  intro s
  rw [ends_map]
  exact spares s

theorem spares_forM {each : α → EStateM ε σ PUnit} (one : ∀ a,Spares part (each a)) :
    (items : List α) → Spares part (items.forM each)
  | [] => spares_pure
  | a::rest => spares_bind (one a) fun _ => spares_forM one rest

-- From states of a kind the action returns, and into the kind again.
def Returns (kind : σ → Prop) (x : EStateM ε σ α) : Prop := ∀ s,kind s → Ends x s (fun _ => kind) (fun _ => False)

theorem returns_pure : Returns kind (pure a : EStateM ε σ α) := fun _ held => ends_pure.mpr held

theorem returns_bind (first : Returns kind x) (second : ∀ a,Returns kind (f a)) : Returns kind (x >>= f) := by
  intro s held
  rw [ends_bind]
  exact ends_mono (first s held) (fun a t kept => second a t kept) (fun _ never => never)

theorem returns_forM {each : α → EStateM ε σ PUnit} (one : ∀ a,Returns kind (each a)) :
    (items : List α) → Returns kind (items.forM each)
  | [] => returns_pure
  | a::rest => returns_bind (one a) fun _ => returns_forM one rest

theorem returns_answer (returns : Returns kind x) (held : kind s) : ∃ a t,x s = .ok a t := by
  have ends := returns s held
  unfold Ends at ends
  cases run : x s with
  | ok a t => exact ⟨a,t,rfl⟩
  | error e t =>
    rw [run] at ends
    exact ends.elim

end EvoCore.Actions
