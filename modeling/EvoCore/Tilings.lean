import Mathlib

namespace EvoCore.Tilings

-- Items that each cover a stretch of positions, laid end to end. The items, the
-- positions and the covering relation are arbitrary.
variable {α ι : Type} {covers others : α → ι → ι → Prop} {lo hi : ι} {xs ys : List α} {x : α}

def Tiles (covers : α → ι → ι → Prop) : ι → List α → ι → Prop
  | lo,[],hi => lo = hi
  | lo,x::rest,hi => ∃ mid,covers x lo mid ∧ Tiles covers mid rest hi

@[simp] theorem tiles_nil : Tiles covers lo [] hi ↔ lo = hi := Iff.rfl
@[simp] theorem tiles_single : Tiles covers lo [x] hi ↔ covers x lo hi := by
  simp [Tiles]

theorem tiles_append : Tiles covers lo (xs++ys) hi ↔ ∃ mid,Tiles covers lo xs mid ∧ Tiles covers mid ys hi := by
  induction xs generalizing lo with
  | nil => simp
  | cons x rest ih =>
    simp only [List.cons_append,Tiles,ih]
    constructor
    · intro ⟨near,first,far,before,after⟩
      exact ⟨far,⟨near,first,before⟩,after⟩
    · intro ⟨far,⟨near,first,before⟩,after⟩
      exact ⟨near,first,far,before,after⟩

theorem tiles_mono (weaker : ∀ x lo hi,covers x lo hi → others x lo hi) (tiled : Tiles covers lo xs hi) :
    Tiles others lo xs hi := by
  induction xs generalizing lo with
  | nil => exact tiled
  | cons x rest ih =>
    obtain ⟨mid,first,after⟩ := tiled
    exact ⟨mid,weaker x lo mid first,ih after⟩

theorem tiles_tail (tiled : Tiles covers lo xs hi) : ∃ mid,Tiles covers mid xs.tail hi := by
  cases xs with
  | nil => exact ⟨lo,tiled⟩
  | cons x rest =>
    obtain ⟨mid,_,after⟩ := tiled
    exact ⟨mid,after⟩

theorem tiles_chain {linked follows : α → α → Prop} (tiled : Tiles covers lo xs hi) (chained : xs.IsChain linked)
    (meet : ∀ x y a b c,covers x a b → covers y b c → linked x y → follows x y) : xs.IsChain follows := by
  induction xs generalizing lo with
  | nil => exact .nil
  | cons x rest ih =>
    obtain ⟨mid,first,after⟩ := tiled
    cases rest with
    | nil => exact .singleton x
    | cons y more =>
      have ⟨far,second,_⟩ := after
      obtain ⟨link,links⟩ := List.isChain_cons_cons.mp chained
      exact .cons_cons (meet x y lo mid far first second link) (ih after links)

end EvoCore.Tilings
