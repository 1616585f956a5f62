import Mathlib

namespace EvoCore.HashLinks

-- Lists whose items name their predecessor by its hash. The item type, the hash
-- type and both projections are arbitrary.
variable {α η : Type} {hash prev : α → η} {origin : η} {xs ys : List α} {x : α} {j k : Nat}

-- What the next item has to name: the hash of the last one, or the origin.
def tip (hash : α → η) (origin : η) : List α → η
  | [] => origin
  | x::rest => tip hash (hash x) rest

def Linked (hash prev : α → η) : η → List α → Prop
  | _,[] => True
  | origin,x::rest => prev x = origin ∧ Linked hash prev (hash x) rest

@[simp] theorem tip_nil : tip hash origin [] = origin := rfl
theorem tip_append : tip hash origin (xs++ys) = tip hash (tip hash origin xs) ys := by
  induction xs generalizing origin with
  | nil => rfl
  | cons x rest ih => exact ih
@[simp] theorem tip_snoc : tip hash origin (xs++[x]) = hash x := by
  simp [tip_append,tip]

theorem tip_last (last : xs.getLast? = some x) : tip hash origin xs = hash x := by
  obtain ⟨before,rfl⟩ := List.getLast?_eq_some_iff.mp last
  exact tip_snoc

theorem linked_append : Linked hash prev origin (xs++ys) ↔
    Linked hash prev origin xs ∧ Linked hash prev (tip hash origin xs) ys := by
  induction xs generalizing origin with
  | nil => simp [Linked]
  | cons x rest ih => simp [Linked,tip,ih,and_assoc]

theorem linked_snoc : Linked hash prev origin (xs++[x]) ↔
    Linked hash prev origin xs ∧ prev x = tip hash origin xs := by
  simp [linked_append,Linked]

theorem linked_take (linked : Linked hash prev origin xs) (k : Nat) : Linked hash prev origin (xs.take k) := by
  rw [← List.take_append_drop k xs] at linked
  exact (linked_append.mp linked).1

theorem linked_prev (linked : Linked hash prev origin xs) (bound : k < xs.length) :
    prev xs[k] = tip hash origin (xs.take k) := by
  rw [← List.take_append_drop k xs] at linked
  have tail := (linked_append.mp linked).2
  rw [List.drop_eq_getElem_cons bound] at tail
  exact tail.1

theorem tip_take_succ (bound : k < xs.length) : tip hash origin (xs.take (k+1)) = hash xs[k] := by
  rw [List.take_succ_eq_append_getElem bound,tip_snoc]

-- Collision freedom: the hash is injective and never meets the origin.
structure Free (hash : α → η) (origin : η) : Prop where
  injective : Function.Injective hash
  fresh : ∀ x,hash x ≠ origin

theorem tip_commits (free : Free hash origin) (linkedX : Linked hash prev origin xs)
    (linkedY : Linked hash prev origin ys) (same : tip hash origin xs = tip hash origin ys) : xs = ys := by
  induction xs using List.reverseRecOn generalizing ys with
  | nil =>
    rcases List.eq_nil_or_concat ys with rfl | ⟨before,y,rfl⟩
    · rfl
    · simp only [List.concat_eq_append,tip_nil,tip_snoc] at same
      exact absurd same.symm (free.fresh y)
  | append_singleton before x ih =>
    rcases List.eq_nil_or_concat ys with rfl | ⟨others,y,rfl⟩
    · simp only [tip_nil,tip_snoc] at same
      exact absurd same (free.fresh x)
    · simp only [List.concat_eq_append,tip_snoc] at same linkedY ⊢
      obtain rfl := free.injective same
      rw [linked_snoc] at linkedX linkedY
      rw [ih linkedX.1 linkedY.1 (linkedX.2.symm.trans linkedY.2)]

theorem tip_position (free : Free hash origin) (linked : Linked hash prev origin xs)
    (boundJ : j ≤ xs.length) (boundK : k ≤ xs.length)
    (same : tip hash origin (xs.take j) = tip hash origin (xs.take k)) : j = k := by
  have equal := tip_commits free (linked_take linked j) (linked_take linked k) same
  have lengths := congrArg List.length equal
  simp only [List.length_take] at lengths
  omega

end EvoCore.HashLinks
