import EvoCore.HashLinks

namespace EvoCore.GreedyPaths
open HashLinks

-- Items that name a parent form a forest. Of all its paths from one origin the
-- greedy one takes the first child at every node and stops at a leaf.
variable {α η : Type} {hash prev : α → η} {before : α → α → Prop} {items : Set α} {origin : η} {xs ys : List α} {w : α}

def Greedy (hash prev : α → η) (before : α → α → Prop) (items : Set α) : η → List α → Prop
  | origin,[] => ∀ y ∈ items,prev y ≠ origin
  | origin,x::rest => x ∈ items ∧ prev x = origin ∧ (∀ y ∈ items,prev y = origin → y = x ∨ before x y) ∧
      Greedy hash prev before items (hash x) rest

theorem greedy_unique (asymm : ∀ a b,before a b → ¬ before b a) (left : Greedy hash prev before items origin xs)
    (right : Greedy hash prev before items origin ys) : xs = ys := by
  induction xs generalizing origin ys with
  | nil =>
    cases ys with
    | nil => rfl
    | cons y rest => exact absurd right.2.1 (left y right.1)
  | cons x rest ih =>
    cases ys with
    | nil => exact absurd left.2.1 (right x left.1)
    | cons y others =>
      have same : y = x := by
        cases left.2.2.1 y right.1 right.2.1 with
        | inl same => exact same
        | inr first =>
          cases right.2.2.1 x left.1 left.2.1 with
          | inl same => exact same.symm
          | inr second => exact absurd second (asymm x y first)
      subst same
      rw [ih left.2.2.2 right.2.2.2]

theorem greedy_linked (greedy : Greedy hash prev before items origin xs) : Linked hash prev origin xs := by
  induction xs generalizing origin with
  | nil => trivial
  | cons x rest ih => exact ⟨greedy.2.1,ih greedy.2.2.2⟩

theorem greedy_mem (greedy : Greedy hash prev before items origin xs) (member : x ∈ xs) : x ∈ items := by
  induction xs generalizing origin with
  | nil => cases member
  | cons y rest ih =>
    cases List.mem_cons.mp member with
    | inl same => rw [same]; exact greedy.1
    | inr later => exact ih greedy.2.2.2 later

-- An item whose parent is on the path is on it too, comes later than the one
-- standing there, or would extend the path.
theorem greedy_standing (greedy : Greedy hash prev before items origin xs) (member : w ∈ items)
    (standing : xs[k]? = some x) (named : prev w = tip hash origin (xs.take k)) : w = x ∨ before x w := by
  induction xs generalizing origin k with
  | nil => simp at standing
  | cons y rest ih =>
    cases k with
    | zero =>
      cases Option.some.inj standing
      exact greedy.2.2.1 w member named
    | succ k => exact ih greedy.2.2.2 standing named

theorem greedy_whole (greedy : Greedy hash prev before items origin xs) (member : w ∈ items) :
    prev w ≠ tip hash origin xs := by
  induction xs generalizing origin with
  | nil => exact greedy w member
  | cons y rest ih => exact ih greedy.2.2.2

theorem greedy_turns (greedy : Greedy hash prev before items origin xs) (bound : k ≤ xs.length)
    (named : prev w = tip hash origin (xs.take k)) (once : ∀ j < k,prev w ≠ tip hash origin (xs.take j))
    (first : ∀ y ∈ items,prev y = prev w → y = w ∨ before w y)
    (leaf : ∀ y ∈ insert w items,prev y ≠ hash w) :
    Greedy hash prev before (insert w items) origin (xs.take k++[w]) := by
  induction k generalizing origin xs with
  | zero =>
    have root : prev w = origin := named
    refine ⟨.inl rfl,root,?_,leaf⟩
    intro y member sibling
    cases member with
    | inl same => exact .inl same
    | inr older => exact first y older (sibling.trans root.symm)
  | succ k ih =>
    cases xs with
    | nil => simp at bound
    | cons x rest =>
      have off : prev w ≠ origin := once 0 (Nat.succ_pos _)
      refine ⟨.inr greedy.1,greedy.2.1,?_,ih greedy.2.2.2 (Nat.le_of_succ_le_succ bound) named ?_⟩
      · intro y member sibling
        cases member with
        | inl same => exact absurd (same ▸ sibling) off
        | inr older => exact greedy.2.2.1 y older sibling
      · intro j earlier
        exact once (j+1) (Nat.succ_lt_succ earlier)

theorem greedy_stays (greedy : Greedy hash prev before items origin xs)
    (later : ∀ k x,xs[k]? = some x → prev w = tip hash origin (xs.take k) → before x w)
    (off : prev w ≠ tip hash origin xs) : Greedy hash prev before (insert w items) origin xs := by
  induction xs generalizing origin with
  | nil =>
    intro y member
    cases member with
    | inl same => rw [same]; exact off
    | inr older => exact greedy y older
  | cons x rest ih =>
    refine ⟨.inr greedy.1,greedy.2.1,?_,ih greedy.2.2.2 ?_ off⟩
    · intro y member sibling
      cases member with
      | inl same =>
        subst same
        exact .inr (later 0 x rfl sibling)
      | inr older => exact greedy.2.2.1 y older sibling
    · intro k y standing named
      exact later (k+1) y standing named

end EvoCore.GreedyPaths
