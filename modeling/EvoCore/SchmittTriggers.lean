import Mathlib

namespace EvoCore.SchmittTriggers

structure Trigger (α : Type) where
  above : α → Bool
  below : α → Bool

namespace Trigger
variable {α : Type} (t : Trigger α)

-- A value was above the upper threshold since the start or since one was last below the lower. The newest comes first.
def high (past : List α) : Bool := (past.takeWhile fun v => !t.below v).any t.above

def rises (past : List α) (v : α) : Bool := t.above v && !t.high past

theorem high_cons (v : α) (past : List α) : t.high (v::past) = (!t.below v && (t.above v || t.high past)) := by
  unfold high
  cases low : t.below v with
  | true => simp [low]
  | false => simp [low]

end Trigger

section
variable {κ : Type} [DecidableEq κ] {latch latch_ : κ → Bool} {before after : List (κ × Bool)} {key : κ} {was now : Bool}

-- One latch a key in place of one a trigger: it is high while one of the key's triggers is, and no two ever are.
def Shared (latch : κ → Bool) (marks : List (κ × Bool)) : Prop := ∀ key,marks.count (key,true) = (latch key).toNat

theorem shared_alone (shared : Shared latch (before++(key,was)::after)) (alone : (key,true) ∉ before++after) : latch key = was := by
  have counted := shared key
  have none_ : before.count (key,true)+after.count (key,true) = 0 := by
    rw [←List.count_append]
    exact List.count_eq_zero.mpr alone
  rw [List.count_append,List.count_cons] at counted
  cases was with
  | true =>
    rw [if_pos (by simp)] at counted
    cases raised : latch key with
    | true => rfl
    | false => rw [raised,Bool.toNat_false] at counted; omega
  | false =>
    rw [if_neg (by simp)] at counted
    cases raised : latch key with
    | true => rw [raised,Bool.toNat_true] at counted; omega
    | false => rfl

theorem shared_high (shared : Shared latch (before++(key,true)::after)) : latch key = true ∧ (key,true) ∉ before++after := by
  have counted := shared key
  have small := Bool.toNat_le (latch key)
  rw [List.count_append,List.count_cons_self] at counted
  refine ⟨?_,fun other => ?_⟩
  · cases raised : latch key with
    | true => rfl
    | false => rw [raised,Bool.toNat_false] at counted; omega
  · have more := List.count_pos_iff.mpr other
    rw [List.count_append] at more
    omega

theorem shared_moved (shared : Shared latch (before++(key,was)::after)) (alone : (key,true) ∉ before++after) (own : latch_ key = now)
    (others : ∀ other,other ≠ key → latch_ other = latch other) : Shared latch_ (before++(key,now)::after) := by
  intro asked
  by_cases same : asked = key
  · cases same
    have none_ : before.count (key,true)+after.count (key,true) = 0 := by
      rw [←List.count_append]
      exact List.count_eq_zero.mpr alone
    rw [List.count_append,List.count_cons,own]
    cases now with
    | true => rw [if_pos (by simp),Bool.toNat_true]; omega
    | false => rw [if_neg (by simp),Bool.toNat_false]; omega
  · have counted := shared asked
    have apart (b : Bool) : ¬ (((key,b) == (asked,true)) = true) := by
      intro equal
      exact same (congrArg Prod.fst (eq_of_beq equal)).symm
    rw [List.count_append,List.count_cons,if_neg (apart _)] at counted ⊢
    rw [others asked same]
    exact counted

end

end EvoCore.SchmittTriggers
