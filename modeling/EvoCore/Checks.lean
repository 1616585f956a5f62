import Mathlib.Data.List.Nodup

namespace EvoCore.Checks

-- Validation that stops at its first refusal.
variable {ε α κ : Type} {first second : Except ε Unit} {condition : Bool} {error : ε}

def refuseIf (condition : Bool) (error : ε) : Except ε Unit := if condition then .error error else .ok ()

@[simp] theorem refuseIf_ok : refuseIf condition error = .ok () ↔ condition = false := by
  cases condition <;> simp [refuseIf]

@[simp] theorem bind_ok {later : Unit → Except ε Unit} : first >>= later = .ok () ↔ first = .ok () ∧ later () = .ok () := by
  cases first with
  | error e => simp [bind,Except.bind]
  | ok done => cases done; simp [bind,Except.bind]

-- A loop over the items, each checked against the keys of those before it.
def each (check : List κ → α → Except ε Unit) (key : α → κ) : List κ → List α → Except ε Unit
  | _,[] => .ok ()
  | seen,x::rest => check seen x >>= fun _ => each check key (key x::seen) rest

variable {check : List κ → α → Except ε Unit} {key : α → κ} {Fine : α → Prop} {seen : List κ} {xs : List α}

theorem each_ok (exact : ∀ seen x,check seen x = .ok () ↔ key x ∉ seen ∧ Fine x) :
    each check key seen xs = .ok () ↔ (xs.map key).Nodup ∧ (∀ x ∈ xs,key x ∉ seen) ∧ ∀ x ∈ xs,Fine x := by
  induction xs generalizing seen with
  | nil => simp [each]
  | cons x rest ih =>
    simp only [each,bind_ok,exact,ih,List.map_cons,List.nodup_cons,List.mem_map]
    constructor
    · intro passed
      obtain ⟨⟨fresh,fine⟩,apart,later,fineRest⟩ := passed
      refine ⟨⟨?_,apart⟩,?_,?_⟩
      · intro repeated
        obtain ⟨y,member,same⟩ := repeated
        exact List.ne_of_not_mem_cons (later y member) same
      · exact List.forall_mem_cons.mpr ⟨fresh,fun y member => List.not_mem_of_not_mem_cons (later y member)⟩
      · exact List.forall_mem_cons.mpr ⟨fine,fineRest⟩
    · intro passed
      obtain ⟨⟨new,apart⟩,unseen,fines⟩ := passed
      obtain ⟨fresh,later⟩ := List.forall_mem_cons.mp unseen
      obtain ⟨fine,fineRest⟩ := List.forall_mem_cons.mp fines
      refine ⟨⟨fresh,fine⟩,apart,?_,fineRest⟩
      intro y member
      exact List.not_mem_cons_of_ne_of_not_mem (fun same => new ⟨y,member,same⟩) (later y member)

theorem forM_ok {single : α → Except ε Unit} : forM xs single = .ok () ↔ ∀ x ∈ xs,single x = .ok () := by
  induction xs with
  | nil => simp [pure,Except.pure]
  | cons x rest ih => simp [ih]

theorem each_fresh (exact : ∀ seen x,check seen x = .ok () ↔ key x ∉ seen ∧ Fine x) :
    each check key [] xs = .ok () ↔ (xs.map key).Nodup ∧ ∀ x ∈ xs,Fine x := by
  simp [each_ok exact]

theorem key_position {i j : Nat} {x y : α} (apart : (xs.map key).Nodup) (atI : xs[i]? = some x) (atJ : xs[j]? = some y)
    (same : key x = key y) : i = j := by
  obtain ⟨left,rfl⟩ := List.getElem?_eq_some_iff.mp atI
  obtain ⟨right,rfl⟩ := List.getElem?_eq_some_iff.mp atJ
  have bound : i < (xs.map key).length := by simpa using left
  refine (List.getElem?_inj bound apart).mp ?_
  simpa [List.getElem?_map,left,right] using same

theorem key_found [DecidableEq κ] {x : α} (apart : (xs.map key).Nodup) (member : x ∈ xs) :
    xs.find? (fun y => key y == key x) = some x := by
  induction xs with
  | nil => cases member
  | cons head rest ih =>
    obtain ⟨new,later⟩ := List.nodup_cons.mp apart
    rcases List.mem_cons.mp member with rfl | inRest
    · simp
    · have other : key head ≠ key x := fun same => new (same ▸ List.mem_map_of_mem inRest)
      simp [other,ih later inRest]

end EvoCore.Checks
