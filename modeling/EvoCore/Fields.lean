import Mathlib

namespace EvoCore.Fields

-- Reading back what was written next to a separator, and numerals of a fixed
-- width. The symbols are arbitrary.
variable {α : Type} {sep : α} {a b x y : List α}

-- Two fields that do not hold the separator end at the first one.
theorem field_inj (freeA : sep ∉ a) (freeB : sep ∉ b) (same : a++sep::x = b++sep::y) : a = b ∧ x = y := by
  induction a generalizing b with
  | nil =>
    cases b with
    | nil => exact ⟨rfl,(List.cons.inj same).2⟩
    | cons d rest => exact absurd (List.mem_cons.mpr (.inl (List.cons.inj same).1)) freeB
  | cons c first ih =>
    cases b with
    | nil => exact absurd (List.mem_cons.mpr (.inl (List.cons.inj same).1.symm)) freeA
    | cons d rest =>
      obtain ⟨head,tail⟩ := List.cons.inj same
      obtain ⟨equal,after⟩ := ih (fun held => freeA (List.mem_cons_of_mem c held))
        (fun held => freeB (List.mem_cons_of_mem d held)) tail
      exact ⟨by rw [head,equal],after⟩

theorem last_field_inj (freeX : sep ∉ x) (freeY : sep ∉ y) (same : a++sep::x = b++sep::y) : a = b ∧ x = y := by
  have mirrored := congrArg List.reverse same
  simp only [List.reverse_append,List.reverse_cons,List.append_assoc,List.singleton_append] at mirrored
  obtain ⟨last,rest⟩ := field_inj (by simpa using freeX) (by simpa using freeY) mirrored
  exact ⟨List.reverse_inj.mp rest,List.reverse_inj.mp last⟩

-- As many separators behind the second field as behind the first make the second one as free of them.
theorem field_counted [BEq α] [LawfulBEq α] (freeA : sep ∉ a) (fewer : x.count sep ≤ y.count sep)
    (same : a++sep::x = b++sep::y) : a = b ∧ x = y := by
  have counts := congrArg (List.count sep) same
  simp only [List.count_append,List.count_cons_self,List.count_eq_zero.mpr freeA] at counts
  exact field_inj freeA (List.count_eq_zero.mp (by omega)) same

theorem counted_length [BEq α] [LawfulBEq α] (fewer : x.count sep ≤ y.count sep) (same : a++sep::x = b++sep::y) :
    b.length ≤ a.length := by
  by_contra longer
  rcases List.append_eq_append_iff.mp same with ⟨c,left,right⟩ | ⟨c,left,right⟩
  · cases c with
    | nil => simp [left] at longer
    | cons d rest =>
      obtain ⟨_,tail⟩ := List.cons.inj (right.trans List.cons_append)
      rw [tail,List.count_append,List.count_cons_self] at fewer
      omega
  · simp [left] at longer

theorem framed_counted [BEq α] [LawfulBEq α] {f g : List α} (sized : f.length = g.length) (front : a.count sep ≤ b.count sep)
    (fewer : x.count sep ≤ y.count sep) (same : a++sep::(f++sep::x) = b++sep::(g++sep::y)) : a = b ∧ f = g ∧ x = y := by
  have joined : (a++sep::f)++sep::x = (b++sep::g)++sep::y := by simpa using same
  have behind := counted_length fewer joined
  simp only [List.length_append,List.length_cons,sized] at behind
  have length : a.length = b.length := by
    rcases List.append_eq_append_iff.mp same with ⟨c,left,_⟩ | ⟨c,left,right⟩
    · have lengths := congrArg List.length left
      simp only [List.length_append] at lengths
      omega
    · cases c with
      | nil => simp [left]
      | cons d rest =>
        cases (List.cons.inj right).1
        simp only [left,List.count_append,List.count_cons_self] at front
        omega
  obtain ⟨fronts,rest⟩ := List.append_inj same length
  obtain ⟨middles,ends⟩ := List.append_inj (List.cons.inj rest).2 sized
  exact ⟨fronts,middles,(List.cons.inj ends).2⟩
theorem first_field [DecidableEq α] : (a++sep::x).takeWhile (· ≠ sep) = a.takeWhile (· ≠ sep) := by
  induction a with
  | nil => simp
  | cons c rest ih =>
    by_cases met : c = sep
    · simp [met]
    · simp only [List.cons_append,List.takeWhile_cons,met,ne_eq,not_false_eq_true,decide_true,if_true,ih]

theorem field_free [DecidableEq α] (free : sep ∉ a) : a.takeWhile (· ≠ sep) = a := by
  rw [List.takeWhile_eq_self_iff]
  intro c member
  have different : c ≠ sep := fun met => free (met ▸ member)
  simpa using different

theorem joined_nil {items : List (List α)} (shown : [] ∉ items) (blank : [sep].intercalate items = []) : items = [] := by
  cases items with
  | nil => rfl
  | cons item rest =>
    cases rest with
    | nil => exact absurd (List.mem_singleton.mpr (by simpa using blank.symm)) shown
    | cons next rest => simp [List.intercalate_cons_cons] at blank

theorem joined_free {items : List (List α)} {c : α} (free : ∀ item ∈ items,c ∉ item) (different : c ≠ sep) :
    c ∉ [sep].intercalate items := by
  induction items with
  | nil => simp
  | cons item rest ih =>
    cases rest with
    | nil => simpa using free
    | cons next more =>
      have others := ih fun other member => free other (List.mem_cons_of_mem item member)
      simp only [List.intercalate_cons_cons,List.mem_append,List.mem_singleton,not_or]
      exact ⟨⟨free item List.mem_cons_self,different⟩,others⟩

theorem joined_inj [BEq α] [LawfulBEq α] {items others : List (List α)} (free : ∀ item ∈ items,sep ∉ item)
    (freeOthers : ∀ item ∈ others,sep ∉ item) (shown : [] ∉ items) (shownOthers : [] ∉ others)
    (same : [sep].intercalate items = [sep].intercalate others) : items = others := by
  by_cases none : items = []
  · subst none
    exact (joined_nil shownOthers same.symm).symm
  · by_cases alsoNone : others = []
    · subst alsoNone
      exact joined_nil shown same
    · rw [← List.splitOn_intercalate sep free none,same,List.splitOn_intercalate sep freeOthers alsoNone]

theorem mapped_inj {f : α → β} {others : List α} (injective : ∀ c ∈ a,∀ d ∈ others,f c = f d → c = d)
    (same : a.map f = others.map f) : a = others := by
  induction a generalizing others with
  | nil => exact (List.map_eq_nil_iff.mp same.symm).symm
  | cons c rest ih =>
    cases others with
    | nil => cases same
    | cons d more =>
      obtain ⟨head,tail⟩ := List.cons.inj same
      rw [injective c List.mem_cons_self d List.mem_cons_self head]
      rw [ih (fun c inside d among => injective c (.tail _ inside) d (.tail _ among)) tail]

def digits (base : Nat) : Nat → Nat → List Nat
  | 0,_ => []
  | width+1,n => digits base width (n / base) ++ [n % base]

@[simp] theorem digits_length : (digits base width n).length = width := by
  induction width generalizing n with
  | zero => rfl
  | succ width ih => simp [digits,ih]

theorem digits_lt (positive : 0 < base) (member : d ∈ digits base width n) : d < base := by
  induction width generalizing n with
  | zero => cases member
  | succ width ih =>
    rcases List.mem_append.mp member with before | last
    · exact ih before
    · rw [List.mem_singleton.mp last]
      exact Nat.mod_lt n positive

theorem digits_inj (boundN : n < base^width) (boundM : m < base^width)
    (same : digits base width n = digits base width m) : n = m := by
  induction width generalizing n m with
  | zero =>
    simp only [Nat.pow_zero,Nat.lt_one_iff] at boundN boundM
    rw [boundN,boundM]
  | succ width ih =>
    obtain ⟨before,last⟩ := List.append_inj same (by simp)
    have quotients : n / base = m / base := by
      refine ih ?_ ?_ before
      · exact Nat.div_lt_of_lt_mul (by rwa [← Nat.pow_succ'])
      · exact Nat.div_lt_of_lt_mul (by rwa [← Nat.pow_succ'])
    have remainders : n % base = m % base := List.singleton_inj.mp last
    rw [← Nat.div_add_mod n base,quotients,remainders,Nat.div_add_mod]

end EvoCore.Fields
