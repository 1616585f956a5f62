import Mathlib

namespace EvoCore.LexicalOrders

-- Comparison by one key after the other. A key orders what it can compare, and ties the rest.
variable {α : Type}

def lex : List (α → α → Ordering) → α → α → Ordering
  | [],_,_ => .eq
  | key::rest,a,b => (key a b).then (lex rest a b)

-- A strict partial order among the items, given as a comparison.
structure Strict (key : α → α → Ordering) (items : List α) : Prop where
  swap : ∀ a ∈ items,∀ b ∈ items,key b a = (key a b).swap
  trans : ∀ a ∈ items,∀ b ∈ items,∀ c ∈ items,key a b = .lt → key b c = .lt → key a c = .lt

structure Preordered (compare : α → α → Ordering) (items : List α) : Prop where
  swap : ∀ a ∈ items,∀ b ∈ items,compare b a = (compare a b).swap
  trans : ∀ a ∈ items,∀ b ∈ items,∀ c ∈ items,compare a b ≠ .gt → compare b c ≠ .gt → compare a c ≠ .gt
  tied : ∀ a ∈ items,∀ b ∈ items,∀ c ∈ items,compare a b = .eq → compare b c = .eq → compare a c = .eq

-- The first key that orders two of the three puts low before high and cannot compare other with either;
-- the later keys put it neither before high nor after low.
def Crossed : List (α → α → Ordering) → α → α → α → Prop
  | [],_,_,_ => False
  | key::rest,low,high,other =>
    key high other = .eq ∧ key low other = .eq ∧
      (key low high = .eq ∧ Crossed rest low high other ∨
        key low high = .lt ∧ lex rest high other ≠ .gt ∧ lex rest other low ≠ .gt)

instance crossedDecidable : (keys : List (α → α → Ordering)) → (low high other : α) → Decidable (Crossed keys low high other)
  | [],_,_,_ => inferInstanceAs (Decidable False)
  | key::rest,low,high,other =>
    have := crossedDecidable rest low high other
    inferInstanceAs (Decidable (key high other = .eq ∧ key low other = .eq ∧
      (key low high = .eq ∧ Crossed rest low high other ∨
        key low high = .lt ∧ lex rest high other ≠ .gt ∧ lex rest other low ≠ .gt)))

variable {keys rest : List (α → α → Ordering)} {key compare : α → α → Ordering} {items others : List α} {a b c low high other : α}

theorem lex_swap (strict : ∀ key ∈ keys,Strict key items) (inA : a ∈ items) (inB : b ∈ items) : lex keys b a = (lex keys a b).swap := by
  induction keys with
  | nil => rfl
  | cons key rest ih =>
    rw [lex,lex,(strict key List.mem_cons_self).swap a inA b inB,ih fun k member => strict k (List.mem_cons_of_mem _ member),
      Ordering.swap_then]

theorem lex_lt (before : key a b = .lt) : lex (key::rest) a b = .lt := by simp [lex,before]

theorem lex_eq (tied : key a b = .eq) : lex (key::rest) a b = lex rest a b := by simp [lex,tied]

theorem swap_gt (swap : compare b a = (compare a b).swap) : compare a b = .gt ↔ compare b a = .lt := by
  rw [swap]
  cases compare a b <;> decide

-- Low before high before other before low.
theorem crossed_cycle (strict : ∀ key ∈ keys,Strict key items) (inLow : low ∈ items) (inOther : other ∈ items)
    (crossed : Crossed keys low high other) :
    lex keys low high = .lt ∧ lex keys high other ≠ .gt ∧ lex keys other low ≠ .gt := by
  induction keys with
  | nil => cases crossed
  | cons key rest ih =>
    have first := strict key List.mem_cons_self
    have later : ∀ k ∈ rest,Strict k items := fun k member => strict k (List.mem_cons_of_mem _ member)
    obtain ⟨highOther,lowOther,shape⟩ := crossed
    have otherLow : key other low = .eq := by rw [first.swap low inLow other inOther,lowOther]; rfl
    rw [lex_eq highOther,lex_eq otherLow]
    rcases shape with ⟨tied,crossed⟩ | ⟨before,highLater,lowLater⟩
    · rw [lex_eq tied]
      exact ih later crossed
    · exact ⟨lex_lt before,highLater,lowLater⟩

theorem eq_swap (swap : compare b a = (compare a b).swap) (tied : compare a b = .eq) : compare b a = .eq := by
  rw [swap,tied]
  rfl

theorem lex_head (within : lex (key::rest) a b ≠ .gt) : key a b = .lt ∨ key a b = .eq ∧ lex rest a b ≠ .gt := by
  rw [lex] at within
  cases first : key a b with
  | lt => exact .inl rfl
  | eq => exact .inr ⟨rfl,by simpa [first] using within⟩
  | gt => simp [first] at within

theorem cycle_crossed (strict : ∀ key ∈ keys,Strict key items) (inA : a ∈ items) (inB : b ∈ items) (inC : c ∈ items)
    (one : lex keys a b ≠ .gt) (two : lex keys b c ≠ .gt) (back : lex keys c a = .lt) :
    Crossed keys a b c ∨ Crossed keys b c a ∨ Crossed keys c a b := by
  induction keys with
  | nil => cases back
  | cons key rest ih =>
    have first := strict key List.mem_cons_self
    have later : ∀ k ∈ rest,Strict k items := fun k member => strict k (List.mem_cons_of_mem _ member)
    have ab := first.swap a inA b inB
    have bc := first.swap b inB c inC
    have ca := first.swap c inC a inA
    have three : lex (key::rest) c a ≠ .gt := by simp [back]
    rcases lex_head one with aFirst | ⟨abTied,abLater⟩
    · rcases lex_head two with bFirst | ⟨bcTied,bcLater⟩
      · have ahead := first.trans a inA b inB c inC aFirst bFirst
        rw [lex,first.swap a inA c inC,ahead] at back
        cases back
      · rcases lex_head three with cFirst | ⟨caTied,caLater⟩
        · have ahead := first.trans c inC a inA b inB cFirst aFirst
          rw [bc,bcTied] at ahead
          cases ahead
        · exact .inl ⟨bcTied,eq_swap ca caTied,.inr ⟨aFirst,bcLater,caLater⟩⟩
    · rcases lex_head two with bFirst | ⟨bcTied,bcLater⟩
      · rcases lex_head three with cFirst | ⟨caTied,caLater⟩
        · have ahead := first.trans b inB c inC a inA bFirst cFirst
          rw [ab,abTied] at ahead
          cases ahead
        · exact .inr (.inl ⟨caTied,eq_swap ab abTied,.inr ⟨bFirst,caLater,abLater⟩⟩)
      · rcases lex_head three with cFirst | ⟨caTied,_⟩
        · exact .inr (.inr ⟨abTied,eq_swap bc bcTied,.inr ⟨cFirst,abLater,bcLater⟩⟩)
        · rw [lex_eq caTied] at back
          rcases ih later abLater bcLater back with crossed | crossed | crossed
          · exact .inl ⟨bcTied,eq_swap ca caTied,.inl ⟨abTied,crossed⟩⟩
          · exact .inr (.inl ⟨caTied,eq_swap ab abTied,.inl ⟨bcTied,crossed⟩⟩)
          · exact .inr (.inr ⟨abTied,eq_swap bc bcTied,.inl ⟨caTied,crossed⟩⟩)

theorem preordered_iff (strict : ∀ key ∈ keys,Strict key items) : Preordered (lex keys) items ↔
    ∀ low ∈ items,∀ high ∈ items,∀ other ∈ items,¬Crossed keys low high other := by
  have swap : ∀ a ∈ items,∀ b ∈ items,lex keys b a = (lex keys a b).swap := fun a inA b inB => lex_swap strict inA inB
  constructor
  · intro ordered low inLow high inHigh other inOther crossed
    obtain ⟨before,up,down⟩ := crossed_cycle strict inLow inOther crossed
    have round := ordered.trans high inHigh other inOther low inLow up down
    exact round ((swap_gt (swap high inHigh low inLow)).mpr before)
  · intro uncrossed
    have trans : ∀ a ∈ items,∀ b ∈ items,∀ c ∈ items,lex keys a b ≠ .gt → lex keys b c ≠ .gt → lex keys a c ≠ .gt := by
      intro a inA b inB c inC one two back
      have ahead := (swap_gt (swap a inA c inC)).mp back
      rcases cycle_crossed strict inA inB inC one two ahead with crossed | crossed | crossed
      · exact uncrossed a inA b inB c inC crossed
      · exact uncrossed b inB c inC a inA crossed
      · exact uncrossed c inC a inA b inB crossed
    refine ⟨swap,trans,?_⟩
    intro a inA b inB c inC one two
    have up := trans a inA b inB c inC (by simp [one]) (by simp [two])
    have down := trans c inC b inB a inA (by simp [eq_swap (swap b inB c inC) two]) (by simp [eq_swap (swap a inA b inB) one])
    cases shown : lex keys a c with
    | lt => exact absurd ((swap_gt (swap c inC a inA)).mpr shown) down
    | eq => rfl
    | gt => exact absurd shown up

-- How many items are strictly before one.
def rank (compare : α → α → Ordering) (items : List α) (a : α) : Nat := items.countP fun b => compare b a == .lt

theorem countP_lt {p q : α → Bool} (more : ∀ x ∈ items,p x = true → q x = true) (inA : a ∈ items) (without : p a = false)
    (within : q a = true) : items.countP p < items.countP q := by
  obtain ⟨front,back,rfl⟩ := List.append_of_mem inA
  have inFront : front.countP p ≤ front.countP q := List.countP_mono_left fun x member => more x (List.mem_append_left _ member)
  have inBack : back.countP p ≤ back.countP q :=
    List.countP_mono_left fun x member => more x (List.mem_append_right _ (List.mem_cons_of_mem _ member))
  simp only [List.countP_append,List.countP_cons,without,within]
  simp
  omega

theorem before_both (ordered : Preordered compare items) (inA : a ∈ items) (inB : b ∈ items) (within : compare a b ≠ .gt) :
    ∀ c ∈ items,(compare c a == .lt) = true → (compare c b == .lt) = true := by
  intro c inC before
  have cA : compare c a = .lt := beq_iff_eq.mp before
  have up := ordered.trans c inC a inA b inB (by simp [cA]) within
  cases shown : compare c b with
  | lt => rfl
  | gt => exact absurd shown up
  | eq =>
    have bC := eq_swap (ordered.swap c inC b inB) shown
    have round := ordered.trans a inA b inB c inC within (by simp [bC])
    exact absurd ((swap_gt (ordered.swap a inA c inC)).mpr cA) round

theorem rank_le (ordered : Preordered compare items) (inA : a ∈ items) (inB : b ∈ items) (within : compare a b ≠ .gt) :
    rank compare items a ≤ rank compare items b :=
  List.countP_mono_left (before_both ordered inA inB within)

theorem compare_self (ordered : Preordered compare items) (inA : a ∈ items) : compare a a = .eq := by
  have same := ordered.swap a inA a inA
  cases shown : compare a a <;> simp_all

theorem rank_lt (ordered : Preordered compare items) (inA : a ∈ items) (inB : b ∈ items) (before : compare a b = .lt) :
    rank compare items a < rank compare items b :=
  countP_lt (before_both ordered inA inB (by simp [before])) inA (by simp [compare_self ordered inA]) (by simp [before])

theorem rank_tied (ordered : Preordered compare items) (inA : a ∈ items) (inB : b ∈ items)
    (same : rank compare items a = rank compare items b) : compare a b = .eq := by
  cases shown : compare a b with
  | eq => rfl
  | lt => exact absurd same (rank_lt ordered inA inB shown).ne
  | gt => exact absurd same (rank_lt ordered inB inA ((swap_gt (ordered.swap a inA b inB)).mp shown)).ne'

def sorted (compare : α → α → Ordering) (items : List α) : List α := items.insertionSort fun a b => compare a b ≠ .gt

theorem mem_sorted : a ∈ sorted compare items ↔ a ∈ items := List.mem_insertionSort _

theorem sorted_rank (ordered : Preordered compare items) (within : ∀ a ∈ others,a ∈ items) :
    (sorted compare others).map (rank compare items) = (others.map (rank compare items)).insertionSort (· ≤ ·) := by
  refine List.map_insertionSort (fun a b => compare a b ≠ .gt) (· ≤ ·) (rank compare items) others fun a inA b inB => ?_
  constructor
  · exact rank_le ordered (within a inA) (within b inB)
  · intro le shown
    have before := (swap_gt (ordered.swap a (within a inA) b (within b inB))).mp shown
    exact absurd (rank_lt ordered (within b inB) (within a inA) before) (Nat.not_lt.mpr le)

theorem sorted_ties (ordered : Preordered compare items) (perm : others.Perm items) :
    List.Forall₂ (fun a b => compare a b = .eq) (sorted compare others) (sorted compare items) := by
  have ranks : (sorted compare others).map (rank compare items) = (sorted compare items).map (rank compare items) := by
    rw [sorted_rank ordered fun a => perm.mem_iff.mp,sorted_rank ordered fun a => id]
    refine List.Perm.eq_of_pairwise' (List.pairwise_insertionSort _ _) (List.pairwise_insertionSort _ _) ?_
    exact ((List.perm_insertionSort _ _).trans (perm.map _)).trans (List.perm_insertionSort _ _).symm
  have pairs : List.Forall₂ (fun a b => rank compare items a = rank compare items b) (sorted compare others) (sorted compare items) := by
    rw [← List.forall₂_eq_eq_eq] at ranks
    simpa [List.forall₂_map_left_iff,List.forall₂_map_right_iff] using ranks
  rw [List.forall₂_iff_zip] at pairs ⊢
  refine ⟨pairs.1,?_⟩
  intro a b member
  obtain ⟨inOthers,inItems⟩ := List.of_mem_zip member
  exact rank_tied ordered (perm.mem_iff.mp (mem_sorted.mp inOthers)) (mem_sorted.mp inItems) (pairs.2 member)

end EvoCore.LexicalOrders
