import EvoCore.LexicalOrders
import EvoCore.MetadataChain

namespace EvoCore.Metadata
open LexicalOrders Std

def directed : SortDirection → Ordering → Ordering
  | .ascending,order => order
  | .descending,order => order.swap

-- One sort key as a comparison of its own: values of different kinds tie, absent values come last.
def keyOrder (key : SortKey) (a b : MergedItem) : Ordering :=
  match fieldOf a key.field,fieldOf b key.field with
  | some av,some bv => ((compareField av bv).map (directed key.direction)).getD .eq
  | some _,none => .lt
  | none,some _ => .gt
  | none,none => .eq

def FieldValue.simple : FieldValue → Bool
  | .bool _ => true
  | .int _ => true
  | .str _ => true
  | _ => false

-- Int, Str and Bool fields in any mix, or none.
def Simple (item : MergedItem) : Prop := ∀ field ∈ item.fields,field.value.simple = true

def FieldValue.sameKind : FieldValue → FieldValue → Bool
  | .bool _,.bool _ => true
  | .int _,.int _ => true
  | .str _,.str _ => true
  | _,_ => false

def Uniform (sort : List SortKey) (items : List MergedItem) : Prop :=
  ∀ key ∈ sort,∀ a ∈ items,∀ b ∈ items,∀ av ∈ fieldOf a key.field,∀ bv ∈ fieldOf b key.field,av.sameKind bv = true

structure SortsSoundly (sort : List SortKey) (items : List MergedItem) : Prop where
  preordered : Preordered (fun a b => compareItems a b sort) items
  same : ∀ others : List MergedItem,others.Perm items →
    List.Forall₂ (fun a b => compareItems a b sort = .eq) (applySort others sort) (applySort items sort)

variable {sort : List SortKey} {items : List MergedItem} {item a b c : MergedItem} {key : SortKey} {u v w : FieldValue} {name : String}

theorem compareItems_lex : compareItems a b sort = lex (sort.map keyOrder) a b := by
  induction sort with
  | nil => rfl
  | cons key rest ih =>
    rw [compareItems,List.map_cons,lex,keyOrder]
    cases atA : fieldOf a key.field with
    | none => cases atB : fieldOf b key.field <;> simp [ih]
    | some av =>
      cases atB : fieldOf b key.field with
      | none => rfl
      | some bv =>
        cases found : compareField av bv with
        | none => simp [found,ih]
        | some order => cases key.direction <;> cases order <;> simp [found,directed,ih]

theorem fieldOf_simple (simple : Simple item) (found : fieldOf item name = some v) : v.simple = true := by
  obtain ⟨field,first,rfl⟩ := Option.map_eq_some_iff.mp found
  exact simple field (List.mem_of_find?_eq_some first)

theorem compareField_swap (uSimple : u.simple = true) (vSimple : v.simple = true) :
    compareField v u = (compareField u v).map Ordering.swap := by
  cases u <;> cases v <;> simp_all [FieldValue.simple,compareField]
  all_goals exact OrientedCmp.eq_swap

theorem compareField_trans (one : compareField u v = some .lt) (two : compareField v w = some .lt)
    (uSimple : u.simple = true) (vSimple : v.simple = true) (wSimple : w.simple = true) : compareField u w = some .lt := by
  cases u <;> cases v <;> cases w <;> simp_all [FieldValue.simple,compareField]
  all_goals exact TransCmp.lt_trans one two

theorem compareField_gt (uSimple : u.simple = true) (vSimple : v.simple = true) :
    compareField u v = some .gt ↔ compareField v u = some .lt := by
  rw [compareField_swap uSimple vSimple]
  cases shown : compareField u v with
  | none => simp
  | some order => cases order <;> simp

theorem directed_swap (direction : SortDirection) (order : Ordering) : directed direction order.swap = (directed direction order).swap := by
  cases direction <;> rfl

theorem valueOrder_lt (direction : SortDirection) : ((compareField u v).map (directed direction)).getD .eq = .lt ↔
    compareField u v = some (directed direction .lt) := by
  cases shown : compareField u v with
  | none => simp
  | some order => cases direction <;> cases order <;> simp [directed]

theorem keyOrder_strict (simple : ∀ item ∈ items,Simple item) : Strict (keyOrder key) items := by
  constructor
  case swap =>
    intro a inA b inB
    simp only [keyOrder]
    cases atA : fieldOf a key.field with
    | none => cases atB : fieldOf b key.field <;> rfl
    | some av =>
      cases atB : fieldOf b key.field with
      | none => rfl
      | some bv =>
        simp only [compareField_swap (fieldOf_simple (simple a inA) atA) (fieldOf_simple (simple b inB) atB)]
        cases compareField av bv with
        | none => rfl
        | some order => exact directed_swap key.direction order
  case trans =>
    intro a inA b inB c inC one two
    simp only [keyOrder] at one two ⊢
    cases atA : fieldOf a key.field with
    | none => rw [atA] at one; cases atB : fieldOf b key.field <;> rw [atB] at one <;> cases one
    | some av =>
      cases atB : fieldOf b key.field with
      | none => rw [atB] at two; cases atC : fieldOf c key.field <;> rw [atC] at two <;> cases two
      | some bv =>
        cases atC : fieldOf c key.field with
        | none => rfl
        | some cv =>
          have aSimple := fieldOf_simple (simple a inA) atA
          have bSimple := fieldOf_simple (simple b inB) atB
          have cSimple := fieldOf_simple (simple c inC) atC
          rw [atA,atB] at one
          rw [atB,atC] at two
          simp only [valueOrder_lt] at one two ⊢
          cases direction : key.direction with
          | ascending =>
            rw [direction] at one two
            exact compareField_trans one two aSimple bSimple cSimple
          | descending =>
            rw [direction] at one two
            have back := compareField_trans ((compareField_gt bSimple cSimple).mp two) ((compareField_gt aSimple bSimple).mp one)
              cSimple bSimple aSimple
            exact (compareField_gt aSimple cSimple).mpr back

theorem compareField_eq (sameKind : u.sameKind v = true) : compareField u v = some .eq ↔ u = v := by
  cases u <;> cases v <;> simp_all [FieldValue.sameKind,compareField,LawfulEqCmp.compare_eq_iff_eq]

theorem sameKind_compare (sameKind : u.sameKind v = true) : (compareField u v).isSome = true := by
  cases u <;> cases v <;> simp_all [FieldValue.sameKind,compareField]

theorem directed_eq {direction : SortDirection} {order : Ordering} : directed direction order = .eq ↔ order = .eq := by
  cases direction <;> cases order <;> decide

theorem keyOrder_tied (uniform : ∀ av ∈ fieldOf a key.field,∀ bv ∈ fieldOf b key.field,av.sameKind bv = true)
    (tied : keyOrder key a b = .eq) : fieldOf a key.field = fieldOf b key.field := by
  simp only [keyOrder] at tied
  cases atA : fieldOf a key.field with
  | none => cases atB : fieldOf b key.field <;> simp_all
  | some av =>
    cases atB : fieldOf b key.field with
    | none => simp_all
    | some bv =>
      have kinds := uniform av atA bv atB
      obtain ⟨order,found⟩ := Option.isSome_iff_exists.mp (sameKind_compare kinds)
      rw [atA,atB] at tied
      simp only [found,Option.map_some,Option.getD_some,directed_eq] at tied
      rw [(compareField_eq kinds).mp (tied ▸ found)]

theorem uniform_uncrossed {low high other : MergedItem} (simple : ∀ item ∈ items,Simple item) (uniform : Uniform sort items)
    (inLow : low ∈ items) (inHigh : high ∈ items) (inOther : other ∈ items) : ¬Crossed (sort.map keyOrder) low high other := by
  induction sort with
  | nil => exact id
  | cons key rest ih =>
    intro crossed
    obtain ⟨highOther,lowOther,shape⟩ := crossed
    rcases shape with ⟨_,later⟩ | ⟨before,_⟩
    · exact ih (fun k member => uniform k (List.mem_cons_of_mem _ member)) later
    · have kinds := uniform key List.mem_cons_self
      have one := keyOrder_tied (kinds high inHigh other inOther) highOther
      have two := keyOrder_tied (kinds low inLow other inOther) lowOther
      have itself := (@keyOrder_strict _ key simple).swap high inHigh high inHigh
      have level : keyOrder key low high = keyOrder key high high := by
        simp only [keyOrder]
        rw [two.trans one.symm]
      rw [← level,before] at itself
      cases itself

theorem applySort_ties (preordered : Preordered (fun a b => compareItems a b sort) items)
    {others : List MergedItem} (perm : others.Perm items) : List.Forall₂ (fun a b => compareItems a b sort = .eq)
    (applySort others sort) (applySort items sort) := by
  cases sort with
  | nil => exact List.forall₂_iff_zip.mpr ⟨perm.length_eq,fun _ => rfl⟩
  | cons key rest => exact sorted_ties preordered perm

theorem sorts_soundly_exactly (sort : List SortKey) (items : List MergedItem) (simple : ∀ item ∈ items,Simple item) :
    (SortsSoundly sort items ↔ ∀ low ∈ items,∀ high ∈ items,∀ other ∈ items,¬Crossed (sort.map keyOrder) low high other) ∧
      (Uniform sort items → SortsSoundly sort items) := by
  have strict : ∀ key ∈ sort.map keyOrder,Strict key items := by
    intro key member
    obtain ⟨sk,_,rfl⟩ := List.mem_map.mp member
    exact keyOrder_strict simple
  have lexed : (fun a b => compareItems a b sort) = lex (sort.map keyOrder) := by
    funext a b
    exact compareItems_lex
  have exactly : SortsSoundly sort items ↔
      ∀ low ∈ items,∀ high ∈ items,∀ other ∈ items,¬Crossed (sort.map keyOrder) low high other := by
    rw [← preordered_iff strict,← lexed]
    exact ⟨SortsSoundly.preordered,fun preordered => ⟨preordered,fun _ perm => applySort_ties preordered perm⟩⟩
  refine ⟨exactly,?_⟩
  intro uniform
  exact exactly.mpr fun low inLow high inHigh other inOther => uniform_uncrossed simple uniform inLow inHigh inOther

def titled (rank : FieldValue) (title : String) : MergedItem := ⟨title,[⟨"rank",rank⟩,⟨"title",.str title⟩],[],[],[]⟩

def byRank : List SortKey := [⟨"rank",.ascending⟩,⟨"title",.ascending⟩]

theorem titled_simple {rank : FieldValue} {title : String} (simple : rank.simple = true) : Simple (titled rank title) := by
  intro field member
  rcases List.mem_cons.mp member with rfl | later
  · exact simple
  · rw [List.mem_singleton.mp later]
    rfl

-- A rank that is a string and one that is missing agree with the titles here.
def ranked : List MergedItem := [titled (.int 1) "a",titled (.str "n/a") "m",⟨"z",[⟨"title",.str "z"⟩],[],[],[]⟩]

theorem ranked_sound : SortsSoundly byRank ranked := by
  have simple : ∀ item ∈ ranked,Simple item := by
    intro item member
    rcases List.mem_cons.mp member with rfl | rest
    · exact titled_simple rfl
    rcases List.mem_pair.mp rest with rfl | rfl
    · exact titled_simple rfl
    · intro field only
      rw [List.mem_singleton.mp only]
      rfl
  exact (sorts_soundly_exactly byRank ranked simple).1.mpr (by decide)

-- One rank is a string: the first two go by rank, the third beside either of them by title, and round they go.
theorem unranked_cycle :
    compareItems (titled (.int 1) "z") (titled (.int 2) "a") byRank = .lt ∧
    compareItems (titled (.int 2) "a") (titled (.str "n/a") "m") byRank = .lt ∧
    compareItems (titled (.str "n/a") "m") (titled (.int 1) "z") byRank = .lt ∧
    ¬SortsSoundly byRank [titled (.int 1) "z",titled (.int 2) "a",titled (.str "n/a") "m"] := by
  have one : compareItems (titled (.int 1) "z") (titled (.int 2) "a") byRank = .lt := by decide
  have two : compareItems (titled (.int 2) "a") (titled (.str "n/a") "m") byRank = .lt := by decide
  have three : compareItems (titled (.str "n/a") "m") (titled (.int 1) "z") byRank = .lt := by decide
  refine ⟨one,two,three,?_⟩
  intro sound
  have round := sound.preordered.trans (titled (.int 2) "a") (by simp) (titled (.str "n/a") "m") (by simp) (titled (.int 1) "z") (by simp)
    (by simp [two]) (by simp [three])
  have back := sound.preordered.swap (titled (.int 1) "z") (by simp) (titled (.int 2) "a") (by simp)
  simp only [one] at back
  exact round back

end EvoCore.Metadata
