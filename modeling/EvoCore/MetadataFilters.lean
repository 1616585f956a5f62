import Mathlib

namespace EvoCore.Metadata

-- ProviderId, ItemUri, FieldName and JoinKeyName wrap non-empty strings without NUL; nothing below
-- looks inside them.
inductive FieldValue where
  | bool (value : Bool)
  | int (value : Int64)
  | float (value : Float)
  | str (value : String)
  | list (values : List FieldValue)

mutual
def FieldValue.same : FieldValue → FieldValue → Bool
  | .bool a,.bool b => a == b
  | .int a,.int b => a == b
  | .float a,.float b => a == b
  | .str a,.str b => a == b
  | .list a,.list b => FieldValue.sameAll a b
  | _,_ => false
def FieldValue.sameAll : List FieldValue → List FieldValue → Bool
  | [],[] => true
  | a::as,b::bs => FieldValue.same a b && FieldValue.sameAll as bs
  | _,_ => false
end

instance : BEq FieldValue := ⟨FieldValue.same⟩

structure RangeValue where
  min : Option FieldValue
  max : Option FieldValue

inductive FilterOperator where
  | eq | ne | contains | startsWith | endsWith | fuzzyMatch | range | gte | lte | inSet
deriving DecidableEq,Repr

inductive Filter where
  | eq (field : String) (value : FieldValue)
  | ne (field : String) (value : FieldValue)
  | contains (field needle : String)
  | startsWith (field start : String)
  | endsWith (field suffix : String)
  | fuzzyMatch (field query : String)
  | range (field : String) (range : RangeValue)
  | gte (field : String) (value : FieldValue)
  | lte (field : String) (value : FieldValue)
  | inSet (field : String) (values : List FieldValue)
  | fts (query : String)
  | and (children : List Filter)
  | or (children : List Filter)
  | not (child : Filter)

def Filter.operator : Filter → Option FilterOperator
  | .eq .. => some .eq
  | .ne .. => some .ne
  | .contains .. => some .contains
  | .startsWith .. => some .startsWith
  | .endsWith .. => some .endsWith
  | .fuzzyMatch .. => some .fuzzyMatch
  | .range .. => some .range
  | .gte .. => some .gte
  | .lte .. => some .lte
  | .inSet .. => some .inSet
  | .fts _ | .and _ | .or _ | .not _ => none

def Filter.field : Filter → Option String
  | .eq field _ | .ne field _ | .contains field _ | .startsWith field _ | .endsWith field _ | .fuzzyMatch field _
  | .range field _ | .gte field _ | .lte field _ | .inSet field _ => some field
  | .fts _ | .and _ | .or _ | .not _ => none

structure FieldOperatorSupport where
  field : String
  operators : List FilterOperator
deriving DecidableEq,Repr

-- The declaration without supports_pagination and estimated_response_ms, which nothing reads.
structure ProviderCapabilities where
  providerId : String
  indexedFields : List String
  filterOperators : List FieldOperatorSupport
  sortFields : List String
  joinFields : List String
  supportsFullTextSearch : Bool
deriving DecidableEq,Repr

def ProviderCapabilities.supports (caps : ProviderCapabilities) (field : String) (op : FilterOperator) : Bool :=
  caps.filterOperators.any fun s => s.field == field && s.operators.contains op

structure NamedField where
  name : String
  value : FieldValue

structure NamedJoinKey where
  name : String
  value : String
deriving DecidableEq,Repr

structure ProviderItem where
  uri : String
  fields : List NamedField
  joinKeys : List NamedJoinKey

def ProviderItem.field (item : ProviderItem) (name : String) : Option FieldValue :=
  (item.fields.find? fun f => f.name == name).map NamedField.value

def ProviderItem.joinKey (item : ProviderItem) (name : String) : Option String :=
  (item.joinKeys.find? fun k => k.name == name).map NamedJoinKey.value

-- f64::partial_cmp.
def partialCmp (a b : Float) : Option Ordering :=
  if a < b then some .lt else if a == b then some .eq else if b < a then some .gt else none

def compareField : FieldValue → FieldValue → Option Ordering
  | .int a,.int b => some (compare a b)
  | .float a,.float b => partialCmp a b
  | .int a,.float b => partialCmp a.toFloat b
  | .float a,.int b => partialCmp a b.toFloat
  | .str a,.str b => some (compare a b)
  | .bool a,.bool b => some (compare a b)
  | _,_ => none

def atLeast (v bound : FieldValue) : Bool := ((compareField v bound).map Ordering.isGE).getD false
def atMost (v bound : FieldValue) : Bool := ((compareField v bound).map Ordering.isLE).getD false

def inRange (v : FieldValue) (range : RangeValue) : Bool :=
  let aboveMin := match range.min with
    | some min => atLeast v min
    | none => true
  let belowMax := match range.max with
    | some max => atMost v max
    | none => true
  aboveMin && belowMax

-- str::contains.
def hasInfix (value needle : String) : Bool := value.toList.tails.any fun rest => needle.toList.isPrefixOf rest

-- str::to_lowercase and what a full text search of the item says are parameters.
variable (toLowercase : String → String) (fts : String → Bool) (item : ProviderItem)

def onStr (v : Option FieldValue) (test : String → Bool) : Bool :=
  match v with
  | some (.str value) => test value
  | _ => false

mutual
def matchesWith : Filter → Bool
  | .and children => matchesAll children
  | .or children => matchesAny children
  | .not child => !matchesWith child
  | .fts query => fts query
  | .eq field value => (item.field field).any fun v => v == value
  | .ne field value => (item.field field).any fun v => v != value
  | .contains field needle => onStr (item.field field) fun value => hasInfix (toLowercase value) (toLowercase needle)
  | .startsWith field start => onStr (item.field field) fun value => start.toList.isPrefixOf value.toList
  | .endsWith field suffix => onStr (item.field field) fun value => suffix.toList.isSuffixOf value.toList
  | .fuzzyMatch field query => onStr (item.field field) fun value => hasInfix (toLowercase value) (toLowercase query)
  | .range field range => (item.field field).any fun v => inRange v range
  | .gte field value => (item.field field).any fun v => atLeast v value
  | .lte field value => (item.field field).any fun v => atMost v value
  | .inSet field values => (item.field field).any fun v => values.any fun candidate => candidate == v
def matchesAll : List Filter → Bool
  | [] => true
  | child::rest => matchesWith child && matchesAll rest
def matchesAny : List Filter → Bool
  | [] => false
  | child::rest => matchesWith child || matchesAny rest
end

-- The post-filter runs no search: every Fts leaf holds.
def evaluateFilter (filter : Filter) : Bool := matchesWith toLowercase (fun _ => true) item filter

inductive DecomposeResult where
  | fullyPushed
  | fullyResidual
  | split (pushed residual : Filter)

def DecomposeResult.isFullyPushed : DecomposeResult → Bool
  | .fullyPushed => true
  | _ => false

-- Where a child of And goes, in front of what its later siblings have left.
def DecomposeResult.gather (child : Filter) (later : List Filter × List Filter) : DecomposeResult → List Filter × List Filter
  | .fullyPushed => (child::later.1,later.2)
  | .fullyResidual => (later.1,child::later.2)
  | .split pushed residual => (pushed::later.1,residual::later.2)

variable (caps : ProviderCapabilities)

-- A leaf that is not Fts has both a field and an operator.
def leafSupported (leaf : Filter) : Bool :=
  match leaf.field,leaf.operator with
  | some field,some op => caps.supports field op
  | _,_ => false

mutual
def decomposeInner : Filter → DecomposeResult
  | .and children =>
    let parts := decomposeChildren children
    if parts.2.isEmpty then .fullyPushed
    else if parts.1.isEmpty then .fullyResidual
    else .split (.and parts.1) (.and parts.2)
  | .or children => if allPushed children then .fullyPushed else .fullyResidual
  | .not child => if (decomposeInner child).isFullyPushed then .fullyPushed else .fullyResidual
  | .fts _ => if caps.supportsFullTextSearch then .fullyPushed else .fullyResidual
  | leaf => if leafSupported caps leaf then .fullyPushed else .fullyResidual
-- The loop over the children of And: what it pushes and what stays.
def decomposeChildren : List Filter → List Filter × List Filter
  | [] => ([],[])
  | child::rest => (decomposeInner child).gather child (decomposeChildren rest)
def allPushed : List Filter → Bool
  | [] => true
  | child::rest => (decomposeInner child).isFullyPushed && allPushed rest
end

def decomposeForCapabilities (filter : Filter) : Option Filter × Filter :=
  match decomposeInner caps filter with
  | .fullyPushed => (some filter,.and [])
  | .fullyResidual => (none,filter)
  | .split pushed residual => (some pushed,residual)

mutual
def leaves : Filter → List Filter
  | .and children | .or children => leavesOf children
  | .not child => leaves child
  | leaf => [leaf]
def leavesOf : List Filter → List Filter
  | [] => []
  | child::rest => leaves child ++ leavesOf rest
end

def evaluable : Filter → Bool
  | .fts _ => caps.supportsFullTextSearch
  | leaf => leafSupported caps leaf

-- Every leaf is one the provider evaluates.
def supported (filter : Filter) : Bool := (leaves filter).all (evaluable caps)

mutual
-- The conjuncts of a filter, as far as And goes down.
def conjuncts : Filter → List Filter
  | .and children => conjunctsOf children
  | other => [other]
def conjunctsOf : List Filter → List Filter
  | [] => []
  | child::rest => conjuncts child ++ conjunctsOf rest
end

def taken (filter : Filter) : List Filter := (conjuncts filter).filter (supported caps)
def kept (filter : Filter) : List Filter := (conjuncts filter).filter fun c => !supported caps c

variable {caps toLowercase fts item}

mutual
theorem conjuncts_all (filter : Filter) :
    matchesWith toLowercase fts item filter = (conjuncts filter).all (matchesWith toLowercase fts item) := by
  cases filter with
  | and children => simp only [matchesWith,conjuncts,conjunctsOf_all children]
  | _ => simp [conjuncts]
theorem conjunctsOf_all (filters : List Filter) :
    matchesAll toLowercase fts item filters = (conjunctsOf filters).all (matchesWith toLowercase fts item) := by
  cases filters with
  | nil => rfl
  | cons child rest => simp only [matchesAll,conjunctsOf,List.all_append,conjuncts_all child,conjunctsOf_all rest]
end

mutual
theorem conjuncts_supported (filter : Filter) : supported caps filter = (conjuncts filter).all (supported caps) := by
  cases filter with
  | and children =>
    simp only [conjuncts]
    rw [← conjunctsOf_supported children]
    simp only [supported,leaves]
  | _ => simp [conjuncts]
theorem conjunctsOf_supported (filters : List Filter) :
    (leavesOf filters).all (evaluable caps) = (conjunctsOf filters).all (supported caps) := by
  cases filters with
  | nil => rfl
  | cons child rest =>
    simp only [leavesOf,conjunctsOf,List.all_append,← conjuncts_supported child,conjunctsOf_supported rest,supported]
end

theorem kept_nil (filter : Filter) : kept caps filter = [] ↔ supported caps filter = true := by
  rw [kept,List.filter_eq_nil_iff,conjuncts_supported,List.all_eq_true]
  simp

theorem sides_matches (caps : ProviderCapabilities) (filter : Filter) : matchesWith toLowercase fts item filter =
    ((taken caps filter).all (matchesWith toLowercase fts item) && (kept caps filter).all (matchesWith toLowercase fts item)) := by
  rw [conjuncts_all,taken,kept]
  induction conjuncts filter with
  | nil => rfl
  | cons c rest ih =>
    cases within : supported caps c with
    | true => simp [within,ih,Bool.and_assoc]
    | false => simp [within,ih,Bool.and_left_comm]

-- What a result says of the filter it was computed from.
def Means (caps : ProviderCapabilities) (filter : Filter) : DecomposeResult → Prop
  | .fullyPushed => kept caps filter = []
  | .fullyResidual => taken caps filter = [] ∧ kept caps filter ≠ []
  | .split pushed residual => kept caps filter ≠ [] ∧ supported caps pushed = true ∧ ∀ toLowercase fts item,
    matchesWith toLowercase fts item pushed = (taken caps filter).all (matchesWith toLowercase fts item) ∧
    matchesWith toLowercase fts item residual = (kept caps filter).all (matchesWith toLowercase fts item)

-- The same of what the loop over And has gathered.
structure Gathers (caps : ProviderCapabilities) (filters pushed residual : List Filter) : Prop where
  rest : residual = [] ↔ (conjunctsOf filters).filter (fun c => !supported caps c) = []
  none : pushed = [] → (conjunctsOf filters).filter (supported caps) = []
  leaves : (leavesOf pushed).all (evaluable caps) = true
  sides : ∀ toLowercase fts item,
    matchesAll toLowercase fts item pushed =
      ((conjunctsOf filters).filter (supported caps)).all (matchesWith toLowercase fts item) ∧
    matchesAll toLowercase fts item residual =
      ((conjunctsOf filters).filter fun c => !supported caps c).all (matchesWith toLowercase fts item)

theorem whole_means {filter : Filter} (alone : conjuncts filter = [filter]) {pushed : Bool} (exact : pushed = supported caps filter) :
    Means caps filter (if pushed then .fullyPushed else .fullyResidual) := by
  cases pushed with
  | true => simp [Means,kept,alone,← exact]
  | false => simp [Means,taken,kept,alone,← exact]

theorem and_means {children : List Filter} {parts : List Filter × List Filter} (gathers : Gathers caps children parts.1 parts.2) :
    Means caps (.and children) (if parts.2.isEmpty then .fullyPushed else if parts.1.isEmpty then .fullyResidual
      else .split (.and parts.1) (.and parts.2)) := by
  have remains : kept caps (.and children) = [] ↔ parts.2 = [] := gathers.rest.symm
  split
  · rename_i nothing
    exact remains.mpr (List.isEmpty_iff.mp nothing)
  · rename_i something
    have left : kept caps (.and children) ≠ [] := fun empty => something (List.isEmpty_iff.mpr (remains.mp empty))
    split
    · rename_i unpushed
      exact ⟨gathers.none (List.isEmpty_iff.mp unpushed),left⟩
    · exact ⟨left,gathers.leaves,fun toLowercase fts item => gathers.sides toLowercase fts item⟩

theorem gathers_cons {child : Filter} {rest : List Filter} {result : DecomposeResult} {later : List Filter × List Filter}
    (means : Means caps child result) (gathers : Gathers caps rest later.1 later.2) :
    Gathers caps (child::rest) (result.gather child later).1 (result.gather child later).2 := by
  have conjunction (toLowercase : String → String) (fts : String → Bool) (item : ProviderItem) :
      matchesWith toLowercase fts item child = ((taken caps child).all (matchesWith toLowercase fts item) &&
        (kept caps child).all (matchesWith toLowercase fts item)) := sides_matches caps child
  unfold DecomposeResult.gather
  cases result with
  | fullyPushed =>
    have nothing : (conjuncts child).filter (fun c => !supported caps c) = [] := means
    refine ⟨?_,?_,?_,?_⟩
    · simpa [conjunctsOf,nothing] using gathers.rest
    · simp
    · simp only [leavesOf,List.all_append,gathers.leaves,Bool.and_true]
      exact (kept_nil child).mp means
    · intro toLowercase fts item
      have whole := conjunction toLowercase fts item
      rw [show kept caps child = [] from means] at whole
      simp only [matchesAll,conjunctsOf,List.filter_append,List.all_append,nothing,List.nil_append,(gathers.sides _ _ _).1,
        (gathers.sides _ _ _).2,whole,List.all_nil,Bool.and_true,taken,and_self]
  | fullyResidual =>
    have untaken : (conjuncts child).filter (supported caps) = [] := means.1
    refine ⟨?_,?_,gathers.leaves,?_⟩
    · refine iff_of_false (by simp) fun empty => ?_
      rw [conjunctsOf,List.filter_append,List.append_eq_nil_iff] at empty
      exact means.2 empty.1
    · intro empty
      simp [conjunctsOf,untaken,gathers.none empty]
    · intro toLowercase fts item
      have whole := conjunction toLowercase fts item
      rw [show taken caps child = [] from means.1] at whole
      simp only [matchesAll,conjunctsOf,List.filter_append,List.all_append,untaken,List.nil_append,(gathers.sides _ _ _).1,
        (gathers.sides _ _ _).2,whole,List.all_nil,Bool.true_and,kept,and_self]
  | split pushed residual =>
    obtain ⟨remains,leaves,sides⟩ := means
    refine ⟨?_,?_,?_,?_⟩
    · refine iff_of_false (by simp) fun empty => ?_
      rw [conjunctsOf,List.filter_append,List.append_eq_nil_iff] at empty
      exact remains empty.1
    · simp
    · simp only [leavesOf,List.all_append,gathers.leaves,Bool.and_true]
      exact leaves
    · intro toLowercase fts item
      simp only [matchesAll,conjunctsOf,List.filter_append,List.all_append,(gathers.sides _ _ _).1,(gathers.sides _ _ _).2,
        (sides _ _ _).1,(sides _ _ _).2,taken,kept,and_self]

theorem means_pushed {filter : Filter} {result : DecomposeResult} (means : Means caps filter result) :
    result.isFullyPushed = supported caps filter := by
  cases result with
  | fullyPushed => exact ((kept_nil filter).mp means).symm
  | fullyResidual =>
    refine (Bool.eq_false_iff.mpr fun all => ?_).symm
    exact means.2 ((kept_nil filter).mpr all)
  | split pushed residual =>
    refine (Bool.eq_false_iff.mpr fun all => ?_).symm
    exact means.1 ((kept_nil filter).mpr all)

mutual
theorem inner_means (filter : Filter) : Means caps filter (decomposeInner caps filter) := by
  cases filter with
  | and children =>
    rw [decomposeInner]
    exact and_means (children_gather children)
  | or children =>
    rw [decomposeInner]
    exact whole_means rfl (allPushed_exact children)
  | not child =>
    have means : Means caps child _ := inner_means child
    have decided : (decomposeInner caps child).isFullyPushed = supported caps (.not child) :=
      (means_pushed means).trans (by simp only [supported,leaves])
    rw [decomposeInner]
    exact whole_means rfl decided
  | fts query =>
    rw [decomposeInner]
    exact whole_means rfl (by simp [supported,leaves,evaluable])
  | _ =>
    simp only [decomposeInner]
    exact whole_means rfl (by simp [supported,leaves,evaluable])
theorem children_gather (filters : List Filter) :
    Gathers caps filters (decomposeChildren caps filters).1 (decomposeChildren caps filters).2 := by
  cases filters with
  | nil => exact ⟨by simp [decomposeChildren,conjunctsOf],by simp [conjunctsOf],rfl,fun _ _ _ => ⟨rfl,rfl⟩⟩
  | cons child rest =>
    rw [decomposeChildren]
    exact gathers_cons (inner_means child) (children_gather rest)
theorem allPushed_exact (filters : List Filter) : allPushed caps filters = (leavesOf filters).all (evaluable caps) := by
  cases filters with
  | nil => rfl
  | cons child rest =>
    have means : Means caps child _ := inner_means child
    rw [allPushed,leavesOf,List.all_append,means_pushed means,allPushed_exact rest]
    rfl
end

theorem decompose_means {filter pushed residual : Filter}
    (pushes : decomposeForCapabilities caps filter = (some pushed,residual)) :
    supported caps pushed = true ∧ ∀ toLowercase fts item,
      matchesWith toLowercase fts item pushed = (taken caps filter).all (matchesWith toLowercase fts item) ∧
      matchesWith toLowercase fts item residual = (kept caps filter).all (matchesWith toLowercase fts item) := by
  have means : Means caps filter _ := inner_means filter
  unfold decomposeForCapabilities at pushes
  cases result : decomposeInner caps filter with
  | fullyPushed =>
    rw [result] at pushes means
    cases pushes
    have nothing : kept caps filter = [] := means
    refine ⟨(kept_nil filter).mp nothing,fun toLowercase fts item => ?_⟩
    have both : matchesWith toLowercase fts item filter = _ := sides_matches caps filter
    rw [nothing] at both ⊢
    simp only [List.all_nil,Bool.and_true] at both
    exact ⟨both,rfl⟩
  | fullyResidual =>
    rw [result] at pushes
    cases pushes
  | split first second =>
    rw [result] at pushes means
    cases pushes
    exact means.2

mutual
theorem searchless (filter : Filter) (none_ : ∀ query,Filter.fts query ∉ leaves filter) :
    matchesWith toLowercase fts item filter = evaluateFilter toLowercase item filter := by
  cases filter with
  | and children => exact (searchless_all children (by simpa [leaves] using none_)).1
  | or children => exact (searchless_all children (by simpa [leaves] using none_)).2
  | not child =>
    have inner := searchless child (by simpa [leaves] using none_)
    simp only [evaluateFilter,matchesWith] at inner ⊢
    rw [inner]
  | fts query => exact absurd (by simp [leaves]) (none_ query)
  | _ => simp only [evaluateFilter,matchesWith]
theorem searchless_all (filters : List Filter) (none_ : ∀ query,Filter.fts query ∉ leavesOf filters) :
    matchesAll toLowercase fts item filters = matchesAll toLowercase (fun _ => true) item filters ∧
    matchesAny toLowercase fts item filters = matchesAny toLowercase (fun _ => true) item filters := by
  cases filters with
  | nil => exact ⟨rfl,rfl⟩
  | cons child rest =>
    have apart : (∀ query,Filter.fts query ∉ leaves child) ∧ ∀ query,Filter.fts query ∉ leavesOf rest := by
      simp only [leavesOf,List.mem_append,not_or] at none_
      exact ⟨fun query => (none_ query).1,fun query => (none_ query).2⟩
    have first := searchless child apart.1
    have later := searchless_all rest apart.2
    simp only [evaluateFilter] at first
    simp only [matchesAll,matchesAny,first,later.1,later.2,and_self]
end

-- Exactly the items for which the conjuncts that stay do not turn on a search are judged as the filter
-- judges them, or a pushed conjunct has turned them away already.
theorem pushdown_exactly (caps : ProviderCapabilities) (filter pushed residual : Filter)
    (pushes : decomposeForCapabilities caps filter = (some pushed,residual)) :
    (∀ leaf ∈ leaves pushed,evaluable caps leaf = true) ∧
    (∀ toLowercase fts item,
      ((matchesWith toLowercase fts item pushed = true ∧ evaluateFilter toLowercase item residual = true ↔
          matchesWith toLowercase fts item filter = true) ↔
        ((∀ c ∈ taken caps filter,matchesWith toLowercase fts item c = true) →
          ((∀ c ∈ kept caps filter,evaluateFilter toLowercase item c = true) ↔
            ∀ c ∈ kept caps filter,matchesWith toLowercase fts item c = true)))) ∧
    ((∀ c ∈ kept caps filter,∀ query,Filter.fts query ∉ leaves c) → ∀ toLowercase fts item,
      (matchesWith toLowercase fts item pushed = true ∧ evaluateFilter toLowercase item residual = true ↔
        matchesWith toLowercase fts item filter = true)) := by
  obtain ⟨leaves,means⟩ := decompose_means pushes
  have exactly : ∀ toLowercase fts item,
      ((matchesWith toLowercase fts item pushed = true ∧ evaluateFilter toLowercase item residual = true ↔
          matchesWith toLowercase fts item filter = true) ↔
        ((∀ c ∈ taken caps filter,matchesWith toLowercase fts item c = true) →
          ((∀ c ∈ kept caps filter,evaluateFilter toLowercase item c = true) ↔
            ∀ c ∈ kept caps filter,matchesWith toLowercase fts item c = true))) := by
    intro toLowercase fts item
    have jazzAsked : matchesWith toLowercase fts item filter = _ := sides_matches caps filter
    rw [jazzAsked,(means toLowercase fts item).1]
    simp only [evaluateFilter]
    rw [(means toLowercase (fun _ => true) item).2]
    simp only [Bool.and_eq_true,List.all_eq_true]
    constructor
    · intro same passed
      constructor
      · intro stay
        exact (same.mp ⟨passed,stay⟩).2
      · intro stay
        exact (same.mpr ⟨passed,stay⟩).2
    · intro same
      constructor
      · intro both
        exact ⟨both.1,(same both.1).mp both.2⟩
      · intro both
        exact ⟨both.1,(same both.1).mpr both.2⟩
  refine ⟨List.all_eq_true.mp leaves,exactly,fun unsearched toLowercase fts item => (exactly toLowercase fts item).mpr fun _ => ?_⟩
  constructor
  · intro stay c member
    rw [searchless c (unsearched c member)]
    exact stay c member
  · intro stay c member
    rw [← searchless c (unsearched c member)]
    exact stay c member

-- A provider that knows titles and cannot search.
def titles : ProviderCapabilities := ⟨"titles",["title"],[⟨"title",[.eq]⟩],[],[],false⟩

def song : ProviderItem := ⟨"song",[⟨"title",.str "Birdland"⟩,⟨"genre",.str "jazz"⟩],[]⟩

def jazzAsked : Filter := .and [.eq "title" (.str "Birdland"),.eq "genre" (.str "jazz"),.fts "weather"]

-- The search finds the song.
theorem titles_pushed : decomposeForCapabilities titles jazzAsked =
      (some (.and [.eq "title" (.str "Birdland")]),.and [.eq "genre" (.str "jazz"),.fts "weather"]) ∧
    (∀ leaf ∈ leaves (.and [.eq "title" (.str "Birdland")]),evaluable titles leaf = true) ∧
    (matchesWith id (fun _ => true) song (.and [.eq "title" (.str "Birdland")]) = true ∧
        evaluateFilter id song (.and [.eq "genre" (.str "jazz"),.fts "weather"]) = true ↔
      matchesWith id (fun _ => true) song jazzAsked = true) := by
  have pushes : decomposeForCapabilities titles jazzAsked =
      (some (.and [.eq "title" (.str "Birdland")]),.and [.eq "genre" (.str "jazz"),.fts "weather"]) := by
    simp [jazzAsked,decomposeForCapabilities,decomposeInner,decomposeChildren,leafSupported,Filter.field,Filter.operator,titles,
      ProviderCapabilities.supports,DecomposeResult.gather]
  obtain ⟨known,exactly,-⟩ := pushdown_exactly titles _ _ _ pushes
  exact ⟨pushes,known,(exactly id (fun _ => true) song).mpr fun _ => .rfl⟩

-- The song is not found by the search and is returned all the same.
theorem unsearched_returned : decomposeForCapabilities titles (.and [.eq "title" (.str "Birdland"),.fts "jazz"]) =
      (some (.and [.eq "title" (.str "Birdland")]),.and [.fts "jazz"]) ∧
    matchesWith id (fun _ => false) song (.and [.eq "title" (.str "Birdland")]) = true ∧
    evaluateFilter id song (.and [.fts "jazz"]) = true ∧
    matchesWith id (fun _ => false) song (.and [.eq "title" (.str "Birdland"),.fts "jazz"]) = false := by
  refine ⟨?_,?_,rfl,?_⟩
  · simp [decomposeForCapabilities,decomposeInner,decomposeChildren,leafSupported,Filter.field,Filter.operator,titles,
      ProviderCapabilities.supports,DecomposeResult.gather]
  · decide
  · simp [matchesWith,matchesAll]

end EvoCore.Metadata
