import EvoCore.SubjectProjections

namespace EvoCore.Projections
open Tables Buckets
open DepthFirst (Visits visit offer offers Explored Bare visit_explored)
open SubjectRegistry (SubjectRecord describe)
open RelationGraph (RelationKey)
open GraphWalk (WalkDirection)

variable {listing : Listing} {engine : ProjectionEngine} {scope : ProjectionScope} {n remaining : Nat} {id : String} {v : Visits String}

-- The other ends of a subject's relations, in the order in which a projection meets them.
def ends (listing : Listing) (engine : ProjectionEngine) (scope : ProjectionScope) (id predicate : String) : List String :=
  (if scope.direction = .forward ∨ scope.direction = .both then neighbours listing engine id predicate .forward else []) ++
  (if scope.direction = .inverse ∨ scope.direction = .both then neighbours listing engine id predicate .inverse else [])

def nexts (listing : Listing) (engine : ProjectionEngine) (scope : ProjectionScope) (id : String) : List String :=
  scope.relationPredicates.flatMap (ends listing engine scope id)

def label (e : Nat × SubjectProjection) : String × Nat := (e.2.canonicalId,e.1)

-- A level of the projection lists the neighbours of its subject if it has depth left, and an entry nests
-- its own subject if it nests one.
structure Level (listing : Listing) (engine : ProjectionEngine) (scope : ProjectionScope) (e : Nat × SubjectProjection) : Prop where
  targets : e.2.related.map RelatedSubject.targetId = if e.1 = 0 then [] else nexts listing engine scope e.2.canonicalId
  nests : ∀ entry ∈ e.2.related,∀ q,entry.nested = some q → q.canonicalId = entry.targetId

theorem expansions_eq (n : Nat) (p : SubjectProjection) : expansions n p = (n,p)::entriesBelow (n-1) p.related := by
  cases p
  rw [expansions]

theorem entriesBelow_append (n : Nat) (one two : List (RelatedSubject SubjectProjection)) :
    entriesBelow n (one ++ two) = entriesBelow n one ++ entriesBelow n two := by
  induction one with
  | nil => rfl
  | cons entry rest ih => rw [List.cons_append,entriesBelow,entriesBelow,ih,List.append_assoc]

theorem entriesBelow_single (n : Nat) (entry : RelatedSubject SubjectProjection) : entriesBelow n [entry] = nestedBelow n entry.nested := by
  cases entry
  rw [entriesBelow,entriesBelow,List.append_nil,entryBelow]

structure Draws (listing : Listing) (engine : ProjectionEngine) (scope : ProjectionScope) (n : Nat) (id : String) (v : Visits String)
    (p : SubjectProjection) : Prop where
  result : projectRecursive listing engine scope n id v =
    (.ok p,(visit (nexts listing engine scope) (known engine) scope.maxVisits n id v).2)
  found : (expansions n p).map label = (visit (nexts listing engine scope) (known engine) scope.maxVisits n id v).1
  itself : p.canonicalId = id
  truncated : p.walkTruncated = (visit (nexts listing engine scope) (known engine) scope.maxVisits n id v).2.truncated
  levels : ∀ e ∈ expansions n p,Level listing engine scope e

structure Mirrors (listing : Listing) (engine : ProjectionEngine) (scope : ProjectionScope) (n : Nat) (ys : List String) (c : Composing)
    (acc : List (String × Nat) × Visits String) : Prop where
  visits : c.visits = acc.2
  found : (entriesBelow n c.related).map label = acc.1
  targets : c.related.map RelatedSubject.targetId = ys
  levels : ∀ e ∈ entriesBelow n c.related,Level listing engine scope e
  nests : ∀ entry ∈ c.related,∀ q,entry.nested = some q → q.canonicalId = entry.targetId

section Entries

variable {ys zs : List String} {c : Composing} {acc : List (String × Nat) × Visits String} {y missing : String}
  {direction : RelationDirection} {key : RelationKey}
  (draws : ∀ id v,known engine id = true → ∃ p,Draws listing engine scope n id v p)
include draws

theorem buildEntry_mirrors (mirrors : Mirrors listing engine scope n ys c acc) :
    Mirrors listing engine scope n (ys ++ [y])
      (buildEntry engine scope (projectRecursive listing engine scope n) (n+1) direction key y missing c)
      (offer (known engine) scope.maxVisits (visit (nexts listing engine scope) (known engine) scope.maxVisits n) n acc y) := by
  obtain ⟨c',related,reasons⟩ := c
  obtain ⟨found_,v⟩ := acc
  obtain rfl : c' = v := mirrors.visits
  have spare : n+1 ≤ 1 ↔ n = 0 := by omega
  have typed : ((describe engine.registry y).map SubjectRecord.subjectType).isNone = true ↔ known engine y = false := by
    unfold known
    cases describe engine.registry y <;> simp
  have asked : n+1 ≤ 1 ∨ ((describe engine.registry y).map SubjectRecord.subjectType).isNone = true ∨ y ∈ c'.visited ↔
      n = 0 ∨ known engine y = false ∨ y ∈ c'.visited := by rw [spare,typed]
  have plain : ∀ v' : Visits String,maybeNest scope (projectRecursive listing engine scope n) (n+1) y
      ((describe engine.registry y).map SubjectRecord.subjectType) c' = (none,v') →
      offer (known engine) scope.maxVisits (visit (nexts listing engine scope) (known engine) scope.maxVisits n) n (found_,c') y = (found_,v') →
      Mirrors listing engine scope n (ys ++ [y])
        (buildEntry engine scope (projectRecursive listing engine scope n) (n+1) direction key y missing ⟨c',related,reasons⟩) (found_,v') := by
    intro v' nothing _
    have below : ∀ entry : RelatedSubject SubjectProjection,entry.nested = none → entriesBelow n (related ++ [entry]) = entriesBelow n related := by
      intro entry bare
      rw [entriesBelow_append,entriesBelow_single,bare,nestedBelow,List.append_nil]
    simp only [buildEntry,nothing]
    constructor
    case visits => rfl
    case found =>
      rw [below _ rfl]
      exact mirrors.found
    case targets =>
      have targets := mirrors.targets
      dsimp only at targets
      rw [List.map_append,targets]
      rfl
    case levels =>
      rw [below _ rfl]
      exact mirrors.levels
    case nests =>
      intro entry member q nested
      rcases List.mem_append.mp member with old | new
      · exact mirrors.nests entry old q nested
      · rw [List.mem_singleton.mp new] at nested
        cases nested
  by_cases blank : n = 0 ∨ known engine y = false ∨ y ∈ c'.visited
  · have nothing : maybeNest scope (projectRecursive listing engine scope n) (n+1) y
        ((describe engine.registry y).map SubjectRecord.subjectType) c' = (none,c') :=
      if_pos (asked.mpr blank)
    have passed : offer (known engine) scope.maxVisits (visit (nexts listing engine scope) (known engine) scope.maxVisits n) n (found_,c') y =
        (found_,c') := if_pos blank
    rw [passed]
    exact plain c' nothing passed
  · by_cases full : scope.maxVisits ≤ c'.visited.card
    · have nothing : maybeNest scope (projectRecursive listing engine scope n) (n+1) y
          ((describe engine.registry y).map SubjectRecord.subjectType) c' = (none,{c' with truncated := true}) := by
        rw [maybeNest,if_neg (mt asked.mp blank)]
        exact if_pos full
      have passed : offer (known engine) scope.maxVisits (visit (nexts listing engine scope) (known engine) scope.maxVisits n) n (found_,c') y =
          (found_,{c' with truncated := true}) := by
        rw [offer,if_neg blank]
        exact if_pos full
      rw [passed]
      exact plain _ nothing passed
    · have there : known engine y = true := by
        simp only [not_or,Bool.not_eq_false] at blank
        exact blank.2.1
      obtain ⟨p,drawn⟩ := draws y c' there
      have nests : maybeNest scope (projectRecursive listing engine scope n) (n+1) y
          ((describe engine.registry y).map SubjectRecord.subjectType) c' =
          (some p,(visit (nexts listing engine scope) (known engine) scope.maxVisits n y c').2) := by
        rw [maybeNest,if_neg (mt asked.mp blank),if_neg full,drawn.result]
        rfl
      rw [offer,if_neg blank,if_neg full]
      simp only [buildEntry,nests]
      have below : ∀ entry : RelatedSubject SubjectProjection,entry.nested = some p →
          entriesBelow n (related ++ [entry]) = entriesBelow n related ++ expansions n p := by
        intro entry nested
        rw [entriesBelow_append,entriesBelow_single,nested,nestedBelow]
      constructor
      case visits => rfl
      case found =>
        have before := mirrors.found
        dsimp only at before
        rw [below _ rfl,List.map_append,before,drawn.found]
      case targets =>
        have targets := mirrors.targets
        dsimp only at targets
        rw [List.map_append,targets]
        rfl
      case levels =>
        rw [below _ rfl]
        intro e member
        rcases List.mem_append.mp member with old | new
        · exact mirrors.levels e old
        · exact drawn.levels e new
      case nests =>
        intro entry member q nested
        rcases List.mem_append.mp member with old | new
        · exact mirrors.nests entry old q nested
        · rw [List.mem_singleton.mp new] at nested ⊢
          cases nested
          exact drawn.itself

theorem entries_mirror {build : Composing → String → Composing} (mirrors : Mirrors listing engine scope n ys c acc)
    (builds : ∀ c y,∃ direction key missing,
      build c y = buildEntry engine scope (projectRecursive listing engine scope n) (n+1) direction key y missing c) (zs : List String) :
    Mirrors listing engine scope n (ys ++ zs) (zs.foldl build c)
      (zs.foldl (offer (known engine) scope.maxVisits (visit (nexts listing engine scope) (known engine) scope.maxVisits n) n) acc) := by
  induction zs generalizing ys c acc with
  | nil => simpa using mirrors
  | cons y rest ih =>
    obtain ⟨direction,key,missing,same⟩ := builds c y
    rw [List.foldl_cons,List.foldl_cons,same,← List.append_cons ys y rest |>.symm]
    exact ih (buildEntry_mirrors draws mirrors)

theorem followPredicate_mirrors (mirrors : Mirrors listing engine scope n ys c acc) (predicate : String) :
    Mirrors listing engine scope n (ys ++ ends listing engine scope id predicate)
      (followPredicate listing engine scope (projectRecursive listing engine scope n) (n+1) id c predicate)
      ((ends listing engine scope id predicate).foldl
        (offer (known engine) scope.maxVisits (visit (nexts listing engine scope) (known engine) scope.maxVisits n) n) acc) := by
  rw [ends,List.foldl_append,← List.append_assoc,followPredicate]
  have ahead : Mirrors listing engine scope n
      (ys ++ if scope.direction = .forward ∨ scope.direction = .both then neighbours listing engine id predicate .forward else [])
      (if scope.direction = .forward ∨ scope.direction = .both then
        (neighbours listing engine id predicate .forward).foldl
          (buildRelated engine scope (projectRecursive listing engine scope n) (n+1) predicate id) c
      else c)
      ((if scope.direction = .forward ∨ scope.direction = .both then neighbours listing engine id predicate .forward else []).foldl
        (offer (known engine) scope.maxVisits (visit (nexts listing engine scope) (known engine) scope.maxVisits n) n) acc) := by
    split
    · exact entries_mirror draws mirrors (fun c y => ⟨_,_,_,rfl⟩) _
    · simpa using mirrors
  by_cases backwards : scope.direction = .inverse ∨ scope.direction = .both
  · simp only [if_pos backwards]
    exact entries_mirror draws ahead (fun c y => ⟨_,_,_,rfl⟩) _
  · simp only [if_neg backwards,List.append_nil,List.foldl_nil]
    exact ahead

theorem predicates_mirror (mirrors : Mirrors listing engine scope n ys c acc) (predicates : List String) :
    Mirrors listing engine scope n (ys ++ predicates.flatMap (ends listing engine scope id))
      (predicates.foldl (followPredicate listing engine scope (projectRecursive listing engine scope n) (n+1) id) c)
      ((predicates.flatMap (ends listing engine scope id)).foldl
        (offer (known engine) scope.maxVisits (visit (nexts listing engine scope) (known engine) scope.maxVisits n) n) acc) := by
  induction predicates generalizing ys c acc with
  | nil => simpa using mirrors
  | cons predicate rest ih =>
    rw [List.flatMap_cons,List.foldl_append,List.foldl_cons,← List.append_assoc]
    exact ih (followPredicate_mirrors draws mirrors predicate)

end Entries

theorem known_record (there : known engine id = true) : ∃ record,describe engine.registry id = some record ∧ record.id = id := by
  obtain ⟨record,found⟩ := Option.isSome_iff_exists.mp there
  exact ⟨record,found,engine.filed id record found⟩

-- The projection is the search by depth, drawn.
theorem project_draws (n : Nat) (id : String) (v : Visits String) (there : known engine id = true) :
    ∃ p,Draws listing engine scope n id v p := by
  induction n generalizing id v with
  | zero =>
    obtain ⟨record,found,rfl⟩ := known_record there
    refine ⟨composed engine record (entered engine record v),?_⟩
    constructor
    case result => rw [projectRecursive,found,visit]; rfl
    case found => rw [expansions_eq,visit]; rfl
    case itself => rfl
    case truncated => rfl
    case levels =>
      intro e member
      rw [expansions_eq,composed,entered,entriesBelow,List.mem_singleton] at member
      rw [member]
      refine ⟨rfl,fun entry absent => ?_⟩
      cases absent
  | succ n ih =>
    obtain ⟨record,found,rfl⟩ := known_record there
    have start : Mirrors listing engine scope n [] (entered engine record v) ([],v.enter record.id) := by
      constructor
      case visits => rfl
      case found => rfl
      case targets => rfl
      case levels =>
        intro e absent
        cases absent
      case nests =>
        intro entry absent
        cases absent
    have after := @predicates_mirror _ _ _ _ record.id _ _ _ ih start scope.relationPredicates
    rw [List.nil_append] at after
    refine ⟨composed engine record (scope.relationPredicates.foldl
      (followPredicate listing engine scope (projectRecursive listing engine scope n) (n+1) record.id) (entered engine record v)),?_⟩
    constructor
    case result =>
      rw [projectRecursive,found,visit]
      dsimp only
      rw [after.visits]
      rfl
    case found =>
      rw [expansions_eq,visit,List.map_cons]
      exact congrArg (List.cons (record.id,n+1)) after.found
    case itself => rfl
    case truncated =>
      rw [visit,composed]
      dsimp only
      rw [after.visits]
      rfl
    case levels =>
      intro e member
      rw [expansions_eq] at member
      rcases List.mem_cons.mp member with rfl | below
      · refine ⟨?_,after.nests⟩
        rw [if_neg (Nat.succ_ne_zero n)]
        exact after.targets
      · exact after.levels e below

section Drawn

variable {root : String} {p : SubjectProjection}

theorem Draws.explored (draws : Draws listing engine scope scope.maxDepth root .empty p) (there : known engine root = true) :
    Explored (nexts listing engine scope) (known engine) scope.maxVisits [root] scope.maxDepth .empty
      (visit (nexts listing engine scope) (known engine) scope.maxVisits scope.maxDepth root .empty).2 ((expansions scope.maxDepth p).map label) := by
  rw [draws.found]
  exact (visit_explored there (Finset.notMem_empty _)).1

theorem expanded_found : expanded scope p = ((expansions scope.maxDepth p).map label).map Prod.fst := by
  rw [expanded,List.map_map]
  rfl

theorem Draws.visited (draws : Draws listing engine scope scope.maxDepth root .empty p) (there : known engine root = true) :
    id ∈ (visit (nexts listing engine scope) (known engine) scope.maxVisits scope.maxDepth root .empty).2.visited ↔ id ∈ expanded scope p := by
  rw [(draws.explored there).grown,expanded_found]
  constructor
  · rintro (absent | found)
    · exact absurd absent (Finset.notMem_empty _)
    · exact found
  · exact .inr

theorem root_expanded (draws : Draws listing engine scope scope.maxDepth root .empty p) : root ∈ expanded scope p := by
  rw [expanded,expansions_eq,List.map_cons,draws.itself]
  exact List.mem_cons_self

def Closed (all : List (Nat × SubjectProjection)) : Prop := ∀ e ∈ all,entriesBelow (e.1-1) e.2.related ⊆ all

theorem closed_append {one two : List (Nat × SubjectProjection)} (first : Closed one) (second : Closed two) : Closed (one ++ two) := by
  intro e member
  rcases List.mem_append.mp member with old | new
  · exact List.subset_append_of_subset_left _ (first e old)
  · exact List.subset_append_of_subset_right _ (second e new)

theorem expansions_closed (n : Nat) (p : SubjectProjection) : Closed (expansions n p) := by
  have none_ : Closed [] := fun e absent => absurd absent List.not_mem_nil
  refine expansions.induct (fun n p => Closed (expansions n p)) (fun n related => Closed (entriesBelow n related))
    (fun n entry => Closed (entryBelow n entry)) (fun n nested => Closed (nestedBelow n nested)) ?_ ?_ ?_ ?_ ?_ ?_ n p
  · intro n id type addressings related state version claimants degraded reasons truncated ih e member
    rw [expansions] at member ⊢
    rcases List.mem_cons.mp member with rfl | below
    · exact List.subset_cons_self _ _
    · exact List.subset_cons_of_subset _ (ih e below)
  · intro n
    rw [entriesBelow]
    exact none_
  · intro n entry rest first more
    rw [entriesBelow]
    exact closed_append first more
  · intro n predicate direction targetId targetType claimants nested ih
    rw [entryBelow]
    exact ih
  · intro n
    rw [nestedBelow]
    exact none_
  · intro n p ih
    rw [nestedBelow]
    exact ih

theorem nested_below {related : List (RelatedSubject SubjectProjection)} {entry : RelatedSubject SubjectProjection}
    {q : SubjectProjection} (inside : entry ∈ related) (nested : entry.nested = some q) : (n,q) ∈ entriesBelow n related := by
  obtain ⟨before,after,rfl⟩ := List.append_of_mem inside
  rw [← List.singleton_append,entriesBelow_append,entriesBelow_append,entriesBelow_single,nested,nestedBelow,expansions_eq]
  exact List.mem_append_right _ (List.mem_append_left _ List.mem_cons_self)

theorem nested_expanded {e : Nat × SubjectProjection} {entry : RelatedSubject SubjectProjection} {q : SubjectProjection}
    (drawn : e ∈ expansions scope.maxDepth p) (inside : entry ∈ e.2.related) (nested : entry.nested = some q) :
    q.canonicalId ∈ expanded scope p :=
  List.mem_map_of_mem (f := fun e : Nat × SubjectProjection => e.2.canonicalId)
    (expansions_closed _ _ e drawn (nested_below inside nested))

theorem Draws.bare (draws : Draws listing engine scope scope.maxDepth root .empty p) (there : known engine root = true) :
    Bare (nexts listing engine scope) (known engine) [root] scope.maxDepth
      (visit (nexts listing engine scope) (known engine) scope.maxVisits scope.maxDepth root .empty).2.visited
      ((expansions scope.maxDepth p).map label) ↔ LeftBare engine scope p := by
  constructor
  · rintro (⟨_,y,alone,_,out⟩ | ⟨_,member,spare,y,next,known_,out⟩)
    · rw [List.mem_singleton.mp alone] at out
      exact absurd ((draws.visited there).mpr (root_expanded draws)) out
    · obtain ⟨e,drawn,rfl⟩ := List.mem_map.mp member
      have level := draws.levels e drawn
      have deep : e.1 ≠ 0 := by
        have two : 2 ≤ e.1 := spare
        omega
      have targets := level.targets
      rw [if_neg deep] at targets
      have listed : y ∈ e.2.related.map RelatedSubject.targetId := by
        rw [targets]
        exact next
      obtain ⟨entry,inside,rfl⟩ := List.mem_map.mp listed
      have absent : entry.targetId ∉ expanded scope p := fun inside => out ((draws.visited there).mpr inside)
      refine ⟨e,drawn,spare,entry,inside,?_,known_,absent⟩
      cases nested : entry.nested with
      | none => rfl
      | some q =>
        have same := level.nests entry inside q nested
        refine absurd ?_ absent
        rw [← same]
        exact nested_expanded drawn inside nested
  · rintro ⟨e,drawn,spare,entry,inside,_,known_,absent⟩
    have level := draws.levels e drawn
    have targets := level.targets
    rw [if_neg (by omega)] at targets
    refine .inr ⟨label e,List.mem_map_of_mem drawn,spare,entry.targetId,?_,known_,fun visited => absent ((draws.visited there).mp visited)⟩
    change entry.targetId ∈ nexts listing engine scope e.2.canonicalId
    rw [← targets]
    exact List.mem_map_of_mem inside

theorem draws_bounded (draws : Draws listing engine scope scope.maxDepth root .empty p) (there : known engine root = true) :
    BoundedBy engine scope p := by
  have explored := draws.explored there
  have card : (visit (nexts listing engine scope) (known engine) scope.maxVisits scope.maxDepth root .empty).2.visited.card =
      (expanded scope p).length := by
    have once : (expanded scope p).Nodup := by
      rw [expanded_found]
      exact explored.once
    rw [← List.toFinset_card_of_nodup once]
    congr 1
    ext id
    rw [List.mem_toFinset,draws.visited there]
  have registered : ∀ id ∈ expanded scope p,known engine id = true := by
    intro id member
    rw [expanded_found] at member
    obtain ⟨e,found,rfl⟩ := List.mem_map.mp member
    exact (explored.fresh e found).2
  constructor
  case once =>
    rw [expanded_found]
    exact explored.once
  case registered => exact registered
  case capped =>
    rw [← card]
    exact (visit_explored there (Finset.notMem_empty _)).2
  case finite =>
    refine (List.subperm_of_subset (by rw [expanded_found]; exact explored.once) fun id member => ?_).length_le
    obtain ⟨record,found⟩ := Option.isSome_iff_exists.mp (registered id member)
    exact (mem_keys _).mpr ⟨record,found⟩
  case truncated =>
    rw [draws.truncated,explored.cut,draws.bare there]
    constructor
    · rintro (absurdity | bare)
      · cases absurdity
      · exact bare
    · exact .inr
  case full =>
    intro bare
    rw [← card]
    exact explored.full ((draws.bare there).mpr bare)

end Drawn

theorem project_unknown (unknown : describe engine.registry canonicalId = none) :
    projectSubject listing engine scope canonicalId = .error (.unknownSubject canonicalId) := by
  rw [projectSubject]
  cases scope.maxDepth <;> rw [projectRecursive,unknown]

-- Over every registry and graph: a projection comes about unless its root is unknown, and it is bounded.
theorem projection_bounded (listing : Listing) (engine : ProjectionEngine) (scope : ProjectionScope) (canonicalId : String) :
    (describe engine.registry canonicalId = none →
      projectSubject listing engine scope canonicalId = .error (.unknownSubject canonicalId)) ∧
    (describe engine.registry canonicalId ≠ none →
      ∃ p,projectSubject listing engine scope canonicalId = .ok p ∧ BoundedBy engine scope p) := by
  constructor
  · exact project_unknown
  · intro registered
    have there : known engine canonicalId = true := Option.isSome_iff_ne_none.mpr registered
    obtain ⟨p,draws⟩ := @project_draws listing engine scope scope.maxDepth canonicalId .empty there
    exact ⟨p,congrArg Prod.fst draws.result,draws_bounded draws there⟩

end EvoCore.Projections
