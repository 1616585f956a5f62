import EvoCore.ProjectionWalks

namespace EvoCore.Projections
open Tables Buckets
open BreadthFirst (Reaches Within)
open DepthFirst (Visits Secured Simple visit)
open SubjectRegistry (describe)
open RelationGraph (RelationKey)
open GraphIndex (Visible)
open GraphWalk (WalkDirection)

def Hop (engine : ProjectionEngine) (scope : ProjectionScope) (x y : String) : Prop := ∃ predicate ∈ scope.relationPredicates,
  scope.direction ≠ .inverse ∧ Visible engine.graph ⟨x,predicate,y⟩ ∨ scope.direction ≠ .forward ∧ Visible engine.graph ⟨y,predicate,x⟩

-- Every id that occurs, of a projection or of a related entry.
def mentioned (scope : ProjectionScope) (p : SubjectProjection) : List String :=
  (expansions scope.maxDepth p).flatMap fun e => e.2.canonicalId::e.2.related.map RelatedSubject.targetId

def Attached (engine : ProjectionEngine) : Prop := ∀ key,Visible engine.graph key →
  known engine key.sourceId = true ∧ known engine key.targetId = true

structure Covers (engine : ProjectionEngine) (scope : ProjectionScope) (root : String) (p : SubjectProjection) : Prop where
  mentions : ∀ id,id ∈ mentioned scope p ↔ Within (Hop engine scope) root scope.maxDepth id
  expands : ∀ id,Within (Hop engine scope) root (scope.maxDepth-1) id → (expanded scope p).count id = 1

variable {listing : Listing} {engine : ProjectionEngine} {scope : ProjectionScope} {root x y id predicate : String} {p : SubjectProjection}

theorem mem_order (bucket : String × String) (s : Finset String) : id ∈ listing.order bucket s ↔ id ∈ s := by
  rw [← Multiset.mem_coe,listing.complete,Finset.mem_val]

theorem mem_bucket (index : Index (String × String) String) (bucket : String × String) :
    id ∈ (get index bucket).getD ∅ ↔ Linked index bucket id := by
  unfold Linked
  cases get index bucket <;> simp

theorem mem_forward : y ∈ neighbours listing engine x predicate .forward ↔ Visible engine.graph ⟨x,predicate,y⟩ := by
  rw [neighbours,mem_order]
  simp [mem_bucket,engine.agrees.forward]

theorem mem_inverse : y ∈ neighbours listing engine x predicate .inverse ↔ Visible engine.graph ⟨y,predicate,x⟩ := by
  rw [neighbours,mem_order]
  simp [mem_bucket,engine.agrees.inverse]

theorem mem_nexts : y ∈ nexts listing engine scope x ↔ Hop engine scope x y := by
  simp only [nexts,List.mem_flatMap,ends,List.mem_append,Hop]
  refine exists_congr fun predicate => and_congr_right fun _ => ?_
  cases scope.direction <;> simp [mem_forward,mem_inverse]

theorem hop_nexts : (fun a b => b ∈ nexts listing engine scope a) = Hop engine scope := by
  funext a b
  exact propext mem_nexts

theorem attached_known (attached : Attached engine) (hop : Hop engine scope x y) : known engine y = true := by
  obtain ⟨predicate,_,⟨_,visible⟩ | ⟨_,visible⟩⟩ := hop
  · exact (attached _ visible).2
  · exact (attached _ visible).1

theorem mentioned_within (draws : Draws listing engine scope scope.maxDepth root .empty p) (there : known engine root = true)
    (member : id ∈ mentioned scope p) : Within (Hop engine scope) root scope.maxDepth id := by
  obtain ⟨e,drawn,inside⟩ := List.mem_flatMap.mp member
  obtain ⟨start,alone,route⟩ := (draws.explored there).routes (label e) (List.mem_map_of_mem drawn)
  rw [List.mem_singleton.mp alone] at route
  obtain ⟨k,sum,reaches⟩ := route.reaches
  rw [hop_nexts] at reaches
  have sum : k + e.1 = scope.maxDepth := sum
  rcases List.mem_cons.mp inside with rfl | listed
  · exact ⟨k,by omega,reaches⟩
  · rw [(draws.levels e drawn).targets] at listed
    split at listed
    · cases listed
    · exact ⟨k+1,by omega,_,reaches,mem_nexts.mp listed⟩

theorem expanded_covers (draws : Draws listing engine scope scope.maxDepth root .empty p) (there : known engine root = true)
    (all_ : ∀ id,Within (Hop engine scope) root (scope.maxDepth-1) id → id ∈ expanded scope p) : Covers engine scope root p := by
  have explored := draws.explored there
  constructor
  case mentions =>
    refine fun id => ⟨mentioned_within draws there,?_⟩
    rintro ⟨k,bound,reaches⟩
    cases k with
    | zero =>
      have origin : id = root := reaches
      rw [origin]
      refine List.mem_flatMap.mpr ⟨(scope.maxDepth,p),?_,?_⟩
      · rw [expansions_eq]
        exact List.mem_cons_self
      · rw [draws.itself]
        exact List.mem_cons_self
    | succ k =>
      obtain ⟨w,near,hop⟩ := reaches
      obtain ⟨e,drawn,rfl⟩ := List.mem_map.mp (all_ w ⟨k,by omega,near⟩)
      have deep : e.1 ≠ 0 := explored.alive (by omega) (label e) (List.mem_map_of_mem drawn)
      have targets := (draws.levels e drawn).targets
      rw [if_neg deep] at targets
      refine List.mem_flatMap.mpr ⟨e,drawn,List.mem_cons_of_mem _ ?_⟩
      rw [targets]
      exact mem_nexts.mpr hop
  case expands =>
    intro id near
    refine List.count_eq_one_of_mem ?_ (all_ id near)
    rw [expanded_found]
    exact explored.once

theorem simple_back {edge : String → String → Prop} {path : List String} (simple : Simple edge root root path) : path.length = 1 := by
  obtain ⟨rest,rfl⟩ := List.head?_eq_some_iff.mp simple.starts
  cases rest with
  | nil => rfl
  | cons next more =>
    have last := simple.ends
    rw [List.getLast?_cons_cons] at last
    exact absurd (List.mem_of_getLast? last) (List.nodup_cons.mp simple.once).1

theorem shallow_secured (shallow : scope.maxDepth ≤ 2) (near : Within (Hop engine scope) root (scope.maxDepth-1) id) :
    Secured (Hop engine scope) root scope.maxDepth id := by
  obtain ⟨k,bound,reaches⟩ := near
  cases k with
  | zero =>
    have origin : id = root := reaches
    rw [origin]
    exact .root
  | succ k =>
    obtain ⟨w,first,hop⟩ := reaches
    have one : k = 0 := by omega
    subst one
    have origin : w = root := first
    rw [origin] at hop
    refine .next .root hop fun path simple length => ?_
    have back := simple_back simple
    omega

-- Over every registry and graph without dangling edges, whatever order neighbours are listed in: where the
-- cap is not met and no subject can be met too late on every way to it, the projection covers the
-- neighbourhood.
theorem projection_covers (listing : Listing) (engine : ProjectionEngine) (scope : ProjectionScope) (root : String) (p : SubjectProjection)
    (attached : Attached engine) (projected : projectSubject listing engine scope root = .ok p) (uncapped : p.walkTruncated = false)
    (secured : ∀ id,Within (Hop engine scope) root (scope.maxDepth-1) id → Secured (Hop engine scope) root scope.maxDepth id) :
    Covers engine scope root p := by
  have there : known engine root = true := by
    by_contra unknown
    have absent : describe engine.registry root = none := by
      rwa [known,Bool.not_eq_true,Option.isSome_eq_false_iff,Option.isNone_iff_eq_none] at unknown
    rw [project_unknown absent] at projected
    cases projected
  obtain ⟨q,draws⟩ := @project_draws listing engine scope scope.maxDepth root .empty there
  have same : q = p := Except.ok.inj ((congrArg Prod.fst draws.result).symm.trans projected)
  subst same
  have explored := draws.explored there
  have uncut : (visit (nexts listing engine scope) (known engine) scope.maxVisits scope.maxDepth root .empty).2.truncated = false :=
    draws.truncated.symm.trans uncapped
  refine expanded_covers draws there fun id near => ?_
  by_cases shallow : scope.maxDepth = 0
  · obtain ⟨k,bound,reaches⟩ := near
    have zero : k = 0 := by omega
    subst zero
    have origin : id = root := reaches
    rw [origin]
    exact root_expanded draws
  · rw [expanded_found]
    refine DepthFirst.secured_found explored uncut shallow there (fun a b next => attached_known attached (mem_nexts.mp next)) ?_
    rw [hop_nexts]
    exact secured id near

section Albums

open SubjectRegistry (ExternalAddressing)

-- Five subjects in the order of their ids, with relations between them.
def related (edges : List (String × String)) : ProjectionEngine :=
  ProjectionEngine.after SubjectAliases.strokes
    (["a","b","c","d","e"].map fun value => .announce ⟨"track",[⟨"mpd",value⟩],[],none⟩ "mpd")
    (edges.map fun edge => .assert edge.1 "next" edge.2 "mpd" none) none

def three : ProjectionScope := ⟨["next"],.forward,3,1000⟩

-- u leads to uu and uuu, uu to uuu as well, and from uuu it is two hops to uuuuu.
def shortcut : List (String × String) := [("u","uu"),("u","uuu"),("uu","uuu"),("uuu","uuuu"),("uuuu","uuuuu")]

theorem visible_iff {key : RelationKey} : Visible engine.graph key ↔ (get engine.graph.relations key).any (fun r => r.suppression.isNone) = true := by
  unfold Visible
  cases get engine.graph.relations key <;> simp

theorem entries_attached (all_ : ∀ entry ∈ engine.graph.relations.entries,
    known engine entry.1.sourceId = true ∧ known engine entry.1.targetId = true) : Attached engine := by
  intro key visible
  obtain ⟨record,there,_⟩ := visible
  exact all_ _ ((entries_get _).mpr there)

-- On a cyclic graph, at depth two.
theorem cycle_covered : ∃ p,projectSubject .sorted (related (("uuu","u")::shortcut)) {three with maxDepth := 2} "u" = .ok p ∧
    expanded {three with maxDepth := 2} p = ["u","uu","uuu"] ∧ Covers (related (("uuu","u")::shortcut)) {three with maxDepth := 2} "u" p := by
  cases projected : projectSubject .sorted (related (("uuu","u")::shortcut)) {three with maxDepth := 2} "u" with
  | error e =>
    have fine : (projectSubject .sorted (related (("uuu","u")::shortcut)) {three with maxDepth := 2} "u").toOption.isSome = true := by decide
    rw [projected] at fine
    cases fine
  | ok p =>
    have found : (projectSubject .sorted (related (("uuu","u")::shortcut)) {three with maxDepth := 2} "u").toOption.map
        (fun p => (expanded {three with maxDepth := 2} p,p.walkTruncated)) = some (["u","uu","uuu"],false) := by decide
    rw [projected] at found
    have parts := Option.some.inj found
    exact ⟨p,rfl,congrArg Prod.fst parts,projection_covers .sorted _ _ "u" p (entries_attached (by decide)) projected (congrArg Prod.snd parts)
      fun id near => @shallow_secured _ {three with maxDepth := 2} _ _ le_rfl near⟩

-- uuu is met first by way of uu, with no depth left to expand what it leads to in its turn.
theorem shortcut_uncovered : Attached (related shortcut) ∧ ∃ p,
    projectSubject .sorted (related shortcut) three "u" = .ok p ∧ p.walkTruncated = false ∧
    Within (Hop (related shortcut) three) "u" 2 "uuuu" ∧ "uuuu" ∉ expanded three p ∧
    Within (Hop (related shortcut) three) "u" 3 "uuuuu" ∧ "uuuuu" ∉ mentioned three p ∧ ¬ Covers (related shortcut) three "u" p := by
  have hop : ∀ x y,(get (related shortcut).graph.relations ⟨x,"next",y⟩).any (fun r => r.suppression.isNone) = true →
      Hop (related shortcut) three x y := by
    intro x y there
    exact ⟨"next",List.mem_cons_self,.inl ⟨WalkDirection.noConfusion,visible_iff.mpr there⟩⟩
  have two : Reaches (Hop (related shortcut) three) "u" 2 "uuuu" := ⟨"uuu",⟨"u",rfl,hop _ _ (by decide)⟩,hop _ _ (by decide)⟩
  have near : Within (Hop (related shortcut) three) "u" 2 "uuuu" := ⟨2,le_rfl,two⟩
  refine ⟨entries_attached (by decide),?_⟩
  cases projected : projectSubject .sorted (related shortcut) three "u" with
  | error e =>
    have fine : (projectSubject .sorted (related shortcut) three "u").toOption.isSome = true := by decide
    rw [projected] at fine
    cases fine
  | ok p =>
    have found : (projectSubject .sorted (related shortcut) three "u").toOption.map
        (fun p => (expanded three p,mentioned three p,p.walkTruncated)) =
        some (["u","uu","uuu"],["u","uu","uuu","uu","uuu","uuu","uuuu"],false) := by decide
    rw [projected] at found
    have parts := Option.some.inj found
    have expands : expanded three p = ["u","uu","uuu"] := congrArg Prod.fst parts
    have mentions : mentioned three p = ["u","uu","uuu","uu","uuu","uuu","uuuu"] := congrArg (fun t => t.2.1) parts
    have missing : "uuuu" ∉ expanded three p := by
      rw [expands]
      decide
    refine ⟨p,rfl,congrArg (fun t => t.2.2) parts,near,missing,⟨3,le_rfl,"uuuu",two,hop _ _ (by decide)⟩,?_,fun covers => ?_⟩
    · rw [mentions]
      decide
    · have counted := covers.expands "uuuu" near
      rw [List.count_eq_zero_of_not_mem missing] at counted
      cases counted

end Albums

end EvoCore.Projections
