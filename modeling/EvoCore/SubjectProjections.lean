import EvoCore.DepthFirst
import EvoCore.GraphWalk
import EvoCore.SubjectAliases

namespace EvoCore.Projections
open Tables Buckets Runs
open DepthFirst (Visits)
open RelationGraph (GraphInner RelationKey describeRelation)
open SubjectRegistry (RegistryInner SubjectRecord AddressingRecord describe)
open GraphIndex (Agrees Visible)
open GraphWalk (WalkDirection)

inductive RelationDirection where
  | forward
  | inverse
deriving DecidableEq,Repr

inductive DegradedReasonKind where
  | danglingRelation
  | subjectInConflict
deriving DecidableEq,Repr

structure DegradedReason where
  kind : DegradedReasonKind
  detail : Option String
deriving DecidableEq,Repr

structure AddressingEntry where
  scheme : String
  value : String
  claimant : String
deriving DecidableEq,Repr

structure ProjectionScope where
  relationPredicates : List String
  direction : WalkDirection
  maxDepth : Nat
  maxVisits : Nat

structure RelatedSubject (π : Type) where
  predicate : String
  direction : RelationDirection
  targetId : String
  targetType : Option String
  relationClaimants : List String
  nested : Option π

-- Without composed_at; a state of null is none.
structure SubjectProjection where
  canonicalId : String
  subjectType : String
  addressings : List AddressingEntry
  related : List (RelatedSubject SubjectProjection)
  state : Option String
  shapeVersion : Nat
  claimants : List String
  degraded : Bool
  degradedReasons : List DegradedReason
  walkTruncated : Bool

inductive ProjectionError where
  | unknownSubject (canonicalId : String)
deriving DecidableEq,Repr

-- The order in which the neighbours of a subject along a predicate are listed.
structure Listing where
  order : String × String → Finset String → List String
  complete : ∀ bucket s,(order bucket s : Multiset String) = s.val

def ascending (s : Finset String) : List String :=
  Quot.liftOn s.val (fun ids => ids.insertionSort (· ≤ ·)) fun a b perm =>
    List.Perm.eq_of_pairwise' (List.pairwise_insertionSort _ _) (List.pairwise_insertionSort _ _)
      (((List.perm_insertionSort _ a).trans perm).trans (List.perm_insertionSort _ b).symm)

-- v.sort().
def Listing.sorted : Listing := ⟨fun _ => ascending,fun _ s => by
  obtain ⟨ids,once⟩ := s
  induction ids using Quotient.inductionOn with
  | h ids => exact Multiset.coe_eq_coe.mpr (List.perm_insertionSort _ ids)⟩

section Filing

open SubjectRegistry

-- Every record names the id that it is filed under.
def Filed (subjects : Table String SubjectRecord) : Prop := ∀ id record,get subjects id = some record → record.id = id

variable {subjects : Table String SubjectRecord} {inner : RegistryInner} {record : SubjectRecord} {id : String} {uuid : Nat → String}

theorem filed_insert (filed : Filed subjects) (own : record.id = id) : Filed (subjects.insert id record) := by
  intro other found there
  rw [get_insert] at there
  split at there
  next same =>
    cases Option.some.inj there
    rw [own,same]
  next apart => exact filed other found there

theorem filed_erase (filed : Filed subjects) : Filed (subjects.erase id) := by
  intro other found there
  rw [get_erase] at there
  split at there
  · cases there
  · exact filed other found there

theorem filed_modify {change : SubjectRecord → SubjectRecord} (filed : Filed subjects) (own : ∀ record,(change record).id = record.id) :
    Filed (modify subjects id change) := by
  intro other found there
  rw [get_modify] at there
  split at there
  next same =>
    obtain ⟨record,old,rfl⟩ := Option.map_eq_some_iff.mp there
    rw [own,filed id record old,same]
  next apart => exact filed other found there

theorem aliased_subjects {key : String} {entry : AliasRecord} {after : RegistryInner} (put : aliasesTryInsert inner key entry = some after) :
    after.subjects = inner.subjects := by
  unfold aliasesTryInsert at put
  split at put
  · cases put
  · cases Option.some.inj put
    rfl

theorem forgotten_filed (actor : String) (reason : Option String) (filed : Filed inner.subjects) :
    Filed (forgotten inner id actor reason).subjects := by
  unfold forgotten
  dsimp only
  cases put : aliasesTryInsert {inner with subjects := inner.subjects.erase id,states := inner.states.erase id} id
      ⟨id,[],.tombstone,actor,reason⟩ with
  | none => exact filed_erase filed
  | some after =>
    rw [Option.getD_some,aliased_subjects put]
    exact filed_erase filed

theorem announce_filed (announcement : SubjectAnnouncement) (claimant : String) (filed : Filed inner.subjects) :
    Filed (announce uuid inner announcement claimant).2.subjects := by
  have captured : ∀ (inner : RegistryInner) outcome state,(captureState inner outcome state).subjects = inner.subjects := by
    intro inner outcome state
    unfold captureState
    split <;> rfl
  have outcome : ∀ inner : RegistryInner,Filed inner.subjects → Filed (announceOutcome uuid inner announcement claimant).2.subjects := by
    intro inner filed
    unfold announceOutcome
    split
    · exact filed_insert filed rfl
    · split
      · exact filed
      · exact filed_modify filed fun _ => rfl
    · exact filed
  unfold announce
  split
  · exact filed
  · split
    · exact filed
    · dsimp only
      rw [captured]
      exact outcome _ filed

theorem released_filed {idx : Nat} {addressing : ExternalAddressing} (filed : Filed inner.subjects) (there : get inner.subjects id = some record) :
    Filed (released inner id record idx addressing).subjects :=
  filed_insert filed (filed id record there)

theorem retract_filed {addressing : ExternalAddressing} {claimant : String} {reason : Option String} (filed : Filed inner.subjects) :
    Filed (retract inner addressing claimant reason).2.subjects := by
  unfold retract
  split
  · exact filed
  · split
    · exact filed
    · rename_i there
      split
      · exact filed
      · dsimp only
        split
        · exact forgotten_filed _ _ (released_filed filed there)
        · exact released_filed filed there

theorem forcedRetract_filed {addressing : ExternalAddressing} {target admin : String} {reason : Option String} (filed : Filed inner.subjects) :
    Filed (forcedRetractAddressing inner addressing target admin reason).2.subjects := by
  unfold forcedRetractAddressing
  split
  · exact filed
  · split
    · exact filed
    · rename_i there
      split
      · exact filed
      · dsimp only
        split
        · exact forgotten_filed _ _ (released_filed filed there)
        · exact released_filed filed there

theorem mergeAliases_filed {sourceA sourceB admin : String} {reason : Option String} (filed : Filed inner.subjects) :
    Filed (mergeAliases uuid inner sourceA sourceB admin reason).2.subjects := by
  have moved : ∀ recordA recordB,Filed (merged uuid inner sourceA sourceB recordA recordB).subjects :=
    fun recordA recordB => filed_insert (filed_erase (filed_erase filed)) rfl
  unfold mergeAliases
  split
  · exact filed
  · split
    · exact filed
    · split
      · exact filed
      · split
        · exact filed
        · dsimp only
          split
          · exact moved _ _
          · rename_i first put
            split
            · rw [aliased_subjects put]
              exact moved _ _
            · rename_i second again
              dsimp only
              rw [aliased_subjects again,aliased_subjects put]
              exact moved _ _

theorem placeGroups_filed {source : SubjectRecord} {sourceId : String} {groups : List (List ExternalAddressing × String)}
    {done : List AddressingTransfer} (filed : Filed inner.subjects) : Filed (placeGroups source sourceId inner groups done).2.subjects := by
  induction groups generalizing inner done with
  | nil => exact filed
  | cons group rest ih =>
    rw [placeGroups]
    split
    · exact filed
    · exact ih (filed_insert filed rfl)

theorem splitSubject_filed {sourceId admin : String} {groups : List (List ExternalAddressing)} {reason : Option String}
    (filed : Filed inner.subjects) : Filed (splitSubject uuid inner sourceId groups admin reason).2.subjects := by
  unfold splitSubject
  split
  · exact filed
  · rename_i source there
    split
    · exact filed
    · split
      · exact filed
      · split
        · exact filed
        · split
          · exact filed
          · dsimp only
            have placed := @placeGroups_filed {inner with drawn := inner.drawn+groups.length} source sourceId
              (groups.zip (newIds uuid inner groups.length)) [] filed
            split
            · rename_i after shape
              rw [shape] at placed
              exact placed
            · rename_i moves after shape
              rw [shape] at placed
              split
              · exact filed_erase placed
              · rename_i recorded put
                dsimp only
                rw [aliased_subjects put]
                exact filed_erase placed

theorem registry_filed (uuid : Nat → String) (calls : List Call) : Filed (run (step uuid) .new calls).inner.subjects := by
  have kept : ∀ {α : Type} (r : SubjectRegistry) (body : RegistryInner → Reply α × RegistryInner),Filed r.inner.subjects →
      Filed (body r.inner).2.subjects → Filed (locked r body).2.inner.subjects := by
    intro α r body before after
    unfold locked
    split
    · exact before
    · exact after
  refine @run_keeps _ _ _ (fun r : SubjectRegistry => Filed r.inner.subjects) _ _ (fun r call filed => ?_) ?_
  · cases call with
    | announce announcement claimant => exact kept r _ filed (announce_filed announcement claimant filed)
    | updateState id state =>
      refine kept r _ filed ?_
      unfold updateState
      split
      · exact filed
      · split <;> exact filed
    | retract addressing claimant reason => exact kept r _ filed (retract_filed filed)
    | forcedRetractAddressing addressing target admin reason => exact kept r _ filed (forcedRetract_filed filed)
    | mergeAliases sourceA sourceB admin reason => exact kept r _ filed (mergeAliases_filed filed)
    | splitSubject sourceId groups admin reason => exact kept r _ filed (splitSubject_filed filed)
  · intro id record absent
    simp [SubjectRegistry.new,RegistryInner.new] at absent

end Filing

-- Both stores, and the conflict index if one is attached. Records are filed under their ids, and the
-- adjacency of the graph agrees with its relations.
structure ProjectionEngine where
  registry : RegistryInner
  graph : GraphInner
  conflicts : Option (Table String (Finset Int))
  filed : Filed registry.subjects
  agrees : Agrees graph

def ProjectionEngine.after (uuid : Nat → String) (calls : List SubjectRegistry.Call) (relations : List RelationGraph.Call)
    (conflicts : Option (Table String (Finset Int))) : ProjectionEngine :=
  ⟨(run (SubjectRegistry.step uuid) .new calls).inner,(run RelationGraph.step .new relations).inner,conflicts,
    registry_filed uuid calls,(GraphIndex.graph_index_agrees relations).2⟩

def conflictsFor (index : Table String (Finset Int)) (canonicalId : String) : List Int := ((get index canonicalId).getD ∅).sort (· ≤ ·)

def conflictReasons (engine : ProjectionEngine) (canonicalId : String) : List DegradedReason :=
  match engine.conflicts with
  | none => []
  | some index => (conflictsFor index canonicalId).map fun conflictId => ⟨.subjectInConflict,some ("conflict_id=" ++ toString conflictId)⟩

def deduplicatedClaimants (addressings : List AddressingEntry) (related : List (RelatedSubject SubjectProjection)) : List String :=
  (addressings.map AddressingEntry.claimant ++ related.flatMap RelatedSubject.relationClaimants).eraseDups

section
variable (listing : Listing) (engine : ProjectionEngine) (scope : ProjectionScope)

def neighbours (subjectId predicate : String) (direction : WalkDirection) : List String :=
  let targets := if direction = .forward ∨ direction = .both then (get engine.graph.forward (subjectId,predicate)).getD ∅ else ∅
  let sources := if direction = .inverse ∨ direction = .both then (get engine.graph.inverse (subjectId,predicate)).getD ∅ else ∅
  listing.order (subjectId,predicate) (targets ∪ sources)

structure Composing where
  visits : Visits String
  related : List (RelatedSubject SubjectProjection)
  degradedReasons : List DegradedReason

-- project_recursive at the depth below.
variable (recurse : String → Visits String → Except ProjectionError SubjectProjection × Visits String)

def maybeNest (remainingDepth : Nat) (neighbourId : String) (neighbourType : Option String) (v : Visits String) :
    Option SubjectProjection × Visits String :=
  if remainingDepth ≤ 1 ∨ neighbourType.isNone ∨ neighbourId ∈ v.visited then (none,v)
  else if scope.maxVisits ≤ v.visited.card then (none,{v with truncated := true})
  else ((recurse neighbourId v).1.toOption,(recurse neighbourId v).2)

-- An entry for the neighbour at the other end of the relation, with the reason where it is missing.
def buildEntry (remainingDepth : Nat) (direction : RelationDirection) (key : RelationKey) (neighbourId missing : String) (c : Composing) :
    Composing :=
  let neighbourType := (describe engine.registry neighbourId).map SubjectRecord.subjectType
  let reasons := if neighbourType.isNone then [⟨.danglingRelation,some missing⟩] else []
  let claimants := ((describeRelation engine.graph key.sourceId key.predicate key.targetId).map fun rel => rel.claimants).getD []
  let nest := maybeNest scope recurse remainingDepth neighbourId neighbourType c.visits
  ⟨nest.2,c.related ++ [⟨key.predicate,direction,neighbourId,neighbourType,claimants,nest.1⟩],c.degradedReasons ++ reasons⟩

def buildRelated (remainingDepth : Nat) (predicate sourceId : String) (c : Composing) (targetId : String) : Composing :=
  buildEntry engine scope recurse remainingDepth .forward ⟨sourceId,predicate,targetId⟩ targetId
    (predicate ++ " -> " ++ targetId ++ ": target not in registry") c

def buildRelatedInverse (remainingDepth : Nat) (predicate subjectId : String) (c : Composing) (sourceId : String) : Composing :=
  buildEntry engine scope recurse remainingDepth .inverse ⟨sourceId,predicate,subjectId⟩ sourceId
    (predicate ++ " <- " ++ sourceId ++ ": source not in registry") c

def followPredicate (remainingDepth : Nat) (canonicalId : String) (c : Composing) (predicate : String) : Composing :=
  let ahead :=
    if scope.direction = .forward ∨ scope.direction = .both then
      (neighbours listing engine canonicalId predicate .forward).foldl
        (buildRelated engine scope recurse remainingDepth predicate canonicalId) c
    else c
  if scope.direction = .inverse ∨ scope.direction = .both then
    (neighbours listing engine canonicalId predicate .inverse).foldl
      (buildRelatedInverse engine scope recurse remainingDepth predicate canonicalId) ahead
  else ahead

def entered (record : SubjectRecord) (v : Visits String) : Composing := ⟨v.enter record.id,[],conflictReasons engine record.id⟩

def composed (record : SubjectRecord) (c : Composing) : SubjectProjection :=
  let addressings := record.addressings.map fun ar => ⟨ar.addressing.scheme,ar.addressing.value,ar.claimant⟩
  {canonicalId := record.id,
   subjectType := record.subjectType,
   addressings,
   related := c.related,
   state := get engine.registry.states record.id,
   shapeVersion := 1,
   claimants := deduplicatedClaimants addressings c.related,
   degraded := !c.degradedReasons.isEmpty,
   degradedReasons := c.degradedReasons,
   walkTruncated := c.visits.truncated}

end

def projectRecursive (listing : Listing) (engine : ProjectionEngine) (scope : ProjectionScope) :
    Nat → String → Visits String → Except ProjectionError SubjectProjection × Visits String
  | 0,canonicalId,v =>
    match describe engine.registry canonicalId with
    | none => (.error (.unknownSubject canonicalId),v)
    | some record =>
      let c := entered engine record v
      (.ok (composed engine record c),c.visits)
  | remainingDepth+1,canonicalId,v =>
    match describe engine.registry canonicalId with
    | none => (.error (.unknownSubject canonicalId),v)
    | some record =>
      let c := scope.relationPredicates.foldl
        (followPredicate listing engine scope (projectRecursive listing engine scope remainingDepth) (remainingDepth+1) canonicalId)
        (entered engine record v)
      (.ok (composed engine record c),c.visits)

def projectSubject (listing : Listing) (engine : ProjectionEngine) (scope : ProjectionScope) (canonicalId : String) :
    Except ProjectionError SubjectProjection :=
  (projectRecursive listing engine scope scope.maxDepth canonicalId .empty).1

-- Every projection in the tree, in the order in which it was begun, with the depth it had left.
mutual
def expansions : Nat → SubjectProjection → List (Nat × SubjectProjection)
  | n,⟨id,type,addressings,related,state,version,claimants,degraded,reasons,truncated⟩ =>
    (n,⟨id,type,addressings,related,state,version,claimants,degraded,reasons,truncated⟩)::entriesBelow (n-1) related
def entriesBelow : Nat → List (RelatedSubject SubjectProjection) → List (Nat × SubjectProjection)
  | _,[] => []
  | n,entry::rest => entryBelow n entry ++ entriesBelow n rest
def entryBelow : Nat → RelatedSubject SubjectProjection → List (Nat × SubjectProjection)
  | n,⟨_,_,_,_,_,nested⟩ => nestedBelow n nested
def nestedBelow : Nat → Option SubjectProjection → List (Nat × SubjectProjection)
  | _,none => []
  | n,some p => expansions n p
end

def expanded (scope : ProjectionScope) (p : SubjectProjection) : List String :=
  (expansions scope.maxDepth p).map fun e => e.2.canonicalId

def known (engine : ProjectionEngine) (id : String) : Bool := (describe engine.registry id).isSome

-- A registered subject without a projection of its own, left as a reference where there was depth for more.
def LeftBare (engine : ProjectionEngine) (scope : ProjectionScope) (p : SubjectProjection) : Prop :=
  ∃ e ∈ expansions scope.maxDepth p,2 ≤ e.1 ∧ ∃ entry ∈ e.2.related,
    entry.nested.isNone = true ∧ known engine entry.targetId = true ∧ entry.targetId ∉ expanded scope p

-- Each subject at most once, no more than the cap allows beyond the root, and truncated exactly where
-- the cap has left one out.
structure BoundedBy (engine : ProjectionEngine) (scope : ProjectionScope) (p : SubjectProjection) : Prop where
  once : (expanded scope p).Nodup
  registered : ∀ id ∈ expanded scope p,known engine id = true
  capped : (expanded scope p).length ≤ max 1 scope.maxVisits
  finite : (expanded scope p).length ≤ engine.registry.subjects.keys.length
  truncated : p.walkTruncated = true ↔ LeftBare engine scope p
  full : LeftBare engine scope p → scope.maxVisits ≤ (expanded scope p).length

end EvoCore.Projections
