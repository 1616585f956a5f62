import EvoCore.Buckets
import EvoCore.SubjectRegistry

namespace EvoCore.RelationGraph
open Tables Buckets
open SubjectRegistry (StewardError Reply)

-- The in-memory graph of crates/evo/src/relations.rs; of its wall-clock fields suppressed_at alone, in milliseconds.
structure RelationKey where
  sourceId : String
  predicate : String
  targetId : String
deriving DecidableEq,Repr

structure RelationClaim where
  claimant : String
  reason : Option String
deriving DecidableEq,Repr

structure SuppressionRecord where
  adminPlugin : String
  suppressedAt : Nat
  reason : Option String
deriving DecidableEq,Repr

structure RelationRecord where
  key : RelationKey
  claims : List RelationClaim
  suppression : Option SuppressionRecord
deriving DecidableEq,Repr

def RelationRecord.claimants (r : RelationRecord) : List String := r.claims.map RelationClaim.claimant

structure GraphInner where
  relations : Table RelationKey RelationRecord
  -- Targets by source and predicate, sources by target and predicate.
  forward : Index (String × String) String
  inverse : Index (String × String) String

def GraphInner.new : GraphInner := ⟨∅,∅,∅⟩

inductive AssertOutcome where
  | created
  | claimantAdded
  | noChange
deriving DecidableEq,Repr

inductive RelationRetractOutcome where
  | claimRemoved
  | relationForgotten
deriving DecidableEq,Repr

inductive ForcedRetractClaimOutcome where
  | claimRemoved
  | relationForgotten
  | notFound
deriving DecidableEq,Repr

inductive SuppressOutcome where
  | newlySuppressed
  | alreadySuppressed
  | reasonUpdated (oldReason newReason : Option String)
  | notFound
deriving DecidableEq,Repr

inductive UnsuppressOutcome where
  | unsuppressed
  | notSuppressed
  | notFound
deriving DecidableEq,Repr

structure EdgeRewrite where
  oldKey : RelationKey
  newKey : RelationKey
  claims : List RelationClaim
deriving DecidableEq,Repr

structure ClaimUnion where
  survivingKey : RelationKey
  absorbedClaimants : List RelationClaim
deriving DecidableEq,Repr

structure SuppressionCollapse where
  survivingKey : RelationKey
  demotedClaimants : List RelationClaim
  survivingSuppression : SuppressionRecord
deriving DecidableEq,Repr

structure RewriteSubjectOutcome where
  rewrites : List EdgeRewrite
  claimUnions : List ClaimUnion
  suppressionCollapses : List SuppressionCollapse
deriving DecidableEq,Repr

structure AmbiguousEdge where
  sourceSubject : String
  predicate : String
  otherEndpointId : String
  candidateNewIds : List String
deriving DecidableEq,Repr

structure SplitRelationsOutcome where
  ambiguous : List AmbiguousEdge
  rewrites : List EdgeRewrite
  claimUnions : List ClaimUnion
deriving DecidableEq,Repr

inductive SplitRelationStrategy where
  | toBoth
  | toFirst
  | explicit
deriving DecidableEq,Repr

structure ResolvedSplitAssignment where
  sourceId : String
  predicate : String
  targetId : String
  targetNewId : String
deriving DecidableEq,Repr

def indexEdge (g : GraphInner) (key : RelationKey) : GraphInner :=
  {g with
    forward := link g.forward (key.sourceId,key.predicate) key.targetId
    inverse := link g.inverse (key.targetId,key.predicate) key.sourceId}

def stripEdge (g : GraphInner) (key : RelationKey) : GraphInner :=
  {g with
    forward := unlink g.forward (key.sourceId,key.predicate) key.targetId
    inverse := unlink g.inverse (key.targetId,key.predicate) key.sourceId}

def store (g : GraphInner) (key : RelationKey) (record : RelationRecord) : GraphInner :=
  {g with relations := g.relations.insert key record}

def removeRelation (g : GraphInner) (key : RelationKey) : GraphInner :=
  stripEdge {g with relations := g.relations.erase key} key

def assert (g : GraphInner) (sourceId predicate targetId claimant : String) (reason : Option String) :
    Reply AssertOutcome × GraphInner :=
  if sourceId = "" ∨ predicate = "" ∨ targetId = "" then
    (.refused (.dispatch "assert: empty source, predicate, or target"),g)
  else
    let key : RelationKey := ⟨sourceId,predicate,targetId⟩
    match get g.relations key with
    | some record =>
      if record.claims.any (fun c => c.claimant == claimant) then (.ok .noChange,g)
      else (.ok .claimantAdded,store g key {record with claims := record.claims ++ [⟨claimant,reason⟩]})
    | none => (.ok .created,indexEdge (store g key ⟨key,[⟨claimant,reason⟩],none⟩) key)

def claimIdx (record : RelationRecord) (claimant : String) : Option Nat :=
  record.claims.findIdx? fun c => c.claimant = claimant

def dropClaim (g : GraphInner) (key : RelationKey) (record : RelationRecord) (idx : Nat) : GraphInner :=
  if record.claims.eraseIdx idx = [] then removeRelation g key
  else store g key {record with claims := record.claims.eraseIdx idx}

def tripleText (sourceId predicate targetId : String) : String :=
  "(" ++ sourceId ++ ", " ++ predicate ++ ", " ++ targetId ++ ")"

def retract (g : GraphInner) (sourceId predicate targetId claimant : String) :
    Reply RelationRetractOutcome × GraphInner :=
  let key : RelationKey := ⟨sourceId,predicate,targetId⟩
  match get g.relations key with
  | none => (.refused (.dispatch ("retract: relation " ++ tripleText sourceId predicate targetId ++ " does not exist")),g)
  | some record =>
    match claimIdx record claimant with
    | none => (.refused (.dispatch ("retract: plugin " ++ claimant ++ " did not claim " ++
        tripleText sourceId predicate targetId)),g)
    | some idx =>
      (.ok (if record.claims.eraseIdx idx = [] then .relationForgotten else .claimRemoved),dropClaim g key record idx)

def forcedRetractClaim (g : GraphInner) (sourceId predicate targetId targetPlugin : String) :
    Reply ForcedRetractClaimOutcome × GraphInner :=
  let key : RelationKey := ⟨sourceId,predicate,targetId⟩
  match get g.relations key with
  | none => (.ok .notFound,g)
  | some record =>
    match claimIdx record targetPlugin with
    | none => (.ok .notFound,g)
    | some idx =>
      (.ok (if record.claims.eraseIdx idx = [] then .relationForgotten else .claimRemoved),dropClaim g key record idx)

def suppress (g : GraphInner) (sourceId predicate targetId adminPlugin : String) (reason : Option String) (now : Nat) :
    Reply SuppressOutcome × GraphInner :=
  let key : RelationKey := ⟨sourceId,predicate,targetId⟩
  match get g.relations key with
  | none => (.ok .notFound,g)
  | some record =>
    match record.suppression with
    | some existing =>
      if existing.reason = reason then (.ok .alreadySuppressed,g)
      else (.ok (.reasonUpdated existing.reason reason),
        store g key {record with suppression := some {existing with reason := reason}})
    | none =>
      (.ok .newlySuppressed,stripEdge (store g key {record with suppression := some ⟨adminPlugin,now,reason⟩}) key)

def unsuppress (g : GraphInner) (sourceId predicate targetId : String) : Reply UnsuppressOutcome × GraphInner :=
  let key : RelationKey := ⟨sourceId,predicate,targetId⟩
  match get g.relations key with
  | none => (.ok .notFound,g)
  | some record =>
    match record.suppression with
    | none => (.ok .notSuppressed,g)
    | some _ => (.ok .unsuppressed,indexEdge (store g key {record with suppression := none}) key)

-- The order in which a hash map gives out its keys.
structure Iteration where
  order : List RelationKey → List RelationKey
  complete : ∀ keys,(order keys).Perm keys

def Iteration.listed : Iteration := ⟨id,fun _ => .refl _⟩

def RelationKey.touches (key : RelationKey) (subjectId : String) : Bool :=
  key.sourceId == subjectId || key.targetId == subjectId

def touching (g : GraphInner) (iteration : Iteration) (subjectId : String) : List RelationKey :=
  (iteration.order g.relations.keys).filter fun key => key.touches subjectId

def forgetAllTouching (g : GraphInner) (iteration : Iteration) (subjectId : String) : List RelationKey × GraphInner :=
  let toRemove := touching g iteration subjectId
  (toRemove,toRemove.foldl removeRelation g)

def unionClaims : List RelationClaim → List RelationClaim → List RelationClaim × List RelationClaim
  | existing,[] => (existing,[])
  | existing,claim::rest =>
    if existing.any (fun c => c.claimant == claim.claimant) then unionClaims existing rest
    else
      let (claims,gained) := unionClaims (existing ++ [claim]) rest
      (claims,claim::gained)

def RelationKey.substitute (key : RelationKey) (oldId newId : String) : RelationKey :=
  ⟨if key.sourceId = oldId then newId else key.sourceId,key.predicate,
    if key.targetId = oldId then newId else key.targetId⟩

def place (g : GraphInner) (newKey : RelationKey) (record : RelationRecord) : GraphInner :=
  let placed := store g newKey ⟨newKey,record.claims,record.suppression⟩
  if record.suppression = none then indexEdge placed newKey else placed

-- Moves a record that has left the map to its new key: into the record that is there
-- already, with the claims this record gained, or as a new one.
def settle (g : GraphInner) (newKey : RelationKey) (record : RelationRecord) :
    Option (RelationRecord × List RelationClaim) × GraphInner :=
  match get g.relations newKey with
  | some existing =>
    let union := unionClaims existing.claims record.claims
    (some (existing,union.2),store g newKey {existing with claims := union.1})
  | none => (none,place g newKey record)

def RewriteSubjectOutcome.collapsed (o : RewriteSubjectOutcome) (newKey : RelationKey) :
    Option (RelationRecord × List RelationClaim) → RewriteSubjectOutcome
  | none => o
  | some (existing,gained) =>
    match existing.suppression with
    | some suppression => {o with suppressionCollapses := o.suppressionCollapses ++ [⟨newKey,gained,suppression⟩]}
    | none => {o with claimUnions := o.claimUnions ++ [⟨newKey,gained⟩]}

-- None where a collected key is not in the map any more: the expect panics.
def rewriteEdges (oldId newId : String) : GraphInner → List RelationKey → RewriteSubjectOutcome →
    Option RewriteSubjectOutcome × GraphInner
  | g,[],outcome => (some outcome,g)
  | g,oldKey::rest,outcome =>
    match get g.relations oldKey with
    | none => (none,g)
    | some record =>
      let newKey := oldKey.substitute oldId newId
      let (met,settled) := settle (removeRelation g oldKey) newKey record
      let collapsed := outcome.collapsed newKey met
      rewriteEdges oldId newId settled rest
        {collapsed with rewrites := collapsed.rewrites ++ [⟨oldKey,newKey,record.claims⟩]}

def keyCollected : Reply α := .panicked "key just collected from the map"

def rewriteSubjectTo (g : GraphInner) (iteration : Iteration) (oldId newId : String) :
    Reply RewriteSubjectOutcome × GraphInner :=
  if oldId = "" ∨ newId = "" then (.refused (.dispatch "rewrite_subject_to: empty old_id or new_id"),g)
  else if oldId = newId then (.ok ⟨[],[],[]⟩,g)
  else
    match rewriteEdges oldId newId g (touching g iteration oldId) ⟨[],[],[]⟩ with
    | (none,after) => (keyCollected,after)
    | (some outcome,after) => (.ok outcome,after)

def assignment (explicitAssignments : List ResolvedSplitAssignment) (key : RelationKey) : Option ResolvedSplitAssignment :=
  explicitAssignments.find? fun a => a.sourceId = key.sourceId ∧ a.predicate = key.predicate ∧ a.targetId = key.targetId

-- The new ids an edge goes to, and the gap an explicit split leaves.
def assignedNewIds (sourceSubject : String) (newIds : List String) (strategy : SplitRelationStrategy)
    (explicitAssignments : List ResolvedSplitAssignment) (key : RelationKey) : List String × List AmbiguousEdge :=
  match strategy with
  | .toBoth => (newIds,[])
  | .toFirst => (newIds.take 1,[])
  | .explicit =>
    match assignment explicitAssignments key with
    | some a => ([a.targetNewId],[])
    | none =>
      let other := if key.sourceId = sourceSubject then key.targetId else key.sourceId
      (newIds,[⟨sourceSubject,key.predicate,other,newIds⟩])

def SplitRelationsOutcome.collapsed (o : SplitRelationsOutcome) (newKey : RelationKey) :
    Option (RelationRecord × List RelationClaim) → SplitRelationsOutcome
  | none => o
  | some (_,gained) => {o with claimUnions := o.claimUnions ++ [⟨newKey,gained⟩]}

def fanOut (sourceSubject : String) (oldKey : RelationKey) (record : RelationRecord) :
    GraphInner → List String → SplitRelationsOutcome → SplitRelationsOutcome × GraphInner
  | g,[],outcome => (outcome,g)
  | g,newId::rest,outcome =>
    let newKey := oldKey.substitute sourceSubject newId
    let (met,settled) := settle g newKey record
    let collapsed := outcome.collapsed newKey met
    fanOut sourceSubject oldKey record settled rest
      {collapsed with rewrites := collapsed.rewrites ++ [⟨oldKey,newKey,record.claims⟩]}

def splitEdges (sourceSubject : String) (newIds : List String) (strategy : SplitRelationStrategy)
    (explicitAssignments : List ResolvedSplitAssignment) :
    GraphInner → List RelationKey → SplitRelationsOutcome → Option SplitRelationsOutcome × GraphInner
  | g,[],outcome => (some outcome,g)
  | g,oldKey::rest,outcome =>
    match get g.relations oldKey with
    | none => (none,g)
    | some record =>
      let (ids,gaps) := assignedNewIds sourceSubject newIds strategy explicitAssignments oldKey
      let (next,after) := fanOut sourceSubject oldKey record (removeRelation g oldKey) ids
        {outcome with ambiguous := outcome.ambiguous ++ gaps}
      splitEdges sourceSubject newIds strategy explicitAssignments after rest next

def splitRelations (g : GraphInner) (iteration : Iteration) (sourceSubject : String) (newIds : List String)
    (strategy : SplitRelationStrategy) (explicitAssignments : List ResolvedSplitAssignment) :
    Reply SplitRelationsOutcome × GraphInner :=
  if sourceSubject = "" then (.refused (.dispatch "split_relations: empty source_subject"),g)
  else if newIds = [] then (.refused (.dispatch "split_relations: new_ids must be non-empty"),g)
  else
    match splitEdges sourceSubject newIds strategy explicitAssignments g (touching g iteration sourceSubject) ⟨[],[],[]⟩ with
    | (none,after) => (keyCollected,after)
    | (some outcome,after) => (.ok outcome,after)

def describeRelation (g : GraphInner) (sourceId predicate targetId : String) : Option RelationRecord :=
  get g.relations ⟨sourceId,predicate,targetId⟩

structure RelationGraph where
  inner : GraphInner
  poisoned : Bool

def RelationGraph.new : RelationGraph := ⟨.new,false⟩

def locked (r : RelationGraph) (body : GraphInner → Reply α × GraphInner) : Reply α × RelationGraph :=
  if r.poisoned then (.panicked "graph mutex poisoned",r)
  else
    let (reply,inner) := body r.inner
    (reply,⟨inner,reply.panics⟩)

inductive Call where
  | assert (sourceId predicate targetId claimant : String) (reason : Option String)
  | retract (sourceId predicate targetId claimant : String)
  | forcedRetractClaim (sourceId predicate targetId targetPlugin : String)
  | suppress (sourceId predicate targetId adminPlugin : String) (reason : Option String) (now : Nat)
  | unsuppress (sourceId predicate targetId : String)
  | forgetAllTouching (iteration : Iteration) (subjectId : String)
  | rewriteSubjectTo (iteration : Iteration) (oldId newId : String)
  | splitRelations (iteration : Iteration) (sourceSubject : String) (newIds : List String)
      (strategy : SplitRelationStrategy) (explicitAssignments : List ResolvedSplitAssignment)

def step (r : RelationGraph) : Call → RelationGraph
  | .assert s p t claimant reason => (locked r fun g => assert g s p t claimant reason).2
  | .retract s p t claimant => (locked r fun g => retract g s p t claimant).2
  | .forcedRetractClaim s p t target => (locked r fun g => forcedRetractClaim g s p t target).2
  | .suppress s p t admin reason now => (locked r fun g => suppress g s p t admin reason now).2
  | .unsuppress s p t => (locked r fun g => unsuppress g s p t).2
  | .forgetAllTouching iteration id =>
    (locked r fun g => (.ok (forgetAllTouching g iteration id).1,(forgetAllTouching g iteration id).2)).2
  | .rewriteSubjectTo iteration oldId newId => (locked r fun g => rewriteSubjectTo g iteration oldId newId).2
  | .splitRelations iteration source newIds strategy assignments =>
    (locked r fun g => splitRelations g iteration source newIds strategy assignments).2

end EvoCore.RelationGraph
