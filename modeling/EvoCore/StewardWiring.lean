import EvoCore.StewardStore

namespace EvoCore.StewardWiring
open Tables SubjectRegistry StewardStore
open RelationGraph (RelationGraph RelationKey Iteration SplitRelationStrategy ResolvedSplitAssignment)

-- The announcers and administrators of crates/evo/src/context.rs: each verb changes the
-- registry or the graph and mirrors the change into the store. Happenings, the admin
-- ledger, the conflict index and subject_states are left out, and every store write
-- succeeds.
inductive TypeConstraint where
  | single (name : String)
  | multiple (names : List String)
deriving DecidableEq,Repr

def TypeConstraint.accepts (subjectType : String) : TypeConstraint → Bool
  | .single name => name == "*" || name == subjectType
  | .multiple names => names.any (· == subjectType)

structure RelationPredicate where
  predicate : String
  sourceType : TypeConstraint
  targetType : TypeConstraint
deriving DecidableEq,Repr

structure Catalogue where
  subjects : List String
  relations : List RelationPredicate
deriving DecidableEq,Repr

def Catalogue.findSubjectType (c : Catalogue) (name : String) : Option String := c.subjects.find? (· == name)
def Catalogue.findPredicate (c : Catalogue) (name : String) : Option RelationPredicate :=
  c.relations.find? fun p => p.predicate == name

def subjectStateMaxBytes : Nat := 512*1024

structure Steward where
  registry : SubjectRegistry
  graph : RelationGraph
  store : Store

def Steward.new : Steward := ⟨.new,.new,.new⟩

structure ExplicitRelationAssignment where
  source : ExternalAddressing
  predicate : String
  target : ExternalAddressing
  targetNewIdIndex : Nat
deriving DecidableEq,Repr

section
variable (uuid : Nat → String) (catalogue : Catalogue)

def oversized : Option String → Bool
  | none => false
  | some payload => subjectStateMaxBytes < payload.utf8ByteSize

def announce (st : Steward) (plugin : String) (announcement : SubjectAnnouncement) : Steward :=
  if oversized announcement.state then st
  else if catalogue.findSubjectType announcement.subjectType = none then st
  else
    match locked st.registry fun inner => SubjectRegistry.announce uuid inner announcement plugin with
    | (.ok (.created id),registry) | (.ok (.updated id),registry) | (.ok (.noChange id),registry) =>
      {st with registry,store := recordSubjectAnnounce st.store id announcement.subjectType announcement.addressings plugin}
    | (_,registry) => {st with registry}

-- forget_all_touching and one relation forget for each removed edge.
def cascade (st : Steward) (iteration : Iteration) (id : String) : Steward :=
  match RelationGraph.locked st.graph fun g =>
      (.ok (RelationGraph.forgetAllTouching g iteration id).1,(RelationGraph.forgetAllTouching g iteration id).2) with
  | (.ok removed,graph) => {st with graph,store := removed.foldl recordRelationForget st.store}
  | (_,graph) => {st with graph}

def retract (st : Steward) (iteration : Iteration) (plugin : String) (addressing : ExternalAddressing)
    (reason : Option String) : Steward :=
  let preRetract := resolve st.registry.inner addressing
  match locked st.registry fun inner => SubjectRegistry.retract inner addressing plugin reason with
  | (.ok .addressingRemoved,registry) =>
    match preRetract with
    | none => {st with registry}
    | some id => {st with registry,store := recordSubjectRetract st.store id addressing}
  | (.ok (.subjectForgotten id _),registry) =>
    cascade {st with registry,store := recordSubjectForget st.store id plugin none} iteration id
  | (_,registry) => {st with registry}

-- Whether the router knows the target plugin comes with the request.
def forcedRetractAddressing (st : Steward) (iteration : Iteration) (admin target : String) (admitted : Bool)
    (addressing : ExternalAddressing) (reason : Option String) : Steward :=
  if ¬admitted then st
  else if target = admin then st
  else
    match locked st.registry fun inner => SubjectRegistry.forcedRetractAddressing inner addressing target admin reason with
    | (.ok (.addressingRemoved id),registry) => {st with registry,store := recordSubjectRetract st.store id addressing}
    | (.ok (.subjectForgotten id _),registry) =>
      cascade {st with registry,store := recordSubjectForget st.store id admin reason} iteration id
    | (_,registry) => {st with registry}

def rewrite (graph : RelationGraph) (iteration : Iteration) (oldId newId : String) :
    Reply RelationGraph.RewriteSubjectOutcome × RelationGraph :=
  RelationGraph.locked graph fun g => RelationGraph.rewriteSubjectTo g iteration oldId newId

-- The edges are rewritten in memory only.
def rewriteBoth (st : Steward) (first second : Iteration) (sourceA sourceB newId : String) : Steward :=
  match rewrite st.graph first sourceA newId with
  | (.ok _,graph) => {st with graph := (rewrite graph second sourceB newId).2}
  | (_,graph) => {st with graph}

def merge (st : Steward) (first second : Iteration) (admin : String) (targetA targetB : ExternalAddressing)
    (reason : Option String) : Steward :=
  match resolve st.registry.inner targetA,resolve st.registry.inner targetB with
  | some sourceA,some sourceB =>
    if sourceA = sourceB then st
    else
      let types := (describe st.registry.inner sourceA).bind fun a =>
        (describe st.registry.inner sourceB).map fun b => (a.subjectType,b.subjectType)
      if types.any fun pair => pair.1 ≠ pair.2 then st
      else
        match locked st.registry fun inner => mergeAliases uuid inner sourceA sourceB admin reason with
        | (.ok outcome,registry) =>
          let store :=
            match types with
            | some pair => recordSubjectMerge st.store sourceA sourceB outcome.newId pair.1 admin reason
            | none => st.store
          rewriteBoth {st with registry,store} first second sourceA sourceB outcome.newId
        | (_,registry) => {st with registry}
  | _,_ => st

-- Assignments whose addressings do not resolve are dropped.
def preResolved (inner : RegistryInner) (assignments : List ExplicitRelationAssignment) :
    List (Nat × String × String × String) :=
  assignments.filterMap fun a =>
    (resolve inner a.source).bind fun s => (resolve inner a.target).map fun t => (a.targetNewIdIndex,s,a.predicate,t)

def resolvedAssignments (ids : List String) (assignments : List (Nat × String × String × String)) :
    List ResolvedSplitAssignment :=
  assignments.map fun (i,s,p,t) => ⟨s,p,t,ids.getD i ""⟩

def split (st : Steward) (iteration : Iteration) (admin : String) (source : ExternalAddressing)
    (groups : List (List ExternalAddressing)) (strategy : SplitRelationStrategy)
    (assignments : List ExplicitRelationAssignment) (reason : Option String) : Steward :=
  match resolve st.registry.inner source with
  | none => st
  | some sourceId =>
    if assignments.any fun a => groups.length ≤ a.targetNewIdIndex then st
    else
      let routes := preResolved st.registry.inner assignments
      let subjectType := (describe st.registry.inner sourceId).map SubjectRecord.subjectType
      match locked st.registry fun inner => splitSubject uuid inner sourceId groups admin reason with
      | (.ok outcome,registry) =>
        let store :=
          match subjectType with
          | some kind => recordSubjectSplit st.store sourceId outcome.newIds kind groups admin reason
          | none => st.store
        {registry,store,graph := (RelationGraph.locked st.graph fun g =>
          RelationGraph.splitRelations g iteration sourceId outcome.newIds strategy
            (resolvedAssignments outcome.newIds routes)).2}
      | (_,registry) => {st with registry}

def assertRelation (st : Steward) (plugin : String) (source : ExternalAddressing) (predicate : String)
    (target : ExternalAddressing) (reason : Option String) : Steward :=
  match catalogue.findPredicate predicate with
  | none => st
  | some rule =>
    match resolve st.registry.inner source,resolve st.registry.inner target with
    | some sourceId,some targetId =>
      match describe st.registry.inner sourceId,describe st.registry.inner targetId with
      | some sourceRecord,some targetRecord =>
        if ¬rule.sourceType.accepts sourceRecord.subjectType then st
        else if ¬rule.targetType.accepts targetRecord.subjectType then st
        else
          match RelationGraph.locked st.graph fun g => RelationGraph.assert g sourceId predicate targetId plugin reason with
          | (.ok .noChange,graph) => {st with graph}
          | (.ok _,graph) =>
            match RelationGraph.describeRelation graph.inner sourceId predicate targetId with
            | none => {st with graph}
            | some _ => {st with graph,store := recordRelationAssert st.store ⟨sourceId,predicate,targetId⟩ plugin reason}
          | (_,graph) => {st with graph}
      | _,_ => st
    | _,_ => st

def retractRelation (st : Steward) (plugin : String) (source : ExternalAddressing) (predicate : String)
    (target : ExternalAddressing) : Steward :=
  if catalogue.findPredicate predicate = none then st
  else
    match resolve st.registry.inner source,resolve st.registry.inner target with
    | some sourceId,some targetId =>
      match RelationGraph.locked st.graph fun g => RelationGraph.retract g sourceId predicate targetId plugin with
      | (.ok outcome,graph) =>
        let forgotten := outcome = .relationForgotten
        {st with graph,store := recordRelationRetract st.store ⟨sourceId,predicate,targetId⟩ plugin forgotten}
      | (_,graph) => {st with graph}
    | _,_ => st

def forcedRetractClaim (st : Steward) (admin target : String) (admitted : Bool) (source : ExternalAddressing)
    (predicate : String) (targetAddressing : ExternalAddressing) : Steward :=
  if ¬admitted then st
  else if target = admin then st
  else
    match resolve st.registry.inner source,resolve st.registry.inner targetAddressing with
    | some sourceId,some targetId =>
      match RelationGraph.locked st.graph fun g => RelationGraph.forcedRetractClaim g sourceId predicate targetId target with
      | (.ok .claimRemoved,graph) =>
        {st with graph,store := recordRelationRetract st.store ⟨sourceId,predicate,targetId⟩ target false}
      | (.ok .relationForgotten,graph) =>
        {st with graph,store := recordRelationRetract st.store ⟨sourceId,predicate,targetId⟩ target true}
      | (_,graph) => {st with graph}
    | _,_ => st

-- `now` is what the clock shows during the call.
def suppress (st : Steward) (admin : String) (source : ExternalAddressing) (predicate : String)
    (target : ExternalAddressing) (reason : Option String) (now : Nat) : Steward :=
  match resolve st.registry.inner source,resolve st.registry.inner target with
  | some sourceId,some targetId =>
    match RelationGraph.locked st.graph fun g => RelationGraph.suppress g sourceId predicate targetId admin reason now with
    | (.ok .newlySuppressed,graph) =>
      {st with graph,store := recordRelationSuppress st.store ⟨sourceId,predicate,targetId⟩ admin now reason}
    | (.ok (.reasonUpdated _ newReason),graph) =>
      {st with graph,store := recordRelationSuppress st.store ⟨sourceId,predicate,targetId⟩ admin now newReason}
    | (_,graph) => {st with graph}
  | _,_ => st

def unsuppress (st : Steward) (source : ExternalAddressing) (predicate : String) (target : ExternalAddressing) : Steward :=
  match resolve st.registry.inner source,resolve st.registry.inner target with
  | some sourceId,some targetId =>
    match RelationGraph.locked st.graph fun g => RelationGraph.unsuppress g sourceId predicate targetId with
    | (.ok .unsuppressed,graph) => {st with graph,store := recordRelationUnsuppress st.store ⟨sourceId,predicate,targetId⟩}
    | (_,graph) => {st with graph}
  | _,_ => st

end

inductive Request where
  | announce (plugin : String) (announcement : SubjectAnnouncement)
  | retract (iteration : Iteration) (plugin : String) (addressing : ExternalAddressing) (reason : Option String)
  | forcedRetractAddressing (iteration : Iteration) (admin target : String) (admitted : Bool)
      (addressing : ExternalAddressing) (reason : Option String)
  | merge (first second : Iteration) (admin : String) (targetA targetB : ExternalAddressing) (reason : Option String)
  | split (iteration : Iteration) (admin : String) (source : ExternalAddressing)
      (groups : List (List ExternalAddressing)) (strategy : SplitRelationStrategy)
      (assignments : List ExplicitRelationAssignment) (reason : Option String)
  | assertRelation (plugin : String) (source : ExternalAddressing) (predicate : String) (target : ExternalAddressing)
      (reason : Option String)
  | retractRelation (plugin : String) (source : ExternalAddressing) (predicate : String) (target : ExternalAddressing)
  | forcedRetractClaim (admin target : String) (admitted : Bool) (source : ExternalAddressing) (predicate : String)
      (targetAddressing : ExternalAddressing)
  | suppress (admin : String) (source : ExternalAddressing) (predicate : String) (target : ExternalAddressing)
      (reason : Option String) (now : Nat)
  | unsuppress (source : ExternalAddressing) (predicate : String) (target : ExternalAddressing)

def step (uuid : Nat → String) (catalogue : Catalogue) (st : Steward) : Request → Steward
  | .announce plugin announcement => announce uuid catalogue st plugin announcement
  | .retract iteration plugin addressing reason => retract st iteration plugin addressing reason
  | .forcedRetractAddressing iteration admin target admitted addressing reason =>
    forcedRetractAddressing st iteration admin target admitted addressing reason
  | .merge first second admin a b reason => merge uuid st first second admin a b reason
  | .split iteration admin source groups strategy assignments reason =>
    split uuid st iteration admin source groups strategy assignments reason
  | .assertRelation plugin source predicate target reason => assertRelation catalogue st plugin source predicate target reason
  | .retractRelation plugin source predicate target => retractRelation catalogue st plugin source predicate target
  | .forcedRetractClaim admin target admitted source predicate addressing =>
    forcedRetractClaim st admin target admitted source predicate addressing
  | .suppress admin source predicate target reason now => suppress st admin source predicate target reason now
  | .unsuppress source predicate target => unsuppress st source predicate target

end EvoCore.StewardWiring
