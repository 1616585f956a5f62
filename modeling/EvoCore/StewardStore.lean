import EvoCore.RelationGraph

namespace EvoCore.StewardStore
open Tables SubjectRegistry RelationGraph

-- The subject and relation tables of crates/evo/src/persistence.rs, with the statements of
-- their transactions. Wall-clock columns and the append-only claim_log are left out:
-- neither rehydration reads them.
structure SubjectRow where
  subjectType : String
  forgotten : Bool
deriving DecidableEq,Repr

structure AddressingRow where
  subjectId : String
  claimant : String
deriving DecidableEq,Repr

structure AliasRow where
  oldId : String
  newId : String
  kind : AliasKind
  adminPlugin : String
  reason : Option String
deriving DecidableEq,Repr

structure RelationRow where
  suppressedAdminPlugin : Option String
  suppressedAtMs : Option Nat
  suppressionReason : Option String
deriving DecidableEq,Repr

structure ClaimantRow where
  reason : Option String
deriving DecidableEq,Repr

structure Store where
  subjects : Table String SubjectRow
  addressings : Table ExternalAddressing AddressingRow
  -- In the order of alias_id.
  aliases : List AliasRow
  relations : Table RelationKey RelationRow
  relationClaimants : Table (RelationKey × String) ClaimantRow

def Store.new : Store := ⟨∅,∅,[],∅,∅⟩

-- INSERT .. ON CONFLICT(id) DO UPDATE: the type of a row that is there stays.
def recordSubjectAnnounce (st : Store) (canonicalId subjectType : String) (addressings : List ExternalAddressing)
    (claimant : String) : Store :=
  let row : SubjectRow :=
    match get st.subjects canonicalId with
    | some row => {row with forgotten := false}
    | none => ⟨subjectType,false⟩
  {st with
    subjects := st.subjects.insert canonicalId row
    addressings := insertAll st.addressings addressings ⟨canonicalId,claimant⟩}

def recordSubjectRetract (st : Store) (canonicalId : String) (addressing : ExternalAddressing) : Store :=
  {st with addressings := retain st.addressings fun a row => ¬(a = addressing ∧ row.subjectId = canonicalId)}

-- DELETE FROM subjects, with the addressings of the row by ON DELETE CASCADE.
def deleteSubject (st : Store) (id : String) : Store :=
  {st with
    subjects := st.subjects.erase id
    addressings := retain st.addressings fun _ row => row.subjectId ≠ id}

def recordSubjectForget (st : Store) (canonicalId claimant : String) (reason : Option String) : Store :=
  let deleted := deleteSubject st canonicalId
  {deleted with aliases := deleted.aliases ++ [⟨canonicalId,"",.tombstone,claimant,reason⟩]}

def recordSubjectMerge (st : Store) (sourceA sourceB newId subjectType adminPlugin : String) (reason : Option String) :
    Store :=
  let moved := {st with
    subjects := st.subjects.insert newId ⟨subjectType,false⟩
    addressings := mapValues st.addressings fun row =>
      if row.subjectId = sourceA ∨ row.subjectId = sourceB then {row with subjectId := newId} else row}
  let deleted := deleteSubject (deleteSubject moved sourceA) sourceB
  {deleted with aliases := deleted.aliases ++ [sourceA,sourceB].map fun old => ⟨old,newId,.merged,adminPlugin,reason⟩}

def moveAddressing (newId : String) (addressings : Table ExternalAddressing AddressingRow) (a : ExternalAddressing) :
    Table ExternalAddressing AddressingRow :=
  modify addressings a fun row => {row with subjectId := newId}

def recordSubjectSplit (st : Store) (source : String) (newIds : List String) (subjectType : String)
    (groups : List (List ExternalAddressing)) (adminPlugin : String) (reason : Option String) : Store :=
  let moved := {st with
    subjects := insertAll st.subjects newIds ⟨subjectType,false⟩
    addressings := (groups.zip newIds).foldl (fun rows pair => pair.1.foldl (moveAddressing pair.2) rows) st.addressings}
  let deleted := deleteSubject moved source
  {deleted with aliases := deleted.aliases ++ newIds.map fun newId => ⟨source,newId,.split,adminPlugin,reason⟩}

-- INSERT .. ON CONFLICT DO UPDATE of the timestamp only, and INSERT OR IGNORE of the claim.
def recordRelationAssert (st : Store) (key : RelationKey) (claimant : String) (reason : Option String) : Store :=
  {st with
    relations :=
      match get st.relations key with
      | some _ => st.relations
      | none => st.relations.insert key ⟨none,none,none⟩
    relationClaimants :=
      match get st.relationClaimants (key,claimant) with
      | some _ => st.relationClaimants
      | none => st.relationClaimants.insert (key,claimant) ⟨reason⟩}

-- DELETE FROM relations, with the claimants by ON DELETE CASCADE.
def recordRelationForget (st : Store) (key : RelationKey) : Store :=
  {st with
    relations := st.relations.erase key
    relationClaimants := retain st.relationClaimants fun row _ => row.1 ≠ key}

def recordRelationRetract (st : Store) (key : RelationKey) (claimant : String) (relationForgotten : Bool) : Store :=
  let removed := {st with relationClaimants := st.relationClaimants.erase (key,claimant)}
  if relationForgotten then recordRelationForget removed key else removed

def recordRelationSuppress (st : Store) (key : RelationKey) (adminPlugin : String) (suppressedAtMs : Nat) (reason : Option String) : Store :=
  {st with relations := modify st.relations key fun _ => ⟨some adminPlugin,some suppressedAtMs,reason⟩}

def recordRelationUnsuppress (st : Store) (key : RelationKey) : Store :=
  {st with relations := modify st.relations key fun _ => ⟨none,none,none⟩}

structure PersistedSubject where
  id : String
  subjectType : String
  forgotten : Bool
  addressings : List AddressingRecord
deriving DecidableEq,Repr

def loadAllSubjects (st : Store) : List PersistedSubject :=
  st.subjects.entries.map fun row => ⟨row.1,row.2.subjectType,row.2.forgotten,
    st.addressings.entries.filterMap fun entry =>
      if entry.2.subjectId = row.1 then some ⟨entry.1,entry.2.claimant⟩ else none⟩

def loadSubject (inner : RegistryInner) (ps : PersistedSubject) : RegistryInner :=
  if ps.forgotten then inner
  else {inner with
    addressings := insertAll inner.addressings (ps.addressings.map AddressingRecord.addressing) ps.id
    subjects := inner.subjects.insert ps.id ⟨ps.id,ps.subjectType,ps.addressings⟩}

-- The rows of one retired id, in their order; the first of them gives the kind.
def aliasOf (oldId : String) (first : AliasRow) (rows : List AliasRow) : AliasRecord :=
  ⟨oldId,if first.kind = .tombstone then [] else rows.map AliasRow.newId,first.kind,first.adminPlugin,first.reason⟩

def loadAlias (rows : List AliasRow) (aliases : Table String AliasRecord) (oldId : String) : Table String AliasRecord :=
  match rows.filter (fun row => row.oldId = oldId) with
  | [] => aliases
  | first::rest => aliases.insert oldId (aliasOf oldId first (first::rest))

-- Into a fresh registry; the claim log starts empty.
def rehydrateRegistry (st : Store) (drawn : Nat) : RegistryInner :=
  let subjects := (loadAllSubjects st).foldl loadSubject {RegistryInner.new with drawn := drawn}
  {subjects with aliases := (st.aliases.map AliasRow.oldId).dedup.foldl (loadAlias st.aliases) ∅}

def suppressionOf (row : RelationRow) : Option SuppressionRecord :=
  match row.suppressedAdminPlugin,row.suppressedAtMs with
  | some admin,some atMs => some ⟨admin,atMs,row.suppressionReason⟩
  | _,_ => none

def loadAllRelations (st : Store) : List RelationRecord :=
  st.relations.entries.map fun row => ⟨row.1,
    st.relationClaimants.entries.filterMap fun entry =>
      if entry.1.1 = row.1 then some ⟨entry.1.2,entry.2.reason⟩ else none,
    suppressionOf row.2⟩

def loadRelation (g : GraphInner) (record : RelationRecord) : GraphInner :=
  let stored := store g record.key record
  if record.suppression = none then indexEdge stored record.key else stored

def rehydrateGraph (st : Store) : GraphInner := (loadAllRelations st).foldl loadRelation .new

end EvoCore.StewardStore
