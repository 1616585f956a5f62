import EvoCore.Runs
import EvoCore.Tables

namespace EvoCore.SubjectRegistry
open Tables Runs

-- The in-memory registry of crates/evo/src/subjects.rs. Wall-clock fields are left
-- out: no operation branches on them.
structure ExternalAddressing where
  scheme : String
  value : String
deriving DecidableEq,Repr

def ExternalAddressing.text (a : ExternalAddressing) : String := a.scheme ++ ":" ++ a.value

structure AddressingRecord where
  addressing : ExternalAddressing
  claimant : String
deriving DecidableEq,Repr

structure SubjectRecord where
  id : String
  subjectType : String
  addressings : List AddressingRecord
deriving DecidableEq,Repr

def SubjectRecord.listed (r : SubjectRecord) : List ExternalAddressing := r.addressings.map AddressingRecord.addressing

inductive ClaimConfidence where
  | asserted
  | inferred
  | tentative
deriving DecidableEq,Repr

inductive SubjectClaim where
  | equivalent (a b : ExternalAddressing) (confidence : ClaimConfidence) (reason : Option String)
  | distinct (a b : ExternalAddressing) (reason : Option String)
deriving DecidableEq,Repr

inductive ClaimKind where
  | equivalent (a b : ExternalAddressing) (confidence : ClaimConfidence)
  | distinct (a b : ExternalAddressing)
  | multiSubjectConflict (addressings : List ExternalAddressing) (canonicalIds : List String)
  | merged (sources : List String) (target : String)
  | split (source : String) (targets : List String)
deriving DecidableEq,Repr

structure ClaimRecord where
  kind : ClaimKind
  claimant : String
  reason : Option String
deriving DecidableEq,Repr

def claimToKindAndReason : SubjectClaim → ClaimKind × Option String
  | .equivalent a b confidence reason => (.equivalent a b confidence,reason)
  | .distinct a b reason => (.distinct a b,reason)

inductive AliasKind where
  | merged
  | split
  | tombstone
  | typeMigrated
deriving DecidableEq,Repr

structure AliasRecord where
  oldId : String
  newIds : List String
  kind : AliasKind
  adminPlugin : String
  reason : Option String
deriving DecidableEq,Repr

-- The state is the JSON payload; null is none.
structure SubjectAnnouncement where
  subjectType : String
  addressings : List ExternalAddressing
  claims : List SubjectClaim
  state : Option String
deriving DecidableEq,Repr

structure RegistryInner where
  subjects : Table String SubjectRecord
  addressings : Table ExternalAddressing String
  claims : List ClaimRecord
  aliases : Table String AliasRecord
  states : Table String String
  -- How many ids Uuid::new_v4 has given out so far.
  drawn : Nat

def RegistryInner.new : RegistryInner := ⟨∅,∅,[],∅,∅,0⟩

inductive StewardError where
  | catalogue (message : String)
  | dispatch (message : String)
deriving DecidableEq,Repr

inductive Reply (α : Type) where
  | ok (value : α)
  | refused (error : StewardError)
  | panicked (message : String)

def Reply.panics : Reply α → Bool
  | .panicked _ => true
  | _ => false

inductive AnnounceOutcome where
  | created (id : String)
  | updated (id : String)
  | noChange (id : String)
  | conflict (canonicalIds : List String)
deriving DecidableEq,Repr

inductive SubjectRetractOutcome where
  | addressingRemoved
  | subjectForgotten (canonicalId subjectType : String)
deriving DecidableEq,Repr

inductive ForcedRetractAddressingOutcome where
  | addressingRemoved (canonicalId : String)
  | subjectForgotten (canonicalId subjectType : String)
  | notFound
deriving DecidableEq,Repr

structure AddressingTransfer where
  claimant : String
  addressing : ExternalAddressing
  oldSubjectId : String
  newSubjectId : String
deriving DecidableEq,Repr

structure MergeAliasesOutcome where
  newId : String
  addressingTransfers : List AddressingTransfer
deriving DecidableEq,Repr

structure SplitSubjectOutcome where
  newIds : List String
  addressingTransfers : List AddressingTransfer
deriving DecidableEq,Repr

-- None where the key already has a record.
def aliasesTryInsert (inner : RegistryInner) (key : String) (record : AliasRecord) : Option RegistryInner :=
  match get inner.aliases key with
  | some _ => none
  | none => some {inner with aliases := inner.aliases.insert key record}

def unresolved (inner : RegistryInner) (addressings : List ExternalAddressing) : List ExternalAddressing :=
  addressings.filter fun a => (get inner.addressings a).isNone

def distinctIds (inner : RegistryInner) (addressings : List ExternalAddressing) : List String :=
  (addressings.filterMap (get inner.addressings)).dedup

def announced (addressings : List ExternalAddressing) (claimant : String) : List AddressingRecord :=
  addressings.map fun a => ⟨a,claimant⟩

section
-- Uuid::new_v4: the ids in the order in which they are drawn.
variable (uuid : Nat → String)

def created (inner : RegistryInner) (announcement : SubjectAnnouncement) (claimant : String) : RegistryInner :=
  let id := uuid inner.drawn
  {inner with
    subjects := inner.subjects.insert id ⟨id,announcement.subjectType,announced announcement.addressings claimant⟩
    addressings := insertAll inner.addressings announcement.addressings id
    drawn := inner.drawn+1}

def extended (inner : RegistryInner) (target : String) (added : List ExternalAddressing) (claimant : String) :
    RegistryInner :=
  {inner with
    addressings := insertAll inner.addressings added target
    subjects := modify inner.subjects target fun record =>
      {record with addressings := record.addressings ++ announced added claimant}}

def conflictClaim (announcement : SubjectAnnouncement) (ids : List String) (claimant : String) : ClaimRecord :=
  ⟨.multiSubjectConflict announcement.addressings ids,claimant,some "announcement spanned multiple existing subjects"⟩

def announceOutcome (inner : RegistryInner) (announcement : SubjectAnnouncement) (claimant : String) :
    AnnounceOutcome × RegistryInner :=
  match distinctIds inner announcement.addressings with
  | [] => (.created (uuid inner.drawn),created uuid inner announcement claimant)
  | [target] =>
    match unresolved inner announcement.addressings with
    | [] => (.noChange target,inner)
    | added => (.updated target,extended inner target added claimant)
  | ids => (.conflict ids,{inner with claims := inner.claims ++ [conflictClaim announcement ids claimant]})

-- A conflict or an announcement that changes nothing carries no state.
def captureState (inner : RegistryInner) (outcome : AnnounceOutcome) (state : Option String) : RegistryInner :=
  match state,outcome with
  | some payload,.created id => {inner with states := inner.states.insert id payload}
  | some payload,.updated id => {inner with states := inner.states.insert id payload}
  | _,_ => inner

def announceClaims (announcement : SubjectAnnouncement) (claimant : String) : List ClaimRecord :=
  announcement.claims.map fun claim =>
    ⟨(claimToKindAndReason claim).1,claimant,(claimToKindAndReason claim).2⟩

def announce (inner : RegistryInner) (announcement : SubjectAnnouncement) (claimant : String) :
    Reply AnnounceOutcome × RegistryInner :=
  if announcement.subjectType = "" then
    (.refused (.catalogue "subject announcement has empty subject_type"),inner)
  else if announcement.addressings = [] then
    (.refused (.catalogue "subject announcement has no addressings"),inner)
  else
    let claimed := {inner with claims := inner.claims ++ announceClaims announcement claimant}
    let (outcome,after) := announceOutcome uuid claimed announcement claimant
    (.ok outcome,captureState after outcome announcement.state)

def updateState (inner : RegistryInner) (canonicalId : String) (state : Option String) : Reply Unit × RegistryInner :=
  match get inner.subjects canonicalId with
  | none => (.refused (.dispatch ("update_state: unknown canonical id " ++ canonicalId)),inner)
  | some _ =>
    match state with
    | none => (.ok (),{inner with states := inner.states.erase canonicalId})
    | some payload => (.ok (),{inner with states := inner.states.insert canonicalId payload})

-- The claim of a plugin on an addressing: the first position in the record that has both.
def claimIdx (record : SubjectRecord) (addressing : ExternalAddressing) (claimant : String) : Option Nat :=
  record.addressings.findIdx? fun r => r.addressing = addressing ∧ r.claimant = claimant

def released (inner : RegistryInner) (id : String) (record : SubjectRecord) (idx : Nat)
    (addressing : ExternalAddressing) : RegistryInner :=
  {inner with
    subjects := inner.subjects.insert id {record with addressings := record.addressings.eraseIdx idx}
    addressings := inner.addressings.erase addressing}

-- The result of a second record under the same id is dropped by both callers.
def forgotten (inner : RegistryInner) (id actor : String) (reason : Option String) : RegistryInner :=
  let dropped := {inner with subjects := inner.subjects.erase id,states := inner.states.erase id}
  (aliasesTryInsert dropped id ⟨id,[],.tombstone,actor,reason⟩).getD dropped

def retract (inner : RegistryInner) (addressing : ExternalAddressing) (claimant : String) (reason : Option String) :
    Reply SubjectRetractOutcome × RegistryInner :=
  match get inner.addressings addressing with
  | none => (.refused (.dispatch ("retract: addressing " ++ addressing.text ++ " is not registered")),inner)
  | some id =>
    match get inner.subjects id with
    | none => (.refused (.dispatch
        ("retract: addressing " ++ addressing.text ++ " maps to missing subject " ++ id)),inner)
    | some record =>
      match claimIdx record addressing claimant with
      | none => (.refused (.dispatch
          ("retract: plugin " ++ claimant ++ " did not claim addressing " ++ addressing.text)),inner)
      | some idx =>
        let after := released inner id record idx addressing
        if record.addressings.eraseIdx idx = [] then
          (.ok (.subjectForgotten id record.subjectType),forgotten after id claimant reason)
        else (.ok .addressingRemoved,after)

def forcedRetractAddressing (inner : RegistryInner) (addressing : ExternalAddressing)
    (targetPlugin adminPlugin : String) (reason : Option String) :
    Reply ForcedRetractAddressingOutcome × RegistryInner :=
  match get inner.addressings addressing with
  | none => (.ok .notFound,inner)
  | some id =>
    match get inner.subjects id with
    | none => (.ok .notFound,inner)
    | some record =>
      match claimIdx record addressing targetPlugin with
      | none => (.ok .notFound,inner)
      | some idx =>
        let after := released inner id record idx addressing
        if record.addressings.eraseIdx idx = [] then
          (.ok (.subjectForgotten id record.subjectType),forgotten after id adminPlugin reason)
        else (.ok (.addressingRemoved id),after)

def transfers (records : List AddressingRecord) (oldId newId : String) : List AddressingTransfer :=
  records.map fun r => ⟨r.claimant,r.addressing,oldId,newId⟩

def merged (inner : RegistryInner) (sourceA sourceB : String) (recordA recordB : SubjectRecord) : RegistryInner :=
  let newId := uuid inner.drawn
  let addressings := recordA.addressings ++ recordB.addressings
  {inner with
    subjects := ((inner.subjects.erase sourceA).erase sourceB).insert newId ⟨newId,recordA.subjectType,addressings⟩
    states := (inner.states.erase sourceA).erase sourceB
    addressings := insertAll inner.addressings (addressings.map AddressingRecord.addressing) newId
    drawn := inner.drawn+1}

def appendOnlyPanic (key place : String) : Reply α :=
  .panicked ("alias index append-only invariant violated: key " ++ key ++ " already had an AliasRecord (" ++
    place ++ ")")

def mergeAliases (inner : RegistryInner) (sourceA sourceB adminPlugin : String) (reason : Option String) :
    Reply MergeAliasesOutcome × RegistryInner :=
  if sourceA = sourceB then
    (.refused (.dispatch ("merge_aliases: cannot merge subject " ++ sourceA ++ " with itself")),inner)
  else
    match get inner.subjects sourceA with
    | none => (.refused (.dispatch ("merge_aliases: source subject " ++ sourceA ++ " does not exist")),inner)
    | some recordA =>
      match get inner.subjects sourceB with
      | none => (.refused (.dispatch ("merge_aliases: source subject " ++ sourceB ++ " does not exist")),inner)
      | some recordB =>
        if recordA.subjectType ≠ recordB.subjectType then
          (.refused (.dispatch ("merge_aliases: cannot merge across subject types (" ++ recordA.subjectType ++
            " != " ++ recordB.subjectType ++ ")")),inner)
        else
          let newId := uuid inner.drawn
          let moved := merged uuid inner sourceA sourceB recordA recordB
          match aliasesTryInsert moved sourceA ⟨sourceA,[newId],.merged,adminPlugin,reason⟩ with
          | none => (appendOnlyPanic sourceA "merge source_a",moved)
          | some first =>
            match aliasesTryInsert first sourceB ⟨sourceB,[newId],.merged,adminPlugin,reason⟩ with
            | none => (appendOnlyPanic sourceB "merge source_b",first)
            | some second =>
              (.ok ⟨newId,transfers recordA.addressings sourceA newId ++ transfers recordB.addressings sourceB newId⟩,
                {second with claims := second.claims ++ [⟨.merged [sourceA,sourceB] newId,adminPlugin,reason⟩]})

-- The source's records keyed by addressing: of two for one addressing the later is kept.
def originalRecord (source : SubjectRecord) (a : ExternalAddressing) : Option AddressingRecord :=
  source.addressings.reverse.find? fun r => r.addressing = a

def placeGroup (inner : RegistryInner) (source : SubjectRecord) (newId : String) (records : List AddressingRecord) :
    RegistryInner :=
  {inner with
    subjects := inner.subjects.insert newId ⟨newId,source.subjectType,records⟩
    addressings := insertAll inner.addressings (records.map AddressingRecord.addressing) newId}

-- None where a group names an addressing the source does not have: the expect panics.
def placeGroups (source : SubjectRecord) (sourceId : String) : RegistryInner →
    List (List ExternalAddressing × String) → List AddressingTransfer → Option (List AddressingTransfer) × RegistryInner
  | inner,[],done => (some done,inner)
  | inner,(group,newId)::rest,done =>
    match group.mapM (originalRecord source) with
    | none => (none,inner)
    | some records =>
      placeGroups source sourceId (placeGroup inner source newId records) rest (done ++ transfers records sourceId newId)

def newIds (inner : RegistryInner) (count : Nat) : List String :=
  (List.range count).map fun i => uuid (inner.drawn+i)

def splitSubject (inner : RegistryInner) (sourceId : String) (groups : List (List ExternalAddressing))
    (adminPlugin : String) (reason : Option String) : Reply SplitSubjectOutcome × RegistryInner :=
  match get inner.subjects sourceId with
  | none => (.refused (.dispatch ("split_subject: source subject " ++ sourceId ++ " does not exist")),inner)
  | some source =>
    if groups.length < 2 then
      (.refused (.dispatch ("split_subject: partition must have at least 2 groups, got " ++ toString groups.length)),inner)
    else
      match groups.findIdx? List.isEmpty with
      | some i => (.refused (.dispatch ("split_subject: partition group " ++ toString i ++ " is empty")),inner)
      | none =>
        if ¬groups.flatten.Nodup then
          (.refused (.dispatch "split_subject: an addressing appears in more than one partition group"),inner)
        else if groups.flatten.toFinset ≠ source.listed.toFinset then
          (.refused (.dispatch ("split_subject: partition does not exactly cover the source's addressings " ++
            "(missing or extra)")),inner)
        else
          let ids := newIds uuid inner groups.length
          let minted := {inner with drawn := inner.drawn+groups.length}
          match placeGroups source sourceId minted (groups.zip ids) [] with
          | (none,placed) => (.panicked "validated above: every group addressing is on source",placed)
          | (some moves,placed) =>
            let dropped := {placed with subjects := placed.subjects.erase sourceId,states := placed.states.erase sourceId}
            match aliasesTryInsert dropped sourceId ⟨sourceId,ids,.split,adminPlugin,reason⟩ with
            | none => (appendOnlyPanic sourceId "split source",dropped)
            | some recorded =>
              (.ok ⟨ids,moves⟩,
                {recorded with claims := recorded.claims ++ [⟨.split sourceId ids,adminPlugin,reason⟩]})

end

def resolve (inner : RegistryInner) (addressing : ExternalAddressing) : Option String := get inner.addressings addressing
def describe (inner : RegistryInner) (canonicalId : String) : Option SubjectRecord := get inner.subjects canonicalId
def describeAlias (inner : RegistryInner) (oldId : String) : Option AliasRecord := get inner.aliases oldId

-- A panic under the lock poisons the mutex, and every later lock panics too.
structure SubjectRegistry where
  inner : RegistryInner
  poisoned : Bool

def SubjectRegistry.new : SubjectRegistry := ⟨.new,false⟩

def locked (r : SubjectRegistry) (body : RegistryInner → Reply α × RegistryInner) : Reply α × SubjectRegistry :=
  if r.poisoned then (.panicked "registry mutex poisoned",r)
  else
    let (reply,inner) := body r.inner
    (reply,⟨inner,reply.panics⟩)

inductive Call where
  | announce (announcement : SubjectAnnouncement) (claimant : String)
  | updateState (canonicalId : String) (state : Option String)
  | retract (addressing : ExternalAddressing) (claimant : String) (reason : Option String)
  | forcedRetractAddressing (addressing : ExternalAddressing) (targetPlugin adminPlugin : String) (reason : Option String)
  | mergeAliases (sourceA sourceB adminPlugin : String) (reason : Option String)
  | splitSubject (sourceId : String) (groups : List (List ExternalAddressing)) (adminPlugin : String) (reason : Option String)
deriving DecidableEq,Repr

def step (uuid : Nat → String) (r : SubjectRegistry) : Call → SubjectRegistry
  | .announce announcement claimant => (locked r fun inner => announce uuid inner announcement claimant).2
  | .updateState id state => (locked r fun inner => updateState inner id state).2
  | .retract a claimant reason => (locked r fun inner => retract inner a claimant reason).2
  | .forcedRetractAddressing a target admin reason => (locked r fun inner => forcedRetractAddressing inner a target admin reason).2
  | .mergeAliases a b admin reason => (locked r fun inner => mergeAliases uuid inner a b admin reason).2
  | .splitSubject id groups admin reason => (locked r fun inner => splitSubject uuid inner id groups admin reason).2

end EvoCore.SubjectRegistry
