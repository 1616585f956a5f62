import EvoCore.Actions
import EvoCore.DomainRuntime

namespace EvoCore.Groups
open DomainEntries ChainAppend DomainProjection DomainRuntime Std

structure PersistedGroup where
  groupId : String
  displayName : String
  createdAtMs : UInt64
  modifiedAtMs : UInt64
  pinnedSourceHost : Option String
  leaderMs : UInt32
deriving DecidableEq,Repr

structure PersistedGroupMember where
  groupId : String
  deviceId : String
  joinedAtMs : UInt64
deriving DecidableEq,Repr

-- multiroom_groups and multiroom_group_members, with what befalls the operations to come: an
-- entry with a text fails that operation, every other one is carried out.
structure PersistenceStore where
  groups : ExtTreeMap String PersistedGroup
  members : List PersistedGroupMember
  faults : List (Option String)

structure Group where
  groupId : String
  displayName : String
  members : List String
  createdAtMs : UInt64
  modifiedAtMs : UInt64
  pinnedSourceHost : Option String
  effectiveLeader : Option String
  leaderMs : UInt32
deriving DecidableEq,Repr

structure MoveOutcome where
  fromGroupId : String
  toGroupId : String
  deviceId : String
  fromMembersAfter : List String
  toMembersAfter : List String
  sourceDissolved : Bool
deriving DecidableEq,Repr

inductive GroupChange where
  | created (group : Group)
  | updated (group : Group)
  | deleted (groupId : String)
deriving DecidableEq,Repr

-- What goes on the bus, without the clock reading each carries.
inductive GroupHappening where
  | groupCreated (groupId displayName : String) (members : List String)
  | groupRenamed (groupId displayName : String)
  | groupMembershipChanged (groupId displayName : String) (members added removed : List String)
  | groupLeaderMsChanged (groupId displayName : String) (priorLeaderMs newLeaderMs : UInt32)
  | groupDeleted (groupId displayName : String)
  | multiroomMemberMoved (fromGroupId toGroupId deviceId : String) (fromMembersAfter toMembersAfter : List String)
      (sourceDissolved : Bool)
deriving DecidableEq,Repr

-- GroupError::Chain carries the text of one of these.
inductive ChainRefusal where
  | runtime (error : DomainWitnessRuntimeError)
  | outvoted (outcome : AppendOutcome)
deriving DecidableEq,Repr

inductive GroupError where
  | persistence (error : String)
  | invalidDisplayName (detail : String)
  | emptyMembership
  | notFound (groupId : String)
  | lastMember
  | invalidMemberId
  | deviceNotInDomain (deviceId : String)
  | successorRequired (departingDeviceId : String) (eligibleMemberIds : List String)
  | successorNotEligible (deviceId : String)
  | invalidLeaderMs (leaderMs : UInt32)
  | chain (refusal : ChainRefusal)
deriving DecidableEq,Repr

structure GroupStore where
  persistence : PersistenceStore
  witnessRuntime : Option DomainWitnessRuntime
  happenings : List GroupHappening
  changes : List GroupChange

-- What one call draws from outside: the two uuids, the two clocks, the fate of the chain's file
-- operation and of the operations on the tables.
structure Draws where
  groupId : String
  witnessId : WitnessId
  nowNs : UInt64
  nowMs : UInt64
  io : FileResult
  faults : List (Option String)

abbrev Act := EStateM GroupError GroupStore

def MAX_GROUP_DISPLAY_NAME_CHARS : Nat := 128

def trim (s : String) : String :=
  String.ofList ((s.toList.dropWhile isWhitespace).reverse.dropWhile isWhitespace).reverse

def validateDisplayName (s : String) : Except GroupError String :=
  let trimmed := trim s
  if trimmed.isEmpty then .error (.invalidDisplayName "display_name must not be empty or whitespace-only")
  else if MAX_GROUP_DISPLAY_NAME_CHARS < trimmed.length then
    .error (.invalidDisplayName ("display_name must be \u2264 " ++ toString MAX_GROUP_DISPLAY_NAME_CHARS ++
      " chars (got " ++ toString trimmed.length ++ ")"))
  else .ok trimmed

def validateMemberId (s : String) : Except GroupError String :=
  let trimmed := trim s
  if trimmed.isEmpty then .error .invalidMemberId else .ok trimmed

-- The loop of sanitise_members over what it has put out.
def sanitiseFrom (out : List String) : List String → Except GroupError (List String)
  | [] => .ok out
  | raw::rest =>
    match validateMemberId raw with
    | .error e => .error e
    | .ok deviceId => sanitiseFrom (if out.contains deviceId then out else out ++ [deviceId]) rest

def sanitiseMembers (ids : List String) : Except GroupError (List String) := sanitiseFrom [] ids

def resolveEffectiveLeader (members : List String) (pinnedSourceHost explicitLeader : Option String) : Option String :=
  match pinnedSourceHost.filter members.contains with
  | some pin => some pin
  | none =>
    match explicitLeader.filter members.contains with
    | some leader => some leader
    | none => members.min?

def projectionToGroup (projection : DomainStateView) (group : GroupProjection) : Group :=
  let leaderEntry := projection.leaders[group.groupId]?
  let pinnedSourceHost := leaderEntry.bind LeaderProjection.pinnedSourceHost
  let explicitLeader := leaderEntry.bind LeaderProjection.explicitLeader
  {groupId := group.groupId,displayName := group.displayName,members := group.members,
   createdAtMs := group.createdAtNs / 1000000,modifiedAtMs := group.modifiedAtNs / 1000000,
   pinnedSourceHost,effectiveLeader := resolveEffectiveLeader group.members pinnedSourceHost explicitLeader,
   leaderMs := group.leaderMs}

def PersistedGroup.toGroup (row : PersistedGroup) (members : List String) : Group :=
  {groupId := row.groupId,displayName := row.displayName,members,createdAtMs := row.createdAtMs,
   modifiedAtMs := row.modifiedAtMs,pinnedSourceHost := row.pinnedSourceHost,
   effectiveLeader := resolveEffectiveLeader members row.pinnedSourceHost none,leaderMs := row.leaderMs}

-- ORDER BY joined_at_ms ASC, device_id ASC.
def joinedBefore (a b : PersistedGroupMember) : Bool :=
  a.joinedAtMs < b.joinedAtMs || (a.joinedAtMs == b.joinedAtMs && a.deviceId ≤ b.deviceId)

-- ORDER BY created_at_ms ASC, group_id ASC.
def createdBefore (a b : PersistedGroup) : Bool :=
  a.createdAtMs < b.createdAtMs || (a.createdAtMs == b.createdAtMs && a.groupId ≤ b.groupId)

def PersistenceStore.memberIds (p : PersistenceStore) (groupId : String) : List String :=
  ((p.members.filter fun row => row.groupId == groupId).insertionSort fun a b => joinedBefore a b).map
    PersistedGroupMember.deviceId

def persist (operation : PersistenceStore → α × PersistenceStore) : Act α := fun s =>
  match s.persistence.faults with
  | some error::rest => .error (.persistence error) {s with persistence := {s.persistence with faults := rest}}
  | faults =>
    let done := operation {s.persistence with faults := faults.tail}
    .ok done.1 {s with persistence := done.2}

def getGroup (groupId : String) : Act (Option PersistedGroup) := persist fun p => (p.groups[groupId]?,p)

def listGroups : Act (List PersistedGroup) :=
  persist fun p => ((p.groups.toList.map Prod.snd).insertionSort fun a b => createdBefore a b,p)

-- Every caller puts back the created_at_ms it read, which the upsert of SQLite would keep.
def putGroup (row : PersistedGroup) : Act Unit := persist fun p => ((),{p with groups := p.groups.insert row.groupId row})

def deleteGroup (groupId : String) : Act Unit :=
  persist fun p => ((),{p with groups := p.groups.erase groupId,members := p.members.filter fun row => row.groupId != groupId})

def putGroupMember (row : PersistedGroupMember) : Act Unit :=
  persist fun p => ((),{p with members :=
    (p.members.filter fun old => !(old.groupId == row.groupId && old.deviceId == row.deviceId)) ++ [row]})

def deleteGroupMember (groupId deviceId : String) : Act Unit :=
  persist fun p => ((),{p with members := p.members.filter fun row => !(row.groupId == groupId && row.deviceId == deviceId)})

-- list_group_members, of which every caller keeps the device ids.
def listGroupMembers (groupId : String) : Act (List String) := persist fun p => (p.memberIds groupId,p)

def boundRuntime : Act (Option DomainWitnessRuntime) := fun s => .ok s.witnessRuntime s

def chainIsCanonical : Act Bool := do
  return (← boundRuntime).isSome

-- A failed emit is logged and forgotten.
def emit (happening : GroupHappening) : Act Unit := fun s => .ok () {s with happenings := s.happenings ++ [happening]}

def broadcast (change : GroupChange) : Act Unit := fun s => .ok () {s with changes := s.changes ++ [change]}

def checked (check : Except GroupError α) : Act α :=
  match check with
  | .error e => throw e
  | .ok a => pure a

def orNotFound (groupId : String) (lookup : Option α) : Act α :=
  match lookup with
  | none => throw (.notFound groupId)
  | some a => pure a

def onlyIf (condition : Bool) (action : Act Unit) : Act Unit := if condition then action else pure ()

def refuseIf (condition : Bool) (error : GroupError) : Act Unit := onlyIf condition (throw error)

def unlessCanonical (action : Act Unit) : Act Unit := do
  onlyIf (!(← chainIsCanonical)) action

-- Read the row again, change it, put it back.
def rewriteGroup (groupId : String) (change : PersistedGroup → PersistedGroup) : Act Unit := do
  match (← getGroup groupId) with
  | none => pure ()
  | some row => putGroup (change row)

namespace GroupStore

def get (groupId : String) : Act (Option Group) := do
  match (← boundRuntime) with
  | some runtime => return (runtime.projection.groups[groupId]?).map (projectionToGroup runtime.projection)
  | none =>
    match (← getGroup groupId) with
    | none => return none
    | some row => return some (row.toGroup (← listGroupMembers groupId))

def list : Act (List Group) := do
  match (← boundRuntime) with
  | some runtime => return runtime.projection.groups.toList.map fun entry => projectionToGroup runtime.projection entry.2
  | none => (← listGroups).mapM fun row => do
    return row.toGroup (← listGroupMembers row.groupId)

def existing (groupId : String) : Act Group := do
  orNotFound groupId (← get groupId)

variable (crates : DomainCrates) (draws : Draws)

def chainAppend (op : DomainStateOp) : Act Unit := fun s =>
  match s.witnessRuntime with
  | none => .ok () s
  | some runtime =>
    match appendLocalGesture crates draws.io draws.witnessId draws.nowNs runtime op [] with
    | (.error e,next) => .error (.chain (.runtime e)) {s with witnessRuntime := some next}
    | (.ok (_,outcome),next) =>
      if outcome.isCanonical then .ok () {s with witnessRuntime := some next}
      else .error (.chain (.outvoted outcome)) {s with witnessRuntime := some next}

def setLeaderMs (groupId : String) (leaderMs : UInt32) : Act Group := do
  refuseIf (!(10 ≤ leaderMs && leaderMs ≤ 5000)) (.invalidLeaderMs leaderMs)
  let prior := (← existing groupId).leaderMs
  onlyIf (prior != leaderMs) do
    chainAppend crates draws (.setGroupLeaderMs groupId leaderMs)
    unlessCanonical (rewriteGroup groupId fun row => {row with leaderMs,modifiedAtMs := draws.nowMs})
  let group ← existing groupId
  onlyIf (prior != leaderMs) do
    emit (.groupLeaderMsChanged groupId group.displayName prior leaderMs)
    broadcast (.updated group)
  return group

def create (displayName : String) (memberDeviceIds : List String) : Act Group := do
  let display ← checked (validateDisplayName displayName)
  let members ← checked (sanitiseMembers memberDeviceIds)
  refuseIf members.isEmpty .emptyMembership
  let row : PersistedGroup := ⟨draws.groupId,display,draws.nowMs,draws.nowMs,none,DEFAULT_GROUP_LEADER_MS⟩
  chainAppend crates draws (.createGroup draws.groupId display members)
  unlessCanonical do
    putGroup row
    members.forM fun deviceId => putGroupMember ⟨draws.groupId,deviceId,draws.nowMs⟩
  let group := row.toGroup members
  emit (.groupCreated draws.groupId display members)
  broadcast (.created group)
  return group

def sameMembers (prior members : List String) : Bool :=
  prior.insertionSort (· ≤ ·) == members.insertionSort (· ≤ ·)

-- The row of an upsert that would change nothing.
def unchanged (groupId display : String) (members : List String) : Option PersistedGroup → Act (Option PersistedGroup)
  | none => pure none
  | some row =>
    if row.displayName = display then do
      let prior ← listGroupMembers groupId
      return if sameMembers prior members then some row else none
    else pure none

def upsertWithId (groupId displayName : String) (memberDeviceIds : List String) : Act Group := do
  let display ← checked (validateDisplayName displayName)
  let members ← checked (sanitiseMembers memberDeviceIds)
  refuseIf members.isEmpty .emptyMembership
  let existing ← getGroup groupId
  match (← unchanged groupId display members existing) with
  | some row => return {row with groupId,displayName := display : PersistedGroup}.toGroup members
  | none =>
    let row : PersistedGroup := match existing with
      | some row => {row with groupId,displayName := display,modifiedAtMs := draws.nowMs}
      | none => ⟨groupId,display,draws.nowMs,draws.nowMs,none,DEFAULT_GROUP_LEADER_MS⟩
    putGroup row
    let priorMembers ← listGroupMembers groupId
    priorMembers.forM fun device => onlyIf (!members.contains device) (deleteGroupMember groupId device)
    members.forM fun device => putGroupMember ⟨groupId,device,draws.nowMs⟩
    let group := row.toGroup members
    onlyIf existing.isNone (emit (.groupCreated groupId display members))
    broadcast (if existing.isNone then .created group else .updated group)
    return group

def rename (groupId newDisplayName : String) : Act Group := do
  let display ← checked (validateDisplayName newDisplayName)
  let _ ← existing groupId
  chainAppend crates draws (.renameGroup groupId display)
  unlessCanonical (rewriteGroup groupId fun row => {row with displayName := display,modifiedAtMs := draws.nowMs})
  let group ← existing groupId
  emit (.groupRenamed groupId display)
  broadcast (.updated group)
  return group

def addMember (groupId deviceId : String) : Act Group := do
  let deviceId ← checked (validateMemberId deviceId)
  let alreadyPresent := (← existing groupId).members.contains deviceId
  onlyIf (!alreadyPresent) (chainAppend crates draws (.addMemberToGroup groupId deviceId))
  unlessCanonical do
    onlyIf (← getGroup groupId).isSome do
      putGroupMember ⟨groupId,deviceId,draws.nowMs⟩
      onlyIf (!alreadyPresent) (rewriteGroup groupId fun row => {row with modifiedAtMs := draws.nowMs})
  let group ← existing groupId
  onlyIf (!alreadyPresent) do
    emit (.groupMembershipChanged groupId group.displayName group.members [deviceId] [])
    broadcast (.updated group)
  return group

def removeMember (groupId deviceId : String) : Act Group := do
  let prior ← existing groupId
  let wasMember := prior.members.contains deviceId
  refuseIf (wasMember && prior.members.length == 1) .lastMember
  onlyIf wasMember (chainAppend crates draws (.removeMemberFromGroup groupId deviceId))
  onlyIf wasMember (unlessCanonical do
    onlyIf (← getGroup groupId).isSome do
      deleteGroupMember groupId deviceId
      rewriteGroup groupId fun row => {row with modifiedAtMs := draws.nowMs})
  let group ← existing groupId
  onlyIf wasMember do
    emit (.groupMembershipChanged groupId group.displayName group.members [] [deviceId])
    broadcast (.updated group)
  return group

def moveMember (fromGroupId toGroupId deviceId : String) : Act MoveOutcome := do
  refuseIf (fromGroupId == toGroupId) .invalidMemberId
  let fromRow ← orNotFound fromGroupId (← getGroup fromGroupId)
  let toRow ← orNotFound toGroupId (← getGroup toGroupId)
  refuseIf (!(← listGroupMembers fromGroupId).contains deviceId) .invalidMemberId
  refuseIf ((← listGroupMembers toGroupId).contains deviceId) .invalidMemberId
  deleteGroupMember fromGroupId deviceId
  let pinnedSourceHost := fromRow.pinnedSourceHost.filter (· != deviceId)
  let fromRow := {fromRow with pinnedSourceHost,modifiedAtMs := draws.nowMs}
  putGroupMember ⟨toGroupId,deviceId,draws.nowMs⟩
  let toRow := {toRow with modifiedAtMs := draws.nowMs}
  let preDissolveMembers ← listGroupMembers fromGroupId
  let sourceDissolved := decide (preDissolveMembers.length < 2)
  let fromMembersAfter := if sourceDissolved then [] else preDissolveMembers
  onlyIf sourceDissolved (deleteGroup fromGroupId)
  onlyIf (!sourceDissolved) (putGroup fromRow)
  putGroup toRow
  let toMembersAfter ← listGroupMembers toGroupId
  emit (.multiroomMemberMoved fromGroupId toGroupId deviceId fromMembersAfter toMembersAfter sourceDissolved)
  onlyIf sourceDissolved (emit (.groupDeleted fromRow.groupId fromRow.displayName))
  broadcast (if sourceDissolved then .deleted fromRow.groupId else .updated (fromRow.toGroup fromMembersAfter))
  broadcast (.updated (toRow.toGroup toMembersAfter))
  return ⟨fromRow.groupId,toRow.groupId,deviceId,fromMembersAfter,toMembersAfter,sourceDissolved⟩

def delete (groupId : String) : Act Bool := do
  match (← get groupId) with
  | none => return false
  | some group =>
    chainAppend crates draws (.deleteGroup groupId)
    unlessCanonical (deleteGroup groupId)
    emit (.groupDeleted group.groupId group.displayName)
    broadcast (.deleted group.groupId)
    return true

def pinSourceHost (groupId deviceId : String) : Act Group := do
  let prior ← existing groupId
  refuseIf (!prior.members.contains deviceId) (.successorNotEligible deviceId)
  let changed := prior.pinnedSourceHost != some deviceId
  onlyIf changed do
    chainAppend crates draws (.pinSourceHost groupId deviceId)
    unlessCanonical (rewriteGroup groupId fun row => {row with pinnedSourceHost := some deviceId,modifiedAtMs := draws.nowMs})
  let group ← existing groupId
  onlyIf changed (broadcast (.updated group))
  return group

def unpinSourceHost (groupId : String) : Act Group := do
  let prior ← existing groupId
  let changed := prior.pinnedSourceHost.isSome
  onlyIf changed do
    chainAppend crates draws (.unpinSourceHost groupId)
    unlessCanonical (rewriteGroup groupId fun row => {row with pinnedSourceHost := none,modifiedAtMs := draws.nowMs})
  let group ← existing groupId
  onlyIf changed (broadcast (.updated group))
  return group

end GroupStore

inductive Request where
  | create (displayName : String) (memberDeviceIds : List String)
  | upsertWithId (groupId displayName : String) (memberDeviceIds : List String)
  | rename (groupId newDisplayName : String)
  | addMember (groupId deviceId : String)
  | removeMember (groupId deviceId : String)
  | moveMember (fromGroupId toGroupId deviceId : String)
  | setLeaderMs (groupId : String) (leaderMs : UInt32)
  | pinSourceHost (groupId deviceId : String)
  | unpinSourceHost (groupId : String)
  | delete (groupId : String)
deriving DecidableEq,Repr

inductive Reply where
  | group (group : Group)
  | moved (outcome : MoveOutcome)
  | deleted (existed : Bool)
deriving DecidableEq,Repr

structure Call where
  request : Request
  draws : Draws

def answer (crates : DomainCrates) (draws : Draws) : Request → Act Reply
  | .create displayName ids => .group <$> GroupStore.create crates draws displayName ids
  | .upsertWithId groupId displayName ids => .group <$> GroupStore.upsertWithId draws groupId displayName ids
  | .rename groupId newDisplayName => .group <$> GroupStore.rename crates draws groupId newDisplayName
  | .addMember groupId deviceId => .group <$> GroupStore.addMember crates draws groupId deviceId
  | .removeMember groupId deviceId => .group <$> GroupStore.removeMember crates draws groupId deviceId
  | .moveMember fromGroupId toGroupId deviceId => .moved <$> GroupStore.moveMember draws fromGroupId toGroupId deviceId
  | .setLeaderMs groupId leaderMs => .group <$> GroupStore.setLeaderMs crates draws groupId leaderMs
  | .pinSourceHost groupId deviceId => .group <$> GroupStore.pinSourceHost crates draws groupId deviceId
  | .unpinSourceHost groupId => .group <$> GroupStore.unpinSourceHost crates draws groupId
  | .delete groupId => .deleted <$> GroupStore.delete crates draws groupId

def facing (s : GroupStore) (faults : List (Option String)) : GroupStore :=
  {s with persistence := {s.persistence with faults}}

def perform (crates : DomainCrates) (s : GroupStore) (call : Call) : EStateM.Result GroupError GroupStore Reply :=
  answer crates call.draws call.request (facing s call.draws.faults)

def step (crates : DomainCrates) (s : GroupStore) (call : Call) : GroupStore :=
  match perform crates s call with
  | .ok _ t => t
  | .error _ t => t

end EvoCore.Groups
