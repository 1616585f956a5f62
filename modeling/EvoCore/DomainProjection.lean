import EvoCore.DomainEntries

namespace EvoCore.DomainProjection
open DomainEntries

structure EndpointHistoryEntry where
  observedAtNs : UInt64
  witnessId : String
  endpoints : List NetworkEndpoint
deriving DecidableEq,Repr

structure DeviceEndpointHistory where
  history : Std.ExtTreeMap String (List EndpointHistoryEntry)
  depth : Nat

def DEFAULT_HISTORY_DEPTH : Nat := 4

def DeviceEndpointHistory.withDepth (depth : Nat) : DeviceEndpointHistory := ⟨∅,max depth 1⟩
def DeviceEndpointHistory.new : DeviceEndpointHistory := .withDepth DEFAULT_HISTORY_DEPTH

-- The subject and the endpoints an op records, for the two kinds that do.
def observation : DomainStateOp → Option (String × List NetworkEndpoint)
  | .admitPeer deviceId _ _ endpoints => some (deviceId,endpoints)
  | .updatePeerEndpoints deviceId endpoints => some (deviceId,endpoints)
  | _ => none

def DeviceEndpointHistory.apply (h : DeviceEndpointHistory) (w : DomainWitness) : DeviceEndpointHistory :=
  match observation w.op with
  | none => h
  | some (deviceId,endpoints) =>
    let entry : EndpointHistoryEntry := ⟨w.tsNs,w.id.value,endpoints⟩
    {h with history := h.history.alter deviceId fun bucket => some ((entry::bucket.getD []).take h.depth)}

inductive TrustState where
  | admitted
  | discarded
deriving DecidableEq,Repr

structure TrustProjection where
  deviceId : String
  displayName : String
  publicKeyB64 : String
  admittedAtNs : UInt64
  discardedAtNs : Option UInt64
  discardReason : Option String
  state : TrustState
deriving DecidableEq,Repr

structure GroupProjection where
  groupId : String
  displayName : String
  members : List String
  createdAtNs : UInt64
  modifiedAtNs : UInt64
  pendingSuccessor : Option String
  leaderMs : UInt32
deriving DecidableEq,Repr

structure LeaderProjection where
  explicitLeader : Option String
  pinnedSourceHost : Option String
deriving DecidableEq,Repr

structure RelayProjection where
  deviceId : String
  networks : List NetworkDeclaration
  capabilities : List RelayCapability
  declaredAtNs : UInt64
deriving DecidableEq,Repr

structure DomainStateView where
  trust : Std.ExtTreeMap String TrustProjection
  groups : Std.ExtTreeMap String GroupProjection
  leaders : Std.ExtTreeMap String LeaderProjection
  endpoints : DeviceEndpointHistory
  relays : Std.ExtTreeMap String RelayProjection
  chainHeadB64 : String
  chainLength : Nat

def DEFAULT_GROUP_LEADER_MS : UInt32 := 200

def noLeader : LeaderProjection := ⟨none,none⟩
def emptyView : DomainStateView := ⟨∅,∅,∅,.new,∅,"",0⟩

-- entry(key).or_default(), then the change.
def orDefault (change : LeaderProjection → LeaderProjection) (leader : Option LeaderProjection) : Option LeaderProjection :=
  some (change (leader.getD noLeader))

def GroupProjection.drop (group : GroupProjection) (deviceId : String) (now : UInt64) : GroupProjection :=
  {group with members := group.members.filter (· ≠ deviceId),modifiedAtNs := now}

def GroupProjection.join (group : GroupProjection) (deviceId : String) (now : UInt64) : GroupProjection :=
  {group with members := if group.members.any (· == deviceId) then group.members else group.members ++ [deviceId],
              modifiedAtNs := now}

-- Only the removal of the explicit leader takes the pending successor, which is then
-- the explicit leader; without one the group is left without.
def removeMemberFromGroup (view : DomainStateView) (groupId deviceId : String) (now : UInt64) : DomainStateView :=
  let leaderLookup := (view.leaders[groupId]?).bind LeaderProjection.explicitLeader
  match view.groups[groupId]? with
  | none => view
  | some group =>
    let kept := group.drop deviceId now
    if leaderLookup = some deviceId then
      {view with groups := view.groups.insert groupId {kept with pendingSuccessor := none},
                 leaders := view.leaders.modify groupId fun row => {row with explicitLeader := group.pendingSuccessor}}
    else {view with groups := view.groups.insert groupId kept}

def setGroupLeader (view : DomainStateView) (groupId leaderDeviceId : String) (now : UInt64) : DomainStateView :=
  match view.groups[groupId]? with
  | none => view
  | some group =>
    if group.members.any (· == leaderDeviceId) then
      {view with leaders := view.leaders.alter groupId (orDefault fun row => {row with explicitLeader := some leaderDeviceId}),
                 groups := view.groups.modify groupId fun row => {row with modifiedAtNs := now}}
    else view

def DomainStateView.apply (view : DomainStateView) (w : DomainWitness) : DomainStateView :=
  let view := {view with endpoints := view.endpoints.apply w}
  match w.op with
  | .admitPeer deviceId displayName publicKeyB64 _ =>
    {view with trust := view.trust.insert deviceId ⟨deviceId,displayName,publicKeyB64,w.tsNs,none,none,.admitted⟩}
  | .discardPeer deviceId reason =>
    {view with trust := view.trust.modify deviceId fun row =>
      {row with state := .discarded,discardedAtNs := some w.tsNs,discardReason := reason}}
  | .renamePeerDisplayName deviceId newDisplayName =>
    {view with trust := view.trust.modify deviceId fun row => {row with displayName := newDisplayName}}
  | .updatePeerEndpoints .. => view
  | .createGroup groupId displayName initialMembers =>
    {view with groups := view.groups.insert groupId
                 ⟨groupId,displayName,initialMembers,w.tsNs,w.tsNs,none,DEFAULT_GROUP_LEADER_MS⟩,
               leaders := view.leaders.alter groupId (orDefault id)}
  | .deleteGroup groupId => {view with groups := view.groups.erase groupId,leaders := view.leaders.erase groupId}
  | .renameGroup groupId newDisplayName =>
    {view with groups := view.groups.modify groupId fun row => {row with displayName := newDisplayName,modifiedAtNs := w.tsNs}}
  | .addMemberToGroup groupId deviceId =>
    {view with groups := view.groups.modify groupId fun row => row.join deviceId w.tsNs}
  | .removeMemberFromGroup groupId deviceId => removeMemberFromGroup view groupId deviceId w.tsNs
  | .moveMember deviceId fromGroupId toGroupId =>
    let left := view.groups.modify fromGroupId fun row => row.drop deviceId w.tsNs
    {view with groups := left.modify toGroupId fun row => row.join deviceId w.tsNs}
  | .setGroupLeader groupId leaderDeviceId => setGroupLeader view groupId leaderDeviceId w.tsNs
  | .setGroupLeaderMs groupId leaderMs =>
    {view with groups := view.groups.modify groupId fun row => {row with leaderMs,modifiedAtNs := w.tsNs}}
  | .selectSuccessorOnLeaderRemoval groupId successorDeviceId =>
    {view with groups := view.groups.modify groupId fun row =>
      if row.members.any (· == successorDeviceId) then
        {row with pendingSuccessor := some successorDeviceId,modifiedAtNs := w.tsNs}
      else row}
  | .cancelSuccessorSelection groupId =>
    {view with groups := view.groups.modify groupId fun row => {row with pendingSuccessor := none,modifiedAtNs := w.tsNs}}
  | .pinSourceHost groupId sourceHostDeviceId =>
    {view with leaders := view.leaders.alter groupId (orDefault fun row => {row with pinnedSourceHost := some sourceHostDeviceId}),
               groups := view.groups.modify groupId fun row => {row with modifiedAtNs := w.tsNs}}
  | .unpinSourceHost groupId =>
    {view with leaders := view.leaders.modify groupId fun row => {row with pinnedSourceHost := none},
               groups := view.groups.modify groupId fun row => {row with modifiedAtNs := w.tsNs}}
  | .declareNetworkRelay networks capabilities =>
    {view with relays := view.relays.insert w.originatorDeviceId ⟨w.originatorDeviceId,networks,capabilities,w.tsNs⟩}

-- The fold of project_chain, before it stamps length and head on the result.
def applied (chain : List DomainWitness) : DomainStateView := chain.foldl DomainStateView.apply emptyView

def projectChain (crates : DomainCrates) (chain : List DomainWitness) : DomainStateView :=
  let view := {applied chain with chainLength := chain.length}
  match chain.getLast? with
  | none => view
  | some last => {view with chainHeadB64 := canonicalHashB64 crates last}

@[simp] theorem projectChain_trust : (projectChain crates chain).trust = (applied chain).trust := by
  unfold projectChain; dsimp only; split <;> rfl
@[simp] theorem projectChain_groups : (projectChain crates chain).groups = (applied chain).groups := by
  unfold projectChain; dsimp only; split <;> rfl
@[simp] theorem projectChain_leaders : (projectChain crates chain).leaders = (applied chain).leaders := by
  unfold projectChain; dsimp only; split <;> rfl

@[simp] theorem applied_snoc : applied (chain++[w]) = (applied chain).apply w := by
  simp [applied]

end EvoCore.DomainProjection
