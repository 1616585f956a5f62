import EvoCore.GroupStore
import EvoCore.ChainHistory
import EvoCore.HonestSigners
import EvoCore.Runs

namespace EvoCore.Groups
open Actions DomainEntries IdealCrates HonestSigners ChainHistory ChainAppend ChainSteps DomainProjection DomainRuntime Runs Std

-- A group as the people who use it know it, whoever keeps the record.
structure Room where
  displayName : String
  members : List String
  createdAtMs : UInt64
  modifiedAtMs : UInt64
  pinnedSourceHost : Option String
  explicitLeader : Option String
  pendingSuccessor : Option String
  leaderMs : UInt32
deriving DecidableEq,Repr

abbrev Rooms := ExtTreeMap String Room

namespace Room

def founded (displayName : String) (members : List String) (now : UInt64) : Room :=
  ⟨displayName,members,now,now,none,none,none,DEFAULT_GROUP_LEADER_MS⟩

def renamed (room : Room) (displayName : String) (now : UInt64) : Room := {room with displayName,modifiedAtMs := now}

def joined (room : Room) (deviceId : String) (now : UInt64) : Room :=
  {room with members := room.members ++ [deviceId],modifiedAtMs := now}

def without (room : Room) (deviceId : String) (now : UInt64) : Room :=
  {room with members := room.members.filter (· ≠ deviceId),modifiedAtMs := now}

-- A leader who leaves hands over to the chosen successor.
def left (room : Room) (deviceId : String) (now : UInt64) : Room :=
  if room.explicitLeader = some deviceId then
    {room.without deviceId now with explicitLeader := room.pendingSuccessor,pendingSuccessor := none}
  else room.without deviceId now

def budgeted (room : Room) (leaderMs : UInt32) (now : UInt64) : Room := {room with leaderMs,modifiedAtMs := now}

def pinned (room : Room) (pinnedSourceHost : Option String) (now : UInt64) : Room :=
  {room with pinnedSourceHost,modifiedAtMs := now}

def shown (room : Room) (groupId : String) : Group :=
  {groupId,displayName := room.displayName,members := room.members,createdAtMs := room.createdAtMs,
   modifiedAtMs := room.modifiedAtMs,pinnedSourceHost := room.pinnedSourceHost,
   effectiveLeader := resolveEffectiveLeader room.members room.pinnedSourceHost room.explicitLeader,
   leaderMs := room.leaderMs}

end Room

def inMs (ns : UInt64) : UInt64 := ns / 1000000

def moved (rooms : Rooms) (fromGroupId toGroupId deviceId : String) (source target : Room) (now : UInt64) : Rooms :=
  let left := source.without deviceId now
  let reduced := if left.members.length < 2 then rooms.erase fromGroupId
    else rooms.insert fromGroupId {left with pinnedSourceHost := source.pinnedSourceHost.filter (· != deviceId)}
  reduced.insert toGroupId (target.joined deviceId now)

-- What each method says it does to the groups; none where it says that it refuses.
def documented (draws : Draws) (rooms : Rooms) : Request → Option Rooms
  | .create displayName ids =>
    match validateDisplayName displayName,sanitiseMembers ids with
    | .ok display,.ok members =>
      if members = [] then none else some (rooms.insert draws.groupId (.founded display members (inMs draws.nowNs)))
    | _,_ => none
  | .upsertWithId groupId displayName ids =>
    match validateDisplayName displayName,sanitiseMembers ids with
    | .ok display,.ok members =>
      if members = [] then none else
      match rooms[groupId]? with
      | none => some (rooms.insert groupId (.founded display members draws.nowMs))
      | some room =>
        if room.displayName = display ∧ room.members.Perm members then some rooms
        else some (rooms.insert groupId {room.renamed display draws.nowMs with members})
    | _,_ => none
  | .rename groupId newDisplayName =>
    match validateDisplayName newDisplayName,rooms[groupId]? with
    | .ok display,some room => some (rooms.insert groupId (room.renamed display (inMs draws.nowNs)))
    | _,_ => none
  | .addMember groupId deviceId =>
    match validateMemberId deviceId,rooms[groupId]? with
    | .ok device,some room =>
      some (if device ∈ room.members then rooms else rooms.insert groupId (room.joined device (inMs draws.nowNs)))
    | _,_ => none
  | .removeMember groupId deviceId =>
    match rooms[groupId]? with
    | none => none
    | some room =>
      if deviceId ∉ room.members then some rooms
      else if room.members.length = 1 then none
      else some (rooms.insert groupId (room.left deviceId (inMs draws.nowNs)))
  | .moveMember fromGroupId toGroupId deviceId =>
    match rooms[fromGroupId]?,rooms[toGroupId]? with
    | some source,some target =>
      if fromGroupId = toGroupId ∨ deviceId ∉ source.members ∨ deviceId ∈ target.members ∨ source.members.length = 1 then none
      else some (moved rooms fromGroupId toGroupId deviceId source target draws.nowMs)
    | _,_ => none
  | .setLeaderMs groupId leaderMs =>
    match rooms[groupId]? with
    | none => none
    | some room =>
      if 10 ≤ leaderMs ∧ leaderMs ≤ 5000 then
        some (if room.leaderMs = leaderMs then rooms else rooms.insert groupId (room.budgeted leaderMs (inMs draws.nowNs)))
      else none
  | .pinSourceHost groupId deviceId =>
    match rooms[groupId]? with
    | none => none
    | some room =>
      if deviceId ∉ room.members then none
      else some (if room.pinnedSourceHost = some deviceId then rooms
        else rooms.insert groupId (room.pinned (some deviceId) (inMs draws.nowNs)))
  | .unpinSourceHost groupId =>
    match rooms[groupId]? with
    | none => none
    | some room =>
      some (if room.pinnedSourceHost = none then rooms else rooms.insert groupId (room.pinned none (inMs draws.nowNs)))
  | .delete groupId => some (rooms.erase groupId)

def roomOf (row : GroupProjection) (leader : Option LeaderProjection) : Room :=
  ⟨row.displayName,row.members,inMs row.createdAtNs,inMs row.modifiedAtNs,leader.bind LeaderProjection.pinnedSourceHost,
   leader.bind LeaderProjection.explicitLeader,row.pendingSuccessor,row.leaderMs⟩

-- The groups a projection of the chain stands for.
def roomsOf (view : DomainStateView) : Rooms := view.groups.map fun groupId row => roomOf row view.leaders[groupId]?

variable {crates : DomainCrates} {draws : Draws} {view next : DomainStateView} {s t : GroupStore} {rt : DomainWitnessRuntime}
  {w : DomainWitness} {room : Room} {rooms : Rooms}

theorem unmoved_upsert {groupId displayName display : String} {ids members : List String}
    (named : validateDisplayName displayName = .ok display) (kept : sanitiseMembers ids = .ok members) (given : members ≠ []) :
    documented draws rooms (.upsertWithId groupId displayName ids) = some rooms ↔
      ∃ room,rooms[groupId]? = some room ∧ room.displayName = display ∧ room.members.Perm members := by
  simp only [documented,named,kept,if_neg given]
  cases there : rooms[groupId]? with
  | none =>
    refine iff_of_false (fun same => ?_) (fun ⟨_,found,_⟩ => by cases found)
    have after := congrArg (·[groupId]?) (Option.some.inj same)
    simp [there] at after
  | some room =>
    by_cases same : room.displayName = display ∧ room.members.Perm members
    · exact iff_of_true (by simp only [if_pos same]) ⟨room,rfl,same⟩
    · refine iff_of_false (fun replaced => ?_) (fun ⟨_,found,also⟩ => by cases found; exact same also)
      simp only [if_neg same] at replaced
      have after := congrArg (·[groupId]?) (Option.some.inj replaced)
      simp only [ExtTreeMap.getElem?_insert_self,there,Option.some.injEq] at after
      refine same ⟨?_,?_⟩
      · rw [← after]; rfl
      · rw [← after]

theorem unmoved_move {fromGroupId toGroupId deviceId : String} :
    documented draws rooms (.moveMember fromGroupId toGroupId deviceId) ≠ some rooms := by
  intro same
  simp only [documented] at same
  split at same
  · rename_i source target _ there
    split at same
    · cases same
    · rename_i allowed
      have after := congrArg (·[toGroupId]?) (Option.some.inj same)
      simp only [moved,ExtTreeMap.getElem?_insert_self,there,Option.some.injEq] at after
      apply allowed
      refine .inr (.inr (.inl ?_))
      rw [← after]
      simp [Room.joined]
  · cases same

theorem roomsOf_at (groupId : String) :
    (roomsOf view)[groupId]? = (view.groups[groupId]?).map fun row => roomOf row view.leaders[groupId]? := by
  simp [roomsOf]

theorem roomsOf_insert {groupId : String} (here : (roomsOf next)[groupId]? = some room)
    (others : ∀ k,k ≠ groupId → next.groups[k]? = view.groups[k]? ∧ next.leaders[k]? = view.leaders[k]?) :
    roomsOf next = (roomsOf view).insert groupId room := by
  apply ExtTreeMap.ext_getElem?
  intro k
  by_cases same : k = groupId
  · rw [same,here]
    simp
  · rw [roomsOf_at,(others k same).1,(others k same).2,ExtTreeMap.getElem?_insert]
    simp [roomsOf_at,Ne.symm same]

theorem room_there {groupId : String} (there : (roomsOf view)[groupId]? = some room) :
    ∃ row,view.groups[groupId]? = some row ∧ roomOf row view.leaders[groupId]? = room := by
  rw [roomsOf_at] at there
  cases present : view.groups[groupId]? with
  | none =>
    rw [present] at there
    cases there
  | some row =>
    rw [present] at there
    exact ⟨row,rfl,Option.some.inj there⟩

theorem modified_acts {groupId : String} {change : GroupProjection → GroupProjection} {after : Room}
    (there : (roomsOf view)[groupId]? = some room) (groups : next.groups = view.groups.modify groupId change)
    (leaders : next.leaders = view.leaders) (becomes : ∀ row leader,roomOf row leader = room → roomOf (change row) leader = after) :
    roomsOf next = (roomsOf view).insert groupId after := by
  obtain ⟨row,present,shape⟩ := room_there there
  apply roomsOf_insert
  · simp [roomsOf_at,groups,leaders,present,becomes row _ shape]
  · intro k apart
    simp [groups,leaders,ExtTreeMap.getElem?_modify,apart.symm]

theorem create_acts {groupId : String} (unled : view.leaders[groupId]? = none) (op : w.op = .createGroup groupId display members) :
    roomsOf (view.apply w) = (roomsOf view).insert groupId (.founded display members (inMs w.tsNs)) := by
  apply roomsOf_insert
  · simp [roomsOf_at,DomainStateView.apply,op,unled,orDefault,roomOf,Room.founded,noLeader]
  · intro k apart
    simp [DomainStateView.apply,op,ExtTreeMap.getElem?_insert,ExtTreeMap.getElem?_alter,apart.symm]

theorem rename_acts {groupId : String} (there : (roomsOf view)[groupId]? = some room) (op : w.op = .renameGroup groupId display) :
    roomsOf (view.apply w) = (roomsOf view).insert groupId (room.renamed display (inMs w.tsNs)) := by
  rw [DomainStateView.apply,op]
  exact modified_acts there rfl rfl fun _ _ shape => shape ▸ rfl

theorem budget_acts {groupId : String} (there : (roomsOf view)[groupId]? = some room)
    (op : w.op = .setGroupLeaderMs groupId leaderMs) :
    roomsOf (view.apply w) = (roomsOf view).insert groupId (room.budgeted leaderMs (inMs w.tsNs)) := by
  rw [DomainStateView.apply,op]
  exact modified_acts there rfl rfl fun _ _ shape => shape ▸ rfl

theorem join_acts {groupId deviceId : String} (there : (roomsOf view)[groupId]? = some room) (outside : deviceId ∉ room.members)
    (op : w.op = .addMemberToGroup groupId deviceId) :
    roomsOf (view.apply w) = (roomsOf view).insert groupId (room.joined deviceId (inMs w.tsNs)) := by
  rw [DomainStateView.apply,op]
  refine modified_acts there rfl rfl ?_
  rintro row _ rfl
  have absent : deviceId ∉ row.members := outside
  simp [roomOf,Room.joined,GroupProjection.join,absent]

theorem leave_acts {groupId deviceId : String} (there : (roomsOf view)[groupId]? = some room)
    (op : w.op = .removeMemberFromGroup groupId deviceId) :
    roomsOf (view.apply w) = (roomsOf view).insert groupId (room.left deviceId (inMs w.tsNs)) := by
  obtain ⟨row,present,rfl⟩ := room_there there
  by_cases leads : (view.leaders[groupId]?).bind LeaderProjection.explicitLeader = some deviceId
  · obtain ⟨leader,led,named⟩ := Option.bind_eq_some_iff.mp leads
    apply roomsOf_insert
    · simp [roomsOf_at,DomainStateView.apply,op,removeMemberFromGroup,present,led,named,roomOf,Room.left,Room.without,
        GroupProjection.drop]
    · intro k apart
      simp [DomainStateView.apply,op,removeMemberFromGroup,present,led,named,ExtTreeMap.getElem?_insert,
        ExtTreeMap.getElem?_modify,apart.symm]
  · apply roomsOf_insert
    · simp [roomsOf_at,DomainStateView.apply,op,removeMemberFromGroup,present,leads,roomOf,Room.left,Room.without,
        GroupProjection.drop]
    · intro k apart
      simp [DomainStateView.apply,op,removeMemberFromGroup,present,leads,ExtTreeMap.getElem?_insert,apart.symm]

theorem pin_acts {groupId deviceId : String} (there : (roomsOf view)[groupId]? = some room)
    (op : w.op = .pinSourceHost groupId deviceId) :
    roomsOf (view.apply w) = (roomsOf view).insert groupId (room.pinned (some deviceId) (inMs w.tsNs)) := by
  obtain ⟨row,present,rfl⟩ := room_there there
  apply roomsOf_insert
  · cases led : view.leaders[groupId]? <;>
      simp [roomsOf_at,DomainStateView.apply,op,present,led,orDefault,noLeader,roomOf,Room.pinned]
  · intro k apart
    simp [DomainStateView.apply,op,ExtTreeMap.getElem?_modify,ExtTreeMap.getElem?_alter,apart.symm]

theorem unpin_acts {groupId : String} (there : (roomsOf view)[groupId]? = some room) (op : w.op = .unpinSourceHost groupId) :
    roomsOf (view.apply w) = (roomsOf view).insert groupId (room.pinned none (inMs w.tsNs)) := by
  obtain ⟨row,present,rfl⟩ := room_there there
  apply roomsOf_insert
  · cases led : view.leaders[groupId]? <;>
      simp [roomsOf_at,DomainStateView.apply,op,present,led,roomOf,Room.pinned]
  · intro k apart
    simp [DomainStateView.apply,op,ExtTreeMap.getElem?_modify,apart.symm]

theorem delete_acts {groupId : String} (op : w.op = .deleteGroup groupId) :
    roomsOf (view.apply w) = (roomsOf view).erase groupId := by
  apply ExtTreeMap.ext_getElem?
  intro k
  by_cases same : k = groupId
  · simp [roomsOf_at,DomainStateView.apply,op,same]
  · simp [roomsOf_at,DomainStateView.apply,op,ExtTreeMap.getElem?_erase,Ne.symm same]

-- Every row of a projection carries the id it stands under.
def Keyed (view : DomainStateView) : Prop := ∀ (groupId : String) row,view.groups[groupId]? = some row → row.groupId = groupId

theorem keyed_modify {groupId : String} (keyed : Keyed view) (groups : next.groups = view.groups.modify groupId change)
    (keeps : ∀ row,(change row).groupId = row.groupId) : Keyed next := by
  intro k row there
  rw [groups,ExtTreeMap.getElem?_modify] at there
  split at there
  · rename_i same
    obtain ⟨old,present,rfl⟩ := Option.map_eq_some_iff.mp there
    rw [keeps,keyed groupId old present]
    exact Std.compare_eq_iff_eq.mp same
  · exact keyed k row there

theorem keyed_insert {groupId : String} (keyed : Keyed view) (groups : next.groups = view.groups.insert groupId row)
    (named : row.groupId = groupId) : Keyed next := by
  intro k other there
  rw [groups,ExtTreeMap.getElem?_insert] at there
  split at there
  · rename_i same
    cases there
    rw [named]
    exact Std.compare_eq_iff_eq.mp same
  · exact keyed k other there

theorem keyed_same (keyed : Keyed view) (groups : next.groups = view.groups) : Keyed next := by
  intro k row there
  rw [groups] at there
  exact keyed k row there

theorem remove_keyed (keyed : Keyed view) : Keyed (removeMemberFromGroup view groupId deviceId now) := by
  unfold removeMemberFromGroup
  dsimp only
  split
  · exact keyed
  · rename_i group present
    have named : group.groupId = groupId := keyed groupId group present
    split
    · exact keyed_insert keyed rfl named
    · exact keyed_insert keyed rfl named

theorem lead_keyed (keyed : Keyed view) : Keyed (setGroupLeader view groupId leaderDeviceId now) := by
  unfold setGroupLeader
  split
  · exact keyed
  · split
    · exact keyed_modify keyed rfl fun _ => rfl
    · exact keyed

theorem apply_keyed (keyed : Keyed view) : Keyed (view.apply w) := by
  have before : Keyed {view with endpoints := view.endpoints.apply w} := keyed
  unfold DomainStateView.apply
  dsimp only
  split
  case h_5 => exact keyed_insert before rfl rfl
  case h_6 groupId _ =>
    intro k row there
    simp only [ExtTreeMap.getElem?_erase] at there
    split at there
    · cases there
    · exact keyed k row there
  case h_9 => exact remove_keyed before
  case h_10 deviceId fromGroupId toGroupId _ =>
    have halfway : Keyed {view with groups := view.groups.modify fromGroupId fun row => row.drop deviceId w.tsNs} :=
      keyed_modify keyed rfl fun _ => rfl
    exact keyed_modify halfway rfl fun _ => rfl
  case h_11 => exact lead_keyed before
  case h_13 =>
    refine keyed_modify before rfl ?_
    intro row
    split <;> rfl
  case h_7 | h_8 | h_12 | h_14 | h_15 | h_16 => exact keyed_modify before rfl fun _ => rfl
  all_goals exact keyed_same before rfl

theorem applied_keyed (chain : List DomainWitness) : Keyed (applied chain) := by
  refine run_keeps (fun _ _ keyed => apply_keyed keyed) ?_
  intro k row there
  simp [emptyView] at there


-- The store is bound, its runtime shows the groups of its chain, and those are `rooms`.
structure Holds (crates : DomainCrates) (s : GroupStore) (rt : DomainWitnessRuntime) (rooms : Rooms) : Prop where
  bound : s.witnessRuntime = some rt
  groups : rt.projection.groups = (projectChain crates rt.chain.entries).groups
  leaders : rt.projection.leaders = (projectChain crates rt.chain.entries).leaders
  rooms : rooms = roomsOf rt.projection

def Shows (crates : DomainCrates) (s : GroupStore) (rooms : Rooms) : Prop := ∃ rt,Holds crates s rt rooms

theorem roomsOf_same (groups : next.groups = view.groups) (leaders : next.leaders = view.leaders) : roomsOf next = roomsOf view := by
  rw [roomsOf,roomsOf,groups,leaders]

theorem Holds.keyed (held : Holds crates s rt rooms) : Keyed rt.projection :=
  keyed_same (applied_keyed rt.chain.entries) (by rw [held.groups,projectChain_groups])

theorem Holds.projected (held : Holds crates s rt rooms) : rooms = roomsOf (projectChain crates rt.chain.entries) :=
  held.rooms.trans (roomsOf_same held.groups held.leaders)

theorem Holds.elsewhere (held : Holds crates s rt rooms) (same : t.witnessRuntime = s.witnessRuntime) :
    Holds crates t rt rooms := ⟨same.trans held.bound,held.groups,held.leaders,held.rooms⟩

theorem Shows.elsewhere (shows_ : Shows crates s rooms) (same : t.witnessRuntime = s.witnessRuntime) : Shows crates t rooms := by
  obtain ⟨rt,held⟩ := shows_
  exact ⟨rt,held.elsewhere same⟩

theorem shown_row (keyed : Keyed view) {groupId : String} {row : GroupProjection} (there : view.groups[groupId]? = some row) :
    projectionToGroup view row = (roomOf row view.leaders[groupId]?).shown groupId := by
  simp [projectionToGroup,Room.shown,roomOf,inMs,keyed groupId row there]

theorem get_shows (held : Holds crates s rt rooms) (groupId : String) :
    GroupStore.get groupId s = .ok ((rooms[groupId]?).map fun room => room.shown groupId) s := by
  have read : GroupStore.get groupId s = .ok ((rt.projection.groups[groupId]?).map (projectionToGroup rt.projection)) s := by
    simp only [GroupStore.get,boundRuntime,bind,EStateM.bind,held.bound]
    rfl
  rw [read,held.rooms,roomsOf_at]
  cases present : rt.projection.groups[groupId]? with
  | none => rfl
  | some row => simp [shown_row held.keyed present]

theorem list_shows (held : Holds crates s rt rooms) :
    GroupStore.list s = .ok (rooms.toList.map fun entry => entry.2.shown entry.1) s := by
  have read : GroupStore.list s =
      .ok (rt.projection.groups.toList.map fun entry => projectionToGroup rt.projection entry.2) s := by
    simp only [GroupStore.list,boundRuntime,bind,EStateM.bind,held.bound]
    rfl
  rw [read,held.rooms,roomsOf,ExtTreeMap.toList_map,List.map_map]
  congr 1
  apply List.map_congr_left
  intro entry member
  exact shown_row held.keyed (ExtTreeMap.mem_toList_iff_getElem?_eq_some.mp member)

theorem existing_shows (held : Holds crates s rt rooms) (groupId : String) :
    GroupStore.existing groupId s = match rooms[groupId]? with
      | none => .error (.notFound groupId) s
      | some room => .ok (room.shown groupId) s := by
  simp only [GroupStore.existing,bind,EStateM.bind,get_shows held]
  cases rooms[groupId]? <;> rfl

-- Where a line of a method may go, for a store that is bound.
variable {α β : Type} {f : α → Act β} {after : Act β} {returned : β → GroupStore → Prop} {failed : GroupStore → Prop}

theorem checked_ends {check : Except GroupError α} (refused : ∀ e,check = .error e → failed s)
    (passed : ∀ a,check = .ok a → Ends (f a) s returned failed) : Ends (checked check >>= f) s returned failed := by
  rw [ends_bind]
  cases check with
  | error e => exact ends_throw.mpr (refused e rfl)
  | ok a => exact ends_pure.mpr (passed a rfl)

theorem refuseIf_ends {condition : Bool} {error : GroupError} {f : Unit → Act β} (refused : condition = true → failed s)
    (passed : condition = false → Ends (f ()) s returned failed) : Ends (refuseIf condition error >>= f) s returned failed := by
  rw [ends_bind]
  cases condition with
  | true => exact ends_throw.mpr (refused rfl)
  | false => exact ends_pure.mpr (passed rfl)

theorem existing_ends {f : Group → Act β} (held : Holds crates s rt rooms) {groupId : String}
    (absent : rooms[groupId]? = none → failed s)
    (present : ∀ room,rooms[groupId]? = some room → Ends (f (room.shown groupId)) s returned failed) :
    Ends (GroupStore.existing groupId >>= f) s returned failed := by
  have read := existing_shows held groupId
  rw [ends_bind]
  cases there : rooms[groupId]? with
  | none =>
    rw [there] at read
    exact (ends_refused read).mpr (absent there)
  | some room =>
    rw [there] at read
    exact (ends_known read).mpr (present room there)

theorem onlyIf_ends {condition : Bool} {action : Act Unit} {f : Unit → Act β}
    (taken : condition = true → Ends (action >>= f) s returned failed)
    (skipped : condition = false → Ends (f ()) s returned failed) : Ends (onlyIf condition action >>= f) s returned failed := by
  cases condition with
  | true => exact taken rfl
  | false =>
    rw [ends_bind]
    exact ends_pure.mpr (skipped rfl)

theorem canonical_ends {action : Act Unit} {f : Unit → Act β} (held : Holds crates s rt rooms)
    (passed : Ends (f ()) s returned failed) : Ends (unlessCanonical action >>= f) s returned failed := by
  have skipped : unlessCanonical action s = .ok () s := by
    simp only [unlessCanonical,chainIsCanonical,boundRuntime,bind,EStateM.bind,held.bound]
    rfl
  rw [ends_bind,ends_known skipped]
  exact passed

def Unused (rt : DomainWitnessRuntime) (draws : Draws) : Prop := ∀ e ∈ rt.chain.entries,e.id ≠ draws.witnessId

theorem linear_cases (crates : DomainCrates) (io : FileResult) (c : DomainChain) (w : DomainWitness) :
    (∃ e log,linearAppend crates io c w = (.error e,{c with log})) ∨
    ∃ grown,linearAppend crates io c w = (.ok .applied,grown) ∧ grown.entries = c.entries ++ [w] := by
  unfold linearAppend orReturn
  split
  · exact .inl ⟨_,c.log,rfl⟩
  · unfold extend
    rcases persistEntry crates io c w with ⟨⟨e⟩ | ⟨⟩,log⟩
    · exact .inl ⟨e,log,rfl⟩
    · cases updatePublicKeys crates c.publicKeys w with
      | error e => exact .inl ⟨e,log,rfl⟩
      | ok keys => exact .inr ⟨_,rfl,rfl⟩

-- A gesture of this seat names the head, so it extends the chain or leaves it as it was.
theorem gesture_cases (crates : DomainCrates) (unused : Unused rt draws) (op : DomainStateOp) :
    (∃ e next,appendLocalGesture crates draws.io draws.witnessId draws.nowNs rt op [] = (.error e,next) ∧
      next.chain.entries = rt.chain.entries ∧ next.projection = rt.projection) ∨
    ∃ w next,w.op = op ∧ w.tsNs = draws.nowNs ∧
      appendLocalGesture crates draws.io draws.witnessId draws.nowNs rt op [] = (.ok (w,.applied),next) ∧
      next.chain.entries = rt.chain.entries ++ [w] ∧ next.projection = refreshed crates next.chain := by
  unfold appendLocalGesture
  dsimp only
  generalize signed : sign crates rt.signingKey draws.witnessId rt.chain.headHashB64 draws.nowNs rt.localDeviceId [] op = w
  have fresh : ¬ Known rt.chain w := by
    rintro ⟨e,member,same⟩
    rw [← signed] at same
    exact unused e member same
  have onHead : w.prevHashB64 = rt.chain.headHashB64 := by rw [← signed]; rfl
  have linear : tryAppend crates draws.io rt.chain w = linearAppend crates draws.io rt.chain w := by
    rw [tryAppend,if_neg (fun known => fresh (known_iff.mp known)),if_neg (not_not_intro onHead)]
  rw [linear]
  rcases linear_cases crates draws.io rt.chain w with ⟨e,log,refused⟩ | ⟨grown,applied,entries⟩
  · rw [refused]
    exact .inl ⟨_,_,rfl,rfl,rfl⟩
  · rw [applied]
    exact .inr ⟨w,_,by rw [← signed]; rfl,by rw [← signed]; rfl,rfl,entries,rfl⟩

-- What a gesture of this seat makes of the groups it is made over.
def Makes (draws : Draws) (rt : DomainWitnessRuntime) (rooms : Rooms) (op : DomainStateOp) (changed : Rooms) : Prop :=
  ∀ view w,roomsOf view = rooms → view.leaders = rt.projection.leaders → w.op = op → w.tsNs = draws.nowNs →
    roomsOf (view.apply w) = changed

theorem makes_insert {groupId : String} {op : DomainStateOp} {change : UInt64 → Room}
    (acts : ∀ view w,roomsOf view = rooms → view.leaders = rt.projection.leaders → w.op = op →
      roomsOf (view.apply w) = (roomsOf view).insert groupId (change (inMs w.tsNs))) :
    Makes draws rt rooms op (rooms.insert groupId (change (inMs draws.nowNs))) := by
  intro view w same led named stamped
  rw [acts view w same led named,same,stamped]

-- The groups after a gesture are those of one more application, and a refused one changes none.
theorem chainAppend_ends {f : Unit → Act β} {op : DomainStateOp} {changed : Rooms} (held : Holds crates s rt rooms)
    (unused : Unused rt draws) (makes : Makes draws rt rooms op changed) (refused : ∀ t,Shows crates t rooms → failed t)
    (passed : ∀ t next,Holds crates t next changed → Ends (f ()) t returned failed) :
    Ends (GroupStore.chainAppend crates draws op >>= f) s returned failed := by
  rw [ends_bind]
  rcases gesture_cases crates unused op with ⟨e,next,result,entries,projection⟩ | ⟨w,next,named,stamped,result,entries,projection⟩
  · have run : GroupStore.chainAppend crates draws op s = .error (.chain (.runtime e)) {s with witnessRuntime := some next} := by
      simp only [GroupStore.chainAppend,held.bound,result]
    refine (ends_refused run).mpr (refused _ ⟨next,rfl,?_,?_,?_⟩)
    · rw [projection,entries,held.groups]
    · rw [projection,entries,held.leaders]
    · rw [projection,held.rooms]
  · have run : GroupStore.chainAppend crates draws op s = .ok () {s with witnessRuntime := some next} := by
      simp only [GroupStore.chainAppend,held.bound,result,AppendOutcome.isCanonical,if_true]
    refine (ends_known run).mpr (passed _ next ⟨rfl,?_,?_,?_⟩)
    · rw [projection]; rfl
    · rw [projection]; rfl
    · have before : roomsOf (applied rt.chain.entries) = rooms := by
        rw [held.projected]
        exact roomsOf_same projectChain_groups.symm projectChain_leaders.symm
      have led : (applied rt.chain.entries).leaders = rt.projection.leaders := by rw [held.leaders,projectChain_leaders]
      rw [← makes (applied rt.chain.entries) w before led named stamped,projection,← applied_snoc,← entries]
      exact roomsOf_same projectChain_groups.symm projectChain_leaders.symm

-- An action does what is documented of a request, or is refused and changes nothing.
def Documents (crates : DomainCrates) (draws : Draws) (rooms : Rooms) (request : Request) (x : Act α) (s : GroupStore) : Prop :=
  Ends x s (fun _ t => ∃ after,documented draws rooms request = some after ∧ Shows crates t after) (fun t => Shows crates t rooms)

theorem emit_runs (happening : GroupHappening) (s : GroupStore) :
    emit happening s = .ok () {s with happenings := s.happenings ++ [happening]} := rfl

theorem broadcast_runs (change : GroupChange) (s : GroupStore) :
    broadcast change s = .ok () {s with changes := s.changes ++ [change]} := rfl

theorem emit_ends {happening : GroupHappening} {f : Unit → Act β}
    (passed : ∀ t,t.witnessRuntime = s.witnessRuntime → Ends (f ()) t returned failed) :
    Ends (emit happening >>= f) s returned failed := by
  rw [ends_bind,ends_known (emit_runs happening s)]
  exact passed _ rfl

theorem broadcast_ends {change : GroupChange} {f : Unit → Act β}
    (passed : ∀ t,t.witnessRuntime = s.witnessRuntime → Ends (f ()) t returned failed) :
    Ends (broadcast change >>= f) s returned failed := by
  rw [ends_bind,ends_known (broadcast_runs change s)]
  exact passed _ rfl

theorem pure_documents {a : α} {request : Request} {changed : Rooms} (held : Holds crates s rt changed)
    (asks : documented draws rooms request = some changed) : Documents crates draws rooms request (pure a) s :=
  ends_pure.mpr ⟨changed,asks,rt,held⟩

-- Telling others does not fail and changes nothing that is read.
def Tells (told : Act Unit) : Prop := ∀ s,∃ t,told s = .ok () t ∧ t.witnessRuntime = s.witnessRuntime

theorem broadcast_tells (change : GroupChange) : Tells (broadcast change) := fun s => ⟨_,broadcast_runs change s,rfl⟩

theorem both_tell (happening : GroupHappening) (change : GroupChange) : Tells (do emit happening; broadcast change) :=
  fun s => ⟨{s with happenings := _,changes := _},rfl,rfl⟩

theorem onlyIf_tells {condition : Bool} {told : Act Unit} (telling : Tells told) : Tells (onlyIf condition told) := by
  cases condition with
  | true => exact telling
  | false => exact fun s => ⟨s,rfl,rfl⟩

theorem announced {told : Act Unit} {a : α} {request : Request} {changed : Rooms} (telling : Tells told)
    (held : Holds crates s rt changed) (asks : documented draws rooms request = some changed) :
    Documents crates draws rooms request (told >>= fun _ => pure a) s := by
  unfold Documents
  obtain ⟨t,told,same⟩ := telling s
  rw [ends_bind,ends_known told]
  exact pure_documents (held.elsewhere same) asks

theorem unworked {groupId : String} {request : Request} {told : Group → Act Unit} (held : Holds crates s rt rooms)
    (telling : ∀ group,Tells (told group)) (asks : documented draws rooms request = some rooms) :
    Documents crates draws rooms request (GroupStore.existing groupId >>= fun group => told group >>= fun _ => pure group) s := by
  unfold Documents
  exact existing_ends held (fun _ => ⟨rt,held⟩) fun room _ => announced (telling _) held asks

theorem reworked {groupId : String} {op : DomainStateOp} {request : Request} {changed : Room} {tables : Act Unit}
    {told : Group → Act Unit} (held : Holds crates s rt rooms) (unused : Unused rt draws) (telling : ∀ group,Tells (told group))
    (makes : Makes draws rt rooms op (rooms.insert groupId changed))
    (asks : documented draws rooms request = some (rooms.insert groupId changed)) :
    Documents crates draws rooms request (GroupStore.chainAppend crates draws op >>= fun _ => unlessCanonical tables >>= fun _ =>
      GroupStore.existing groupId >>= fun group => told group >>= fun _ => pure group) s := by
  unfold Documents
  refine chainAppend_ends held unused makes (fun _ same => same) fun t next grown => ?_
  refine canonical_ends grown (existing_ends grown (fun gone => ?_) fun room _ => announced (telling _) grown asks)
  simp at gone

theorem create_documents (held : Holds crates s rt rooms) (unused : Unused rt draws)
    (unled : rt.projection.leaders[draws.groupId]? = none) (displayName : String) (ids : List String) :
    Documents crates draws rooms (.create displayName ids) (GroupStore.create crates draws displayName ids) s := by
  unfold Documents GroupStore.create
  have untouched : Shows crates s rooms := ⟨rt,held⟩
  refine checked_ends (fun _ _ => untouched) fun display named => ?_
  refine checked_ends (fun _ _ => untouched) fun members kept => ?_
  refine refuseIf_ends (fun _ => untouched) fun some_ => ?_
  have given : members ≠ [] := by
    rintro rfl
    cases some_
  have asks : documented draws rooms (.create displayName ids) =
      some (rooms.insert draws.groupId (.founded display members (inMs draws.nowNs))) := by
    simp [documented,named,kept,given]
  have makes : Makes draws rt rooms (.createGroup draws.groupId display members) _ :=
    makes_insert fun _ _ _ led op => create_acts (led ▸ unled) op
  refine chainAppend_ends held unused makes (fun _ same => same) fun t next grown => ?_
  refine canonical_ends grown (emit_ends fun first same => broadcast_ends fun second again => ?_)
  exact pure_documents (grown.elsewhere (again.trans same)) asks

theorem rename_documents (held : Holds crates s rt rooms) (unused : Unused rt draws) (groupId newDisplayName : String) :
    Documents crates draws rooms (.rename groupId newDisplayName) (GroupStore.rename crates draws groupId newDisplayName) s := by
  unfold Documents GroupStore.rename
  have untouched : Shows crates s rooms := ⟨rt,held⟩
  refine checked_ends (fun _ _ => untouched) fun display named => ?_
  refine existing_ends held (fun _ => untouched) fun room there => ?_
  have asks : documented draws rooms (.rename groupId newDisplayName) =
      some (rooms.insert groupId (room.renamed display (inMs draws.nowNs))) := by
    simp [documented,named,there]
  exact reworked held unused (fun _ => both_tell _ _) (makes_insert fun _ _ same _ op => rename_acts (same ▸ there) op) asks

theorem delete_documents (held : Holds crates s rt rooms) (unused : Unused rt draws) (groupId : String) :
    Documents crates draws rooms (.delete groupId) (GroupStore.delete crates draws groupId) s := by
  unfold Documents GroupStore.delete
  rw [ends_bind,ends_known (get_shows held groupId)]
  cases there : rooms[groupId]? with
  | none =>
    refine ends_pure.mpr ⟨rooms.erase groupId,rfl,?_⟩
    have nothing : rooms.erase groupId = rooms := by
      apply ExtTreeMap.ext_getElem?
      intro k
      rw [ExtTreeMap.getElem?_erase]
      split
      · rename_i same
        rw [← Std.compare_eq_iff_eq.mp same,there]
      · rfl
    rw [nothing]
    exact ⟨rt,held⟩
  | some room =>
    have makes : Makes draws rt rooms (.deleteGroup groupId) (rooms.erase groupId) := fun _ _ same _ op _ => same ▸ delete_acts op
    refine chainAppend_ends held unused makes (fun _ same => same) fun t next grown => ?_
    refine canonical_ends grown (emit_ends fun first same => broadcast_ends fun second again => ?_)
    exact pure_documents (grown.elsewhere (again.trans same)) rfl

theorem add_documents (held : Holds crates s rt rooms) (unused : Unused rt draws) (groupId deviceId : String) :
    Documents crates draws rooms (.addMember groupId deviceId) (GroupStore.addMember crates draws groupId deviceId) s := by
  unfold Documents GroupStore.addMember
  have untouched : Shows crates s rooms := ⟨rt,held⟩
  refine checked_ends (fun _ _ => untouched) fun device valid => ?_
  refine existing_ends held (fun _ => untouched) fun room there => ?_
  refine onlyIf_ends (fun outside => ?_) fun inside => ?_
  · have absent : device ∉ room.members := by simpa [Room.shown] using outside
    have asks : documented draws rooms (.addMember groupId deviceId) =
        some (rooms.insert groupId (room.joined device (inMs draws.nowNs))) := by
      simp [documented,valid,there,absent]
    exact reworked held unused (fun _ => onlyIf_tells (both_tell _ _))
      (makes_insert fun _ _ same _ op => join_acts (same ▸ there) absent op) asks
  · have present : device ∈ room.members := by simpa [Room.shown] using inside
    have asks : documented draws rooms (.addMember groupId deviceId) = some rooms := by
      simp [documented,valid,there,present]
    exact canonical_ends held (unworked held (fun _ => onlyIf_tells (both_tell _ _)) asks)

theorem remove_documents (held : Holds crates s rt rooms) (unused : Unused rt draws) (groupId deviceId : String) :
    Documents crates draws rooms (.removeMember groupId deviceId) (GroupStore.removeMember crates draws groupId deviceId) s := by
  unfold Documents GroupStore.removeMember
  have untouched : Shows crates s rooms := ⟨rt,held⟩
  refine existing_ends held (fun _ => untouched) fun room there => ?_
  refine refuseIf_ends (fun _ => untouched) fun several => ?_
  refine onlyIf_ends (fun inside => ?_) fun outside => ?_
  · have member : deviceId ∈ room.members := by simpa [Room.shown] using inside
    have more : room.members.length ≠ 1 := by simpa [Room.shown,member] using several
    have asks : documented draws rooms (.removeMember groupId deviceId) =
        some (rooms.insert groupId (room.left deviceId (inMs draws.nowNs))) := by
      simp [documented,there,member,more]
    rw [inside]
    exact reworked held unused (fun _ => onlyIf_tells (both_tell _ _)) (makes_insert fun _ _ same _ op => leave_acts (same ▸ there) op) asks
  · have absent : deviceId ∉ room.members := by simpa [Room.shown] using outside
    have asks : documented draws rooms (.removeMember groupId deviceId) = some rooms := by
      simp [documented,there,absent]
    rw [outside]
    exact unworked held (fun _ => onlyIf_tells (both_tell _ _)) asks

theorem setLeaderMs_documents (held : Holds crates s rt rooms) (unused : Unused rt draws) (groupId : String) (leaderMs : UInt32) :
    Documents crates draws rooms (.setLeaderMs groupId leaderMs) (GroupStore.setLeaderMs crates draws groupId leaderMs) s := by
  unfold Documents GroupStore.setLeaderMs
  have untouched : Shows crates s rooms := ⟨rt,held⟩
  refine refuseIf_ends (fun _ => untouched) fun within => ?_
  have admissible : 10 ≤ leaderMs ∧ leaderMs ≤ 5000 := by simpa using within
  refine existing_ends held (fun _ => untouched) fun room there => ?_
  refine onlyIf_ends (fun differs => ?_) fun equal => ?_
  · have other : room.leaderMs ≠ leaderMs := by simpa [Room.shown] using differs
    have asks : documented draws rooms (.setLeaderMs groupId leaderMs) =
        some (rooms.insert groupId (room.budgeted leaderMs (inMs draws.nowNs))) := by
      simp [documented,there,admissible,other]
    rw [bind_assoc]
    exact reworked held unused (fun _ => onlyIf_tells (both_tell _ _)) (makes_insert fun _ _ same _ op => budget_acts (same ▸ there) op) asks
  · have same : room.leaderMs = leaderMs := by simpa [Room.shown] using equal
    have asks : documented draws rooms (.setLeaderMs groupId leaderMs) = some rooms := by
      simp [documented,there,admissible,same]
    exact unworked held (fun _ => onlyIf_tells (both_tell _ _)) asks

theorem pin_documents (held : Holds crates s rt rooms) (unused : Unused rt draws) (groupId deviceId : String) :
    Documents crates draws rooms (.pinSourceHost groupId deviceId) (GroupStore.pinSourceHost crates draws groupId deviceId) s := by
  unfold Documents GroupStore.pinSourceHost
  have untouched : Shows crates s rooms := ⟨rt,held⟩
  refine existing_ends held (fun _ => untouched) fun room there => ?_
  refine refuseIf_ends (fun _ => untouched) fun eligible => ?_
  have member : deviceId ∈ room.members := by simpa [Room.shown] using eligible
  refine onlyIf_ends (fun differs => ?_) fun equal => ?_
  · have other : room.pinnedSourceHost ≠ some deviceId := by simpa [Room.shown] using differs
    have asks : documented draws rooms (.pinSourceHost groupId deviceId) =
        some (rooms.insert groupId (room.pinned (some deviceId) (inMs draws.nowNs))) := by
      simp [documented,there,member,other]
    rw [bind_assoc]
    exact reworked held unused (fun _ => onlyIf_tells (broadcast_tells _)) (makes_insert fun _ _ same _ op => pin_acts (same ▸ there) op) asks
  · have same : room.pinnedSourceHost = some deviceId := by simpa [Room.shown] using equal
    have asks : documented draws rooms (.pinSourceHost groupId deviceId) = some rooms := by
      simp [documented,there,member,same]
    exact unworked held (fun _ => onlyIf_tells (broadcast_tells _)) asks

theorem unpin_documents (held : Holds crates s rt rooms) (unused : Unused rt draws) (groupId : String) :
    Documents crates draws rooms (.unpinSourceHost groupId) (GroupStore.unpinSourceHost crates draws groupId) s := by
  unfold Documents GroupStore.unpinSourceHost
  have untouched : Shows crates s rooms := ⟨rt,held⟩
  refine existing_ends held (fun _ => untouched) fun room there => ?_
  refine onlyIf_ends (fun active => ?_) fun inactive => ?_
  · have pinned : room.pinnedSourceHost ≠ none := by simpa [Room.shown,Option.isSome_iff_ne_none] using active
    have asks : documented draws rooms (.unpinSourceHost groupId) =
        some (rooms.insert groupId (room.pinned none (inMs draws.nowNs))) := by
      simp [documented,there,pinned]
    rw [bind_assoc]
    exact reworked held unused (fun _ => onlyIf_tells (broadcast_tells _)) (makes_insert fun _ _ same _ op => unpin_acts (same ▸ there) op) asks
  · have unpinned : room.pinnedSourceHost = none := by simpa [Room.shown] using inactive
    have asks : documented draws rooms (.unpinSourceHost groupId) = some rooms := by
      simp [documented,there,unpinned]
    exact unworked held (fun _ => onlyIf_tells (broadcast_tells _)) asks


theorem persist_cases (operation : PersistenceStore → α × PersistenceStore) (s : GroupStore) :
    (∃ e rest,persist operation s = .error (.persistence e) (facing s rest)) ∨
    ∃ rest,persist operation s =
      .ok (operation (facing s rest).persistence).1 {s with persistence := (operation (facing s rest).persistence).2} := by
  unfold persist
  split
  · exact .inl ⟨_,_,rfl⟩
  · exact .inr ⟨_,rfl⟩

theorem persist_spares (operation : PersistenceStore → α × PersistenceStore) :
    Spares GroupStore.witnessRuntime (persist operation) := by
  intro s
  rcases persist_cases operation s with ⟨e,rest,run⟩ | ⟨rest,run⟩
  · exact (ends_refused run).mpr rfl
  · exact (ends_known run).mpr rfl

theorem onlyIf_spares {condition : Bool} {action : Act Unit} (spares : Spares GroupStore.witnessRuntime action) :
    Spares GroupStore.witnessRuntime (onlyIf condition action) := by
  cases condition with
  | true => exact spares
  | false => exact spares_pure

theorem checked_spares (check : Except GroupError α) : Spares GroupStore.witnessRuntime (checked check) := by
  cases check with
  | error e => exact spares_throw
  | ok a => exact spares_pure

theorem orNotFound_spares (groupId : String) (lookup : Option α) : Spares GroupStore.witnessRuntime (orNotFound groupId lookup) := by
  cases lookup with
  | none => exact spares_throw
  | some a => exact spares_pure

theorem refuseIf_spares (condition : Bool) (error : GroupError) : Spares GroupStore.witnessRuntime (refuseIf condition error) :=
  onlyIf_spares spares_throw

theorem broadcast_spares (change : GroupChange) : Spares GroupStore.witnessRuntime (broadcast change) :=
  fun s => (ends_known (broadcast_runs change s)).mpr rfl

theorem emit_spares (happening : GroupHappening) : Spares GroupStore.witnessRuntime (emit happening) :=
  fun s => (ends_known (emit_runs happening s)).mpr rfl

theorem unchanged_spares (groupId display : String) (members : List String) (existing : Option PersistedGroup) :
    Spares GroupStore.witnessRuntime (GroupStore.unchanged groupId display members existing) := by
  unfold GroupStore.unchanged
  split
  · exact spares_pure
  · split
    · exact spares_bind (persist_spares _) fun _ => spares_pure
    · exact spares_pure

theorem upsert_spares (draws : Draws) (groupId displayName : String) (ids : List String) :
    Spares GroupStore.witnessRuntime (GroupStore.upsertWithId draws groupId displayName ids) := by
  unfold GroupStore.upsertWithId
  refine spares_bind (checked_spares _) fun display => ?_
  refine spares_bind (checked_spares _) fun members => ?_
  refine spares_bind (refuseIf_spares _ _) fun _ => ?_
  refine spares_bind (persist_spares _) fun existing => ?_
  refine spares_bind (unchanged_spares _ _ _ _) fun unchanged => ?_
  cases unchanged with
  | some row => exact spares_pure
  | none =>
    refine spares_bind (persist_spares _) fun _ => ?_
    refine spares_bind (persist_spares _) fun prior => ?_
    refine spares_bind (spares_forM (fun _ => onlyIf_spares (persist_spares _)) _) fun _ => ?_
    refine spares_bind (spares_forM (fun _ => persist_spares _) _) fun _ => ?_
    refine spares_bind (onlyIf_spares (emit_spares _)) fun _ => ?_
    exact spares_bind (broadcast_spares _) fun _ => spares_pure

theorem move_spares (draws : Draws) (fromGroupId toGroupId deviceId : String) :
    Spares GroupStore.witnessRuntime (GroupStore.moveMember draws fromGroupId toGroupId deviceId) := by
  unfold GroupStore.moveMember
  refine spares_bind (refuseIf_spares _ _) fun _ => ?_
  refine spares_bind (persist_spares _) fun _ => spares_bind (orNotFound_spares _ _) fun fromRow => ?_
  refine spares_bind (persist_spares _) fun _ => spares_bind (orNotFound_spares _ _) fun toRow => ?_
  refine spares_bind (persist_spares _) fun _ => spares_bind (refuseIf_spares _ _) fun _ => ?_
  refine spares_bind (persist_spares _) fun _ => spares_bind (refuseIf_spares _ _) fun _ => ?_
  refine spares_bind (persist_spares _) fun _ => ?_
  refine spares_bind (persist_spares _) fun _ => ?_
  refine spares_bind (persist_spares _) fun left => ?_
  refine spares_bind (onlyIf_spares (persist_spares _)) fun _ => ?_
  refine spares_bind (onlyIf_spares (persist_spares _)) fun _ => ?_
  refine spares_bind (persist_spares _) fun _ => spares_bind (persist_spares _) fun joined => ?_
  refine spares_bind (emit_spares _) fun _ => spares_bind (onlyIf_spares (emit_spares _)) fun _ => ?_
  exact spares_bind (broadcast_spares _) fun _ => spares_bind (broadcast_spares _) fun _ => spares_pure

def Calm (s : GroupStore) : Prop := s.persistence.faults = []

theorem persist_calm {operation : PersistenceStore → α × PersistenceStore} (calm : Calm s) :
    persist operation s = .ok (operation s.persistence).1 {s with persistence := (operation s.persistence).2} := by
  have same : {s.persistence with faults := []} = s.persistence := by rw [← calm]
  unfold persist
  rw [calm]
  simp only [List.tail_nil,same]

theorem persist_returns {operation : PersistenceStore → α × PersistenceStore}
    (keeps : ∀ p,(operation p).2.faults = p.faults) : Returns Calm (persist operation) := by
  intro s calm
  rw [ends_known (persist_calm calm)]
  exact (keeps _).trans calm

theorem read_ends {read : PersistenceStore → α} (calm : Calm s) (passed : Ends (f (read s.persistence)) s returned failed) :
    Ends (persist (fun p => (read p,p)) >>= f) s returned failed := by
  rw [ends_bind,ends_known (persist_calm calm)]
  exact passed

theorem onlyIf_returns {condition : Bool} {action : Act Unit} (returns : Returns Calm action) :
    Returns Calm (onlyIf condition action) := by
  cases condition with
  | true => exact returns
  | false => exact returns_pure

theorem broadcast_returns (change : GroupChange) : Returns Calm (broadcast change) :=
  fun s calm => (ends_known (broadcast_runs change s)).mpr calm

theorem emit_returns (happening : GroupHappening) : Returns Calm (emit happening) :=
  fun s calm => (ends_known (emit_runs happening s)).mpr calm

theorem unchanged_returns (groupId display : String) (members : List String) (existing : Option PersistedGroup) :
    Returns Calm (GroupStore.unchanged groupId display members existing) := by
  unfold GroupStore.unchanged
  split
  · exact returns_pure
  · split
    · exact returns_bind (persist_returns fun _ => rfl) fun _ => returns_pure
    · exact returns_pure

theorem upsert_returns (draws : Draws) (groupId : String) {displayName display : String} {ids members : List String}
    (named : validateDisplayName displayName = .ok display) (kept : sanitiseMembers ids = .ok members) (given : members ≠ []) :
    Returns Calm (GroupStore.upsertWithId draws groupId displayName ids) := by
  intro s calm
  unfold GroupStore.upsertWithId
  refine checked_ends (fun e refused => ?_) fun shown valid => ?_
  · rw [named] at refused
    cases refused
  refine checked_ends (fun e refused => ?_) fun listed clean => ?_
  · rw [kept] at refused
    cases refused
  refine refuseIf_ends (fun none_ => ?_) fun _ => ?_
  · rw [kept] at clean
    cases clean
    exact given (List.isEmpty_iff.mp none_)
  revert s
  refine returns_bind (persist_returns fun _ => rfl) fun existing => ?_
  refine returns_bind (unchanged_returns _ _ _ _) fun unchanged => ?_
  cases unchanged with
  | some row => exact returns_pure
  | none =>
    refine returns_bind (persist_returns fun _ => rfl) fun _ => ?_
    refine returns_bind (persist_returns fun _ => rfl) fun prior => ?_
    refine returns_bind (returns_forM (fun _ => onlyIf_returns (persist_returns fun _ => rfl)) _) fun _ => ?_
    refine returns_bind (returns_forM (fun _ => persist_returns fun _ => rfl) _) fun _ => ?_
    refine returns_bind (onlyIf_returns (emit_returns _)) fun _ => ?_
    exact returns_bind (broadcast_returns _) fun _ => returns_pure

-- The tables know both groups, the device in the one and not in the other.
def Movable (p : PersistenceStore) (fromGroupId toGroupId deviceId : String) : Prop :=
  fromGroupId ≠ toGroupId ∧ p.groups[fromGroupId]?.isSome = true ∧ p.groups[toGroupId]?.isSome = true ∧
    deviceId ∈ p.memberIds fromGroupId ∧ deviceId ∉ p.memberIds toGroupId

theorem move_returns (draws : Draws) {fromGroupId toGroupId deviceId : String} (calm : Calm s)
    (movable : Movable s.persistence fromGroupId toGroupId deviceId) :
    Ends (GroupStore.moveMember draws fromGroupId toGroupId deviceId) s (fun _ => Calm) fun _ => False := by
  unfold GroupStore.moveMember
  obtain ⟨apart,source,target,inside,outside⟩ := movable
  refine refuseIf_ends (fun same => apart (beq_iff_eq.mp same)) fun _ => ?_
  refine read_ends calm ?_
  obtain ⟨fromRow,fromThere⟩ := Option.isSome_iff_exists.mp source
  rw [fromThere]
  refine read_ends calm ?_
  obtain ⟨toRow,toThere⟩ := Option.isSome_iff_exists.mp target
  rw [toThere]
  refine read_ends calm (refuseIf_ends (fun absent => ?_) fun _ => ?_)
  · simp [inside] at absent
  refine read_ends calm (refuseIf_ends (fun present => ?_) fun _ => ?_)
  · simp [outside] at present
  refine (?_ : Returns Calm _) s calm
  refine returns_bind (persist_returns fun _ => rfl) fun _ => ?_
  refine returns_bind (persist_returns fun _ => rfl) fun _ => ?_
  refine returns_bind (persist_returns fun _ => rfl) fun left => ?_
  refine returns_bind (onlyIf_returns (persist_returns fun _ => rfl)) fun _ => ?_
  refine returns_bind (onlyIf_returns (persist_returns fun _ => rfl)) fun _ => ?_
  refine returns_bind (persist_returns fun _ => rfl) fun _ => ?_
  refine returns_bind (persist_returns fun _ => rfl) fun joined => ?_
  refine returns_bind (emit_returns _) fun _ => returns_bind (onlyIf_returns (emit_returns _)) fun _ => ?_
  exact returns_bind (broadcast_returns _) fun _ => returns_bind (broadcast_returns _) fun _ => returns_pure

-- The groups a store shows; nothing while no runtime is bound.
def shownRooms (s : GroupStore) : Rooms :=
  match s.witnessRuntime with
  | none => ∅
  | some rt => roomsOf rt.projection

-- What get and list answer, and what every replay of the chain comes to, is `rooms`.
structure Reads (crates : DomainCrates) (s : GroupStore) (rooms : Rooms) : Prop where
  get : ∀ groupId,GroupStore.get groupId s = .ok ((rooms[groupId]?).map fun room => room.shown groupId) s
  list : GroupStore.list s = .ok (rooms.toList.map fun entry => entry.2.shown entry.1) s
  chain : ∃ rt,s.witnessRuntime = some rt ∧ rooms = roomsOf (projectChain crates rt.chain.entries)

-- A call that returns Ok has had its documented effect on what is read.
def ReadsBack (crates : DomainCrates) (s : GroupStore) (call : Call) : Prop :=
  ∀ reply t,perform crates s call = .ok reply t →
    ∃ rooms,documented call.draws (shownRooms s) call.request = some rooms ∧ Reads crates t rooms

-- upsert_with_id only says again what the chain says already, and the tables have nothing for
-- move_member to move.
def Mirrored (s : GroupStore) (call : Call) : Prop :=
  match call.request with
  | .upsertWithId groupId displayName ids => ∀ display members,
    validateDisplayName displayName = .ok display → sanitiseMembers ids = .ok members → members ≠ [] →
      ∃ room,(shownRooms s)[groupId]? = some room ∧ room.displayName = display ∧ room.members.Perm members
  | .moveMember fromGroupId toGroupId deviceId => ¬ Movable s.persistence fromGroupId toGroupId deviceId
  | _ => True

def Drawn (s : GroupStore) (call : Call) : Prop :=
  ∀ rt,s.witnessRuntime = some rt → Unused rt call.draws ∧ rt.projection.leaders[call.draws.groupId]? = none

theorem Holds.shown (held : Holds crates s rt rooms) : shownRooms s = rooms := by
  rw [shownRooms,held.bound,held.rooms]

theorem Shows.reads (shows_ : Shows crates s rooms) : Reads crates s rooms := by
  obtain ⟨rt,held⟩ := shows_
  exact ⟨get_shows held,list_shows held,rt,held.bound,held.projected⟩

theorem spares_shows {x : Act α} (spares : Spares GroupStore.witnessRuntime x) (shows_ : Shows crates s rooms) :
    Ends x s (fun _ t => Shows crates t rooms) fun t => Shows crates t rooms :=
  ends_mono (spares s) (fun _ _ same => shows_.elsewhere same) fun _ same => shows_.elsewhere same

theorem upsert_checked (draws : Draws) (groupId displayName : String) (ids : List String) (s : GroupStore) :
    Ends (GroupStore.upsertWithId draws groupId displayName ids) s
      (fun _ _ => ∃ display members,validateDisplayName displayName = .ok display ∧ sanitiseMembers ids = .ok members ∧
        members ≠ []) fun _ => True := by
  unfold GroupStore.upsertWithId
  refine checked_ends (fun _ _ => trivial) fun display named => ?_
  refine checked_ends (fun _ _ => trivial) fun members kept => ?_
  refine refuseIf_ends (fun _ => trivial) fun some_ => ?_
  refine ends_always (fun _ _ => ⟨display,members,named,kept,?_⟩) fun _ => trivial
  rintro rfl
  cases some_

def SameRows (p q : PersistenceStore) : Prop := q.groups = p.groups ∧ q.members = p.members

theorem rows_ends {read : PersistenceStore → α} (p : PersistenceStore) (rows : SameRows p s.persistence)
    (refused : ∀ t,failed t) (passed : ∀ t,SameRows p t.persistence → Ends (f (read t.persistence)) t returned failed) :
    Ends (persist (fun p => (read p,p)) >>= f) s returned failed := by
  rw [ends_bind]
  rcases persist_cases (fun p => (read p,p)) s with ⟨e,rest,run⟩ | ⟨rest,run⟩
  · exact (ends_refused run).mpr (refused _)
  · exact (ends_known run).mpr (passed (facing s rest) rows)

theorem memberIds_same {p q : PersistenceStore} (rows : SameRows p q) (groupId : String) : q.memberIds groupId = p.memberIds groupId := by
  rw [PersistenceStore.memberIds,PersistenceStore.memberIds,rows.2]

theorem orNotFound_ends {groupId : String} {lookup : Option α} (absent : lookup = none → failed s)
    (present : ∀ a,lookup = some a → Ends (f a) s returned failed) : Ends (orNotFound groupId lookup >>= f) s returned failed := by
  rw [ends_bind]
  cases lookup with
  | none => exact ends_throw.mpr (absent rfl)
  | some a => exact ends_pure.mpr (present a rfl)

theorem move_checked (draws : Draws) (fromGroupId toGroupId deviceId : String) (s : GroupStore) :
    Ends (GroupStore.moveMember draws fromGroupId toGroupId deviceId) s
      (fun _ _ => Movable s.persistence fromGroupId toGroupId deviceId) fun _ => True := by
  unfold GroupStore.moveMember
  refine refuseIf_ends (fun _ => trivial) fun apart => ?_
  refine rows_ends s.persistence ⟨rfl,rfl⟩ (fun _ => trivial) fun first rows => ?_
  refine orNotFound_ends (fun _ => trivial) fun fromRow fromThere => ?_
  refine rows_ends s.persistence rows (fun _ => trivial) fun second onward => ?_
  refine orNotFound_ends (fun _ => trivial) fun toRow toThere => ?_
  refine rows_ends s.persistence onward (fun _ => trivial) fun third still => ?_
  refine refuseIf_ends (fun _ => trivial) fun inside => ?_
  refine rows_ends s.persistence still (fun _ => trivial) fun fourth ever => ?_
  refine refuseIf_ends (fun _ => trivial) fun outside => ?_
  refine ends_always (fun _ _ => ⟨by simpa using apart,?_,?_,?_,?_⟩) fun _ => trivial
  · rw [← rows.1,fromThere]; rfl
  · rw [← onward.1,toThere]; rfl
  · rw [← memberIds_same still]
    simpa using inside
  · rw [← memberIds_same ever]
    simpa using outside

def offChain : Request → Bool
  | .upsertWithId .. | .moveMember .. => true
  | _ => false

theorem documents_map {x : Act α} {g : α → β} {request : Request} (documents : Documents crates draws rooms request x s) :
    Documents crates draws rooms request (g <$> x) s := ends_map.mpr documents

theorem onChain_documents (held : Holds crates s rt rooms) (unused : Unused rt draws)
    (unled : rt.projection.leaders[draws.groupId]? = none) (request : Request) (onChain : offChain request = false) :
    Documents crates draws rooms request (answer crates draws request) s := by
  unfold answer
  cases request with
  | create displayName ids => exact documents_map (create_documents held unused unled displayName ids)
  | rename groupId newDisplayName => exact documents_map (rename_documents held unused groupId newDisplayName)
  | addMember groupId deviceId => exact documents_map (add_documents held unused groupId deviceId)
  | removeMember groupId deviceId => exact documents_map (remove_documents held unused groupId deviceId)
  | setLeaderMs groupId leaderMs => exact documents_map (setLeaderMs_documents held unused groupId leaderMs)
  | pinSourceHost groupId deviceId => exact documents_map (pin_documents held unused groupId deviceId)
  | unpinSourceHost groupId => exact documents_map (unpin_documents held unused groupId)
  | delete groupId => exact documents_map (delete_documents held unused groupId)
  | upsertWithId groupId displayName ids => cases onChain
  | moveMember fromGroupId toGroupId deviceId => cases onChain

theorem offChain_spares (draws : Draws) (request : Request) (off : offChain request = true) :
    Spares GroupStore.witnessRuntime (answer crates draws request) := by
  unfold answer
  cases request with
  | upsertWithId groupId displayName ids => exact spares_map (upsert_spares draws groupId displayName ids)
  | moveMember fromGroupId toGroupId deviceId => exact spares_map (move_spares draws fromGroupId toGroupId deviceId)
  | _ => cases off

theorem step_shows (shows_ : ∃ rooms,Shows crates s rooms) {call : Call} (drawn : Drawn s call) :
    ∃ rooms,Shows crates (step crates s call) rooms := by
  obtain ⟨rooms,rt,held⟩ := shows_
  have ready : Holds crates (facing s call.draws.faults) rt rooms := held.elsewhere rfl
  have ends : Ends (answer crates call.draws call.request) (facing s call.draws.faults)
      (fun _ t => ∃ rooms,Shows crates t rooms) fun t => ∃ rooms,Shows crates t rooms := by
    cases off : offChain call.request with
    | true =>
      exact ends_mono (spares_shows (offChain_spares call.draws call.request off) ⟨rt,ready⟩)
        (fun _ _ shown => ⟨rooms,shown⟩) fun _ shown => ⟨rooms,shown⟩
    | false =>
      obtain ⟨unused,unled⟩ := drawn rt held.bound
      exact ends_mono (onChain_documents ready unused unled call.request off)
        (fun _ _ ⟨after,_,shown⟩ => ⟨after,shown⟩) fun _ shown => ⟨rooms,shown⟩
  unfold Ends at ends
  unfold step perform
  split
  · rename_i run
    rw [run] at ends
    exact ends
  · rename_i run
    rw [run] at ends
    exact ends

theorem mirrored_reads (shows_ : ∃ rooms,Shows crates s rooms) {call : Call} (drawn : Drawn s call) (mirrored : Mirrored s call) :
    ReadsBack crates s call := by
  obtain ⟨rooms,rt,held⟩ := shows_
  intro reply t run
  rw [held.shown]
  have ready : Holds crates (facing s call.draws.faults) rt rooms := held.elsewhere rfl
  obtain ⟨unused,unled⟩ := drawn rt held.bound
  obtain ⟨request,draws⟩ := call
  have answered : answer crates draws request (facing s draws.faults) = .ok reply t := run
  cases off : offChain request with
  | false =>
    obtain ⟨after,asks,shown⟩ := ends_returned (onChain_documents ready unused unled request off) answered
    exact ⟨after,asks,shown.reads⟩
  | true =>
    have shown := ends_returned (spares_shows (offChain_spares draws request off) ⟨rt,ready⟩) answered
    refine ⟨rooms,?_,shown.reads⟩
    cases request with
    | upsertWithId groupId displayName ids =>
      have checks : Ends (answer crates draws (.upsertWithId groupId displayName ids)) (facing s draws.faults)
          (fun _ _ => ∃ display members,validateDisplayName displayName = .ok display ∧ sanitiseMembers ids = .ok members ∧
            members ≠ []) fun _ => True :=
        ends_map.mpr (upsert_checked draws groupId displayName ids (facing s draws.faults))
      obtain ⟨display,members,named,kept,given⟩ := ends_returned checks answered
      rw [unmoved_upsert named kept given,← held.shown]
      exact mirrored display members named kept given
    | moveMember fromGroupId toGroupId deviceId =>
      have checks : Ends (answer crates draws (.moveMember fromGroupId toGroupId deviceId)) (facing s draws.faults)
          (fun _ _ => Movable s.persistence fromGroupId toGroupId deviceId) fun _ => True :=
        ends_map.mpr (move_checked draws fromGroupId toGroupId deviceId (facing s draws.faults))
      exact absurd (ends_returned checks answered) mirrored
    | _ => cases off

-- What the call leaves on the chain it found there, so only a request for nothing reads back.
theorem unread {call : Call} (held : Holds crates s rt rooms) (run : perform crates s call = .ok reply t)
    (off : offChain call.request = true) (reads : ReadsBack crates s call) :
    documented call.draws rooms call.request = some rooms := by
  have ready : Shows crates (facing s call.draws.faults) rooms :=
    ⟨rt,held.elsewhere rfl⟩
  obtain ⟨after,asks,read⟩ := reads reply t run
  rw [held.shown] at asks
  obtain ⟨last,bound,chain⟩ := read.chain
  obtain ⟨other,kept⟩ := ends_returned (spares_shows (offChain_spares call.draws call.request off) ready) run
  cases Option.some.inj (bound.symm.trans kept.bound)
  rw [asks,chain,kept.projected]

theorem reads_mirrored (shows_ : ∃ rooms,Shows crates s rooms) {call : Call} (calm : call.draws.faults = [])
    (reads : ReadsBack crates s call) : Mirrored s call := by
  obtain ⟨rooms,rt,held⟩ := shows_
  obtain ⟨request,draws⟩ := call
  have quiet : Calm (facing s draws.faults) := calm
  cases request with
  | upsertWithId groupId displayName ids =>
    intro display members named kept given
    obtain ⟨group,t,run⟩ := returns_answer (upsert_returns draws groupId named kept given) quiet
    have answered : perform crates s ⟨.upsertWithId groupId displayName ids,draws⟩ = .ok (.group group) t := by
      simp only [perform,answer,Functor.map,EStateM.map,run]
    have nothing := unread held answered rfl reads
    rw [held.shown]
    exact (unmoved_upsert named kept given).mp nothing
  | moveMember fromGroupId toGroupId deviceId =>
    intro movable
    have ends : Ends (GroupStore.moveMember draws fromGroupId toGroupId deviceId) _ _ _ := move_returns draws quiet movable
    unfold Ends at ends
    cases run : GroupStore.moveMember draws fromGroupId toGroupId deviceId
      (facing s draws.faults) with
    | error e t =>
      rw [run] at ends
      exact ends
    | ok outcome t =>
      have answered : perform crates s ⟨.moveMember fromGroupId toGroupId deviceId,draws⟩ = .ok (.moved outcome) t := by
        simp only [perform,answer,Functor.map,EStateM.map,run]
      have nothing := unread held answered rfl reads
      exact unmoved_move nothing
  | _ => trivial

-- Over every run: calls that say nothing new to the tables alone read back, and while the tables
-- work no others do.
theorem groups_read_back (crates : DomainCrates) (start : GroupStore) (rt : DomainWitnessRuntime)
    (bound : start.witnessRuntime = some rt) (groups : rt.projection.groups = (projectChain crates rt.chain.entries).groups)
    (leaders : rt.projection.leaders = (projectChain crates rt.chain.entries).leaders) (calls : List Call)
    (drawn : Guarded (step crates) Drawn start calls) :
    (Guarded (step crates) Mirrored start calls → Guarded (step crates) (ReadsBack crates) start calls) ∧
    ((∀ call ∈ calls,call.draws.faults = []) → Guarded (step crates) (ReadsBack crates) start calls →
      Guarded (step crates) Mirrored start calls) := by
  have shows_ : ∃ rooms,Shows crates start rooms := ⟨_,rt,bound,groups,leaders,rfl⟩
  clear bound groups leaders
  induction calls generalizing start with
  | nil => exact ⟨fun _ => trivial,fun _ _ => trivial⟩
  | cons call rest ih =>
    have onward := ih (step crates start call) drawn.2 (step_shows shows_ drawn.1)
    constructor
    · intro mirrored
      exact ⟨mirrored_reads shows_ drawn.1 mirrored.1,onward.1 mirrored.2⟩
    · intro calm reads
      have later : ∀ call ∈ rest,call.draws.faults = [] := fun other member => calm other (List.mem_cons_of_mem _ member)
      exact ⟨reads_mirrored shows_ (calm call List.mem_cons_self) reads.1,onward.2 later reads.2⟩

theorem offChain_step {call : Call} (off : offChain call.request = true) :
    (step crates s call).witnessRuntime = s.witnessRuntime := by
  have spares : Spares GroupStore.witnessRuntime (answer crates call.draws call.request) := offChain_spares call.draws call.request off
  have kept := spares (facing s call.draws.faults)
  unfold Ends at kept
  unfold step perform
  split
  · rename_i run
    rw [run] at kept
    exact kept
  · rename_i run
    rw [run] at kept
    exact kept

-- A house whose chain holds its founder and no group yet.
def houseRuntime : DomainWitnessRuntime :=
  DomainRuntime.new domainLibrary (foundedChain domainLibrary .memory none) founder "founder"

def house (tables : PersistenceStore) : GroupStore := ⟨tables,some houseRuntime,[],[]⟩

def asks (request : Request) : Call := ⟨request,"room-1",⟨"w1"⟩,5000000,5,.done,[]⟩

theorem house_empty : houseRuntime.projection.groups = ∅ ∧ houseRuntime.projection.leaders = ∅ := ⟨rfl,rfl⟩

theorem asks_drawn (bound : s.witnessRuntime = some houseRuntime) (request : Request) : Drawn s (asks request) := by
  intro rt other
  cases Option.some.inj (bound.symm.trans other)
  refine ⟨?_,?_⟩
  · simp [Unused,houseRuntime,DomainRuntime.new,foundedChain,founding,selfAdmission,sign,asks]
  · simp [house_empty]

theorem house_shows (tables : PersistenceStore) : ∃ rooms,Shows domainLibrary (house tables) rooms :=
  ⟨_,houseRuntime,rfl,rfl,rfl,rfl⟩

theorem house_reads_back : Guarded (step domainLibrary) (ReadsBack domainLibrary) (house ⟨∅,[],[]⟩)
    [asks (.upsertWithId "living" "  " ["a"]),asks (.create "Living" ["a"])] := by
  have drawn : Guarded (step domainLibrary) Drawn (house ⟨∅,[],[]⟩)
      [asks (.upsertWithId "living" "  " ["a"]),asks (.create "Living" ["a"])] :=
    ⟨asks_drawn rfl _,asks_drawn (offChain_step rfl) _,trivial⟩
  refine (groups_read_back domainLibrary (house ⟨∅,[],[]⟩) houseRuntime rfl rfl rfl _ drawn).1 ⟨?_,trivial,trivial⟩
  intro display members named
  have refused : validateDisplayName "  " = .error (.invalidDisplayName "display_name must not be empty or whitespace-only") := by
    decide
  rw [refused] at named
  cases named

-- Rows that upserts have left: two rooms no chain knows.
def sharedTables : PersistenceStore :=
  ⟨((∅ : ExtTreeMap String PersistedGroup).insert "living" ⟨"living","Living",1,1,none,200⟩).insert "kitchen" ⟨"kitchen","Kitchen",1,1,none,200⟩,
   [⟨"living","a",1⟩,⟨"living","b",1⟩,⟨"kitchen","c",1⟩],[]⟩

-- upsert_with_id answers with a group that get does not find; move_member moves a device that stays.
theorem tables_unread :
    (∃ reply t,perform domainLibrary (house ⟨∅,[],[]⟩) (asks (.upsertWithId "living" "Living" ["a"])) = .ok reply t ∧
      GroupStore.get "living" t = .ok none t) ∧
    ¬ Guarded (step domainLibrary) (ReadsBack domainLibrary) (house ⟨∅,[],[]⟩)
      [asks (.upsertWithId "living" "Living" ["a"])] ∧
    ¬ Guarded (step domainLibrary) (ReadsBack domainLibrary) (house sharedTables)
      [asks (.moveMember "living" "kitchen" "a")] := by
  have named : validateDisplayName "Living" = .ok "Living" := by decide
  have kept : sanitiseMembers ["a"] = .ok ["a"] := by decide
  have nowhere : (shownRooms (house ⟨∅,[],[]⟩))["living"]? = none := by
    simp [shownRooms,house,roomsOf_at,house_empty]
  refine ⟨?_,fun reads => ?_,fun reads => ?_⟩
  · obtain ⟨group,t,run⟩ := returns_answer (upsert_returns (asks (.upsertWithId "living" "Living" ["a"])).draws "living" named kept
      (by simp)) (show Calm (facing (house ⟨∅,[],[]⟩) []) from rfl)
    have answered : perform domainLibrary (house ⟨∅,[],[]⟩) (asks (.upsertWithId "living" "Living" ["a"])) = .ok (.group group) t := by
      simp only [perform,answer,asks,Functor.map,EStateM.map]
      rw [show (asks (.upsertWithId "living" "Living" ["a"])).draws = ⟨"room-1",⟨"w1"⟩,5000000,5,.done,[]⟩ from rfl] at run
      rw [run]
    refine ⟨_,t,answered,?_⟩
    have still : t.witnessRuntime = some houseRuntime := spares_returned (upsert_spares _ "living" "Living" ["a"]) run
    have held : Holds domainLibrary t houseRuntime _ := ⟨still,rfl,rfl,rfl⟩
    rw [get_shows held,roomsOf_at,house_empty.1]
    simp
  · obtain ⟨room,there,_⟩ := reads_mirrored (house_shows _) rfl reads.1 "Living" ["a"] named kept (by simp)
    rw [nowhere] at there
    cases there
  · refine reads_mirrored (house_shows _) rfl reads.1 ⟨by decide,?_,?_,?_,?_⟩
    · simp [house,sharedTables]
    · simp [house,sharedTables]
    · decide
    · decide

end EvoCore.Groups
