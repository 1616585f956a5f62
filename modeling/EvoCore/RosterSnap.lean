import EvoCore.DomainProjection
import EvoCore.Runs
import EvoCore.Tables

namespace EvoCore.RosterSnap
open DomainProjection Runs Tables

structure DiscoveredPeer where
  deviceId : String
  displayName : String
  addresses : List String
  lastSeenMs : Nat
  deriving DecidableEq,Repr

-- The peers in memory, the instance names they were resolved under, and the stored rows.
structure Discovery where
  peers : Table String DiscoveredPeer
  fullnameToId : Table String String
  stored : Table String DiscoveredPeer

-- `written` and `deleted` tell whether the store has followed; a refresh that changes nothing of a row is not written.
inductive DiscoveryAction where
  | resolved (fullname : String) (deviceId : Option String) (displayName : String) (addresses : List String) (nowMs : Nat) (written : Bool)
  | announced (deviceId : String) (addresses : List String) (nowMs : Nat) (written : Bool)
  | removed (fullname : String) (deleted : Bool)
  | pruned (stale : List String) (deleted : String → Bool)
  | boot

def Discovery.upsert (discovery : Discovery) (peer : DiscoveredPeer) (written : Bool) : Discovery :=
  { discovery with
    peers := discovery.peers.insert peer.deviceId peer
    stored := if written then discovery.stored.insert peer.deviceId peer else discovery.stored }

def handleResolved (localId : String) (discovery : Discovery) (fullname : String) (deviceId : Option String) (displayName : String)
    (addresses : List String) (nowMs : Nat) (written : Bool) : Discovery :=
  match deviceId with
  | none => discovery
  | some deviceId =>
    if deviceId = localId then discovery
    else
      { discovery.upsert ⟨deviceId,displayName,addresses,nowMs⟩ written with
        fullnameToId := discovery.fullnameToId.insert fullname deviceId }

-- The name is the one resolved before, if any.
def refreshFromAnnounce (localId : String) (discovery : Discovery) (deviceId : String) (addresses : List String) (nowMs : Nat)
    (written : Bool) : Discovery :=
  if deviceId = localId then discovery
  else discovery.upsert ⟨deviceId,((get discovery.peers deviceId).map (·.displayName)).getD "",addresses,nowMs⟩ written

def handleRemoved (discovery : Discovery) (fullname : String) (deleted : Bool) : Discovery :=
  match get discovery.fullnameToId fullname with
  | none => discovery
  | some deviceId =>
    { peers := discovery.peers.erase deviceId
      fullnameToId := discovery.fullnameToId.erase fullname
      stored := if deleted then discovery.stored.erase deviceId else discovery.stored }

-- The rows found stale in an earlier look are taken away, also one refreshed since.
def prune (discovery : Discovery) (stale : List String) (deleted : String → Bool) : Discovery :=
  { peers := retain discovery.peers fun id _ => !stale.contains id
    fullnameToId := retain discovery.fullnameToId fun _ id => !stale.contains id
    stored := retain discovery.stored fun id _ => !(stale.contains id && deleted id) }

def discover (localId : String) (discovery : Discovery) : DiscoveryAction → Discovery
  | .resolved fullname deviceId displayName addresses nowMs written =>
    handleResolved localId discovery fullname deviceId displayName addresses nowMs written
  | .announced deviceId addresses nowMs written => refreshFromAnnounce localId discovery deviceId addresses nowMs written
  | .removed fullname deleted => handleRemoved discovery fullname deleted
  | .pruned stale deleted => prune discovery stale deleted
  | .boot => ⟨discovery.stored,∅,discovery.stored⟩

def Discovery.new : Discovery := ⟨∅,∅,∅⟩

-- Most recently observed first.
def listPeers (discovery : Discovery) : List DiscoveredPeer :=
  (discovery.peers.entries.map fun e => e.2).mergeSort fun a b => b.lastSeenMs ≤ a.lastSeenMs

structure BaselineEntry where
  lastSeenMs : Nat
  addresses : List String
  displayName : String
  deriving DecidableEq,Repr

def baselineOf (peer : DiscoveredPeer) : BaselineEntry := ⟨peer.lastSeenMs,peer.addresses,peer.displayName⟩

def snapshotBaseline (discovery : Discovery) : Table String BaselineEntry :=
  ⟨discovery.peers.entries.map fun e => ⟨e.1,baselineOf e.2⟩,by
    simpa [List.NodupKeys,List.keys,Function.comp_def] using discovery.peers.nodupKeys⟩

-- A device of the ledger that was never observed: nowhere to be probed, named by its id.
def mergeRow (baseline : Table String BaselineEntry) (row : String × TrustProjection) : Table String BaselineEntry :=
  if row.2.discardedAtNs.isSome then baseline
  else if (get baseline row.1).isSome then baseline
  else baseline.insert row.1 ⟨0,[],row.1⟩

def mergeAdmitted (baseline : Table String BaselineEntry) (projection : Option DomainStateView) : Table String BaselineEntry :=
  match projection with
  | none => baseline
  | some view => view.trust.toList.foldl mergeRow baseline

inductive SnapReason where
  | surfaceOpened
  | manualRefresh
  | gesturePrecondition
  | happeningSubscriptionWarm
  deriving DecidableEq,Repr

def SnapReason.asStr : SnapReason → String
  | .surfaceOpened => "surface_opened"
  | .manualRefresh => "manual_refresh"
  | .gesturePrecondition => "gesture_precondition"
  | .happeningSubscriptionWarm => "happening_subscription_warm"

def defaultSnapWindowMs : Nat := 800
def maxSnapWindowMs : Nat := 3000
def marauderWindowDivisor : Nat := 3
def marauderWindowMinMs : Nat := 200
def snapGraceMs : Nat := 150

structure RosterEntry where
  deviceId : String
  displayName : String
  addresses : List String
  newToSnap : Bool
  lastSeenMs : Nat
  deriving DecidableEq,Repr

structure RosterDeparture where
  deviceId : String
  displayName : String
  lastSeenMs : Nat
  deriving DecidableEq,Repr

inductive Happening where
  | rosterSnapped (snapId reason : String) (presentsCount gonesCount : Nat) (deadlineBreached : Bool)
  | peerDisappeared (deviceId displayName : String) (lastSeenMs : Nat) (snapId : String)
  deriving DecidableEq,Repr

structure RosterSnap where
  snapId : String
  reason : String
  deadlineMs : Nat
  deadlineBreached : Bool
  presents : List RosterEntry
  gones : List RosterDeparture
  deriving DecidableEq,Repr

-- What one snap meets: its id, how long it took, and who answers a connect to an address.
structure Env where
  snapId : String
  elapsedMs : Nat
  connects : String → String → Bool

abbrev Candidate := Sigma fun _ : String => BaselineEntry

-- Of the baseline, what the substrate no longer has after the grace.
def candidates (baseline : Table String BaselineEntry) (discovery : Discovery) : List Candidate :=
  baseline.entries.filter fun e => (get discovery.peers e.1).isNone

def probePeersTcp (targets : List (String × String)) (connects : String → String → Bool) : List String :=
  (targets.filter fun target => connects target.1 target.2).map (·.1)

def reached (missing : List Candidate) (connects : String → String → Bool) : List String :=
  probePeersTcp (missing.filterMap fun e => e.2.addresses.head?.map fun address => (e.1,address)) connects

def shownName (e : Candidate) : String := if e.2.displayName = "" then e.1 else e.2.displayName

def observed (baseline : Table String BaselineEntry) (peer : DiscoveredPeer) : RosterEntry :=
  ⟨peer.deviceId,peer.displayName,peer.addresses,(get baseline peer.deviceId).isNone,peer.lastSeenMs⟩

def revived (e : Candidate) : RosterEntry := ⟨e.1,shownName e,e.2.addresses,false,e.2.lastSeenMs⟩

def departed (e : Candidate) : RosterDeparture := ⟨e.1,shownName e,e.2.lastSeenMs⟩

def presents (baseline : Table String BaselineEntry) (after : Discovery) (connects : String → String → Bool) : List RosterEntry :=
  let missing := candidates baseline after
  ((listPeers after).map (observed baseline)++
    (missing.filter fun e => (reached missing connects).contains e.1).map revived).mergeSort fun a b => b.lastSeenMs ≤ a.lastSeenMs

def gones (baseline : Table String BaselineEntry) (after : Discovery) (connects : String → String → Bool) : List RosterDeparture :=
  let missing := candidates baseline after
  ((missing.filter fun e => !(reached missing connects).contains e.1).map departed).mergeSort fun a b => b.lastSeenMs ≤ a.lastSeenMs

-- `before` is the substrate when the baseline is captured, `after` the one read after the grace.
def snap (reason : SnapReason) (deadlineMsIn : Option Nat) (projection : Option DomainStateView) (before after : Discovery) (env : Env) :
    RosterSnap × List Happening :=
  let deadlineMs := min (deadlineMsIn.getD defaultSnapWindowMs) maxSnapWindowMs
  let marauderWindowMs := max (deadlineMs/marauderWindowDivisor) marauderWindowMinMs
  let baseline := mergeAdmitted (snapshotBaseline before) projection
  let presents := presents baseline after env.connects
  let gones := gones baseline after env.connects
  let deadlineBreached := snapGraceMs+marauderWindowMs < env.elapsedMs
  (⟨env.snapId,reason.asStr,deadlineMs,deadlineBreached,presents,gones⟩,
    .rosterSnapped env.snapId reason.asStr presents.length gones.length deadlineBreached::
      gones.map fun departure => .peerDisappeared departure.deviceId departure.displayName departure.lastSeenMs env.snapId)

-- Every row stands under its own id, and none under the local one.
def Foreign (localId : String) (rows : Table String DiscoveredPeer) : Prop :=
  ∀ id peer,get rows id = some peer → peer.deviceId = id ∧ id ≠ localId

structure Remote (localId : String) (discovery : Discovery) : Prop where
  peers : Foreign localId discovery.peers
  stored : Foreign localId discovery.stored

variable {localId id : String} {discovery : Discovery} {rows : Table String DiscoveredPeer}

theorem foreign_insert (foreign : Foreign localId rows) (other : peer.deviceId ≠ localId) : Foreign localId (rows.insert peer.deviceId peer) := by
  intro id row there
  rw [get_insert] at there
  split at there
  · rename_i same
    cases there
    exact ⟨same.symm,by rw [same]; exact other⟩
  · exact foreign id row there

theorem foreign_erase (foreign : Foreign localId rows) (gone : String) : Foreign localId (rows.erase gone) := by
  intro id row there
  rw [get_erase] at there
  split at there
  · cases there
  · exact foreign id row there

theorem foreign_retain (foreign : Foreign localId rows) (keep : String → DiscoveredPeer → Bool) : Foreign localId (retain rows keep) := by
  intro id row there
  rw [get_retain] at there
  exact foreign id row (Option.filter_eq_some_iff.mp there).1

theorem upsert_remote (remote : Remote localId discovery) (other : peer.deviceId ≠ localId) (written : Bool) :
    Remote localId (discovery.upsert peer written) := by
  refine ⟨foreign_insert remote.peers other,?_⟩
  unfold Discovery.upsert
  dsimp only
  split
  · exact foreign_insert remote.stored other
  · exact remote.stored

theorem discover_remote (remote : Remote localId discovery) (action : DiscoveryAction) : Remote localId (discover localId discovery action) := by
  cases action with
  | resolved fullname deviceId displayName addresses nowMs written =>
    rw [discover]
    unfold handleResolved
    split
    · exact remote
    · split
      · exact remote
      · rename_i id other
        have kept : Remote localId (discovery.upsert ⟨id,displayName,addresses,nowMs⟩ written) := upsert_remote remote other written
        exact ⟨kept.peers,kept.stored⟩
  | announced deviceId addresses nowMs written =>
    rw [discover]
    unfold refreshFromAnnounce
    split
    · exact remote
    · rename_i other
      exact upsert_remote remote other written
  | removed fullname deleted =>
    rw [discover]
    unfold handleRemoved
    split
    · exact remote
    · refine ⟨foreign_erase remote.peers _,?_⟩
      dsimp only
      split
      · exact foreign_erase remote.stored _
      · exact remote.stored
  | pruned stale deleted => exact ⟨foreign_retain remote.peers _,foreign_retain remote.stored _⟩
  | boot => exact ⟨remote.stored,remote.stored⟩

theorem new_remote : Remote localId .new := by
  constructor
  · intro id row there
    cases there
  · intro id row there
    cases there

theorem run_remote (remote : Remote localId discovery) (actions : List DiscoveryAction) :
    Remote localId (run (discover localId) discovery actions) :=
  run_keeps (fun _ action held => discover_remote held action) remote

-- A device the ledger admits and has not discarded.
def Admitted (projection : Option DomainStateView) (id : String) : Prop :=
  ∃ view row,projection = some view ∧ view.trust[id]? = some row ∧ row.discardedAtNs = none

def Known (discovery : Discovery) (id : String) : Prop := ∃ peer,get discovery.peers id = some peer

theorem snapshotBaseline_get : get (snapshotBaseline discovery) id = (get discovery.peers id).map baselineOf := by
  apply Option.ext
  intro entry
  rw [← entries_get,Option.map_eq_some_iff]
  simp only [snapshotBaseline,List.mem_map,Sigma.mk.injEq]
  constructor
  · intro listed
    obtain ⟨⟨key,peer⟩,member,rfl,same⟩ := listed
    exact ⟨peer,(entries_get _).mp member,eq_of_heq same⟩
  · intro found
    obtain ⟨peer,there,rfl⟩ := found
    exact ⟨⟨id,peer⟩,(entries_get _).mpr there,rfl,HEq.rfl⟩

theorem mergeRow_get (baseline : Table String BaselineEntry) (row : String × TrustProjection) (id : String) :
    (get (mergeRow baseline row) id).isSome = true ↔ (get baseline id).isSome = true ∨ (id = row.1 ∧ row.2.discardedAtNs = none) := by
  unfold mergeRow
  cases discarded : row.2.discardedAtNs with
  | some ns => simp
  | none =>
    simp only [Option.isSome_none,Bool.false_eq_true,if_false,and_true]
    split
    · rename_i there
      constructor
      · exact Or.inl
      · intro either
        obtain held | rfl := either
        · exact held
        · exact there
    · rw [get_insert]
      by_cases same : id = row.1
      · simp [same]
      · simp [same]

theorem merged_get (rows : List (String × TrustProjection)) (baseline : Table String BaselineEntry) (id : String) :
    (get (rows.foldl mergeRow baseline) id).isSome = true ↔
      (get baseline id).isSome = true ∨ ∃ row,(id,row) ∈ rows ∧ row.discardedAtNs = none := by
  induction rows generalizing baseline with
  | nil => simp
  | cons first rest rest_ih =>
    rw [List.foldl_cons,rest_ih,mergeRow_get,or_assoc]
    refine or_congr_right ?_
    constructor
    · intro found
      obtain ⟨rfl,live⟩ | ⟨row,member,live⟩ := found
      · exact ⟨first.2,List.mem_cons_self,live⟩
      · exact ⟨row,List.mem_cons_of_mem _ member,live⟩
    · intro found
      obtain ⟨row,member,live⟩ := found
      obtain here | later := List.mem_cons.mp member
      · cases here
        exact .inl ⟨rfl,live⟩
      · exact .inr ⟨row,later,live⟩

theorem mergeAdmitted_get (baseline : Table String BaselineEntry) (projection : Option DomainStateView) (id : String) :
    (get (mergeAdmitted baseline projection) id).isSome = true ↔ (get baseline id).isSome = true ∨ Admitted projection id := by
  unfold mergeAdmitted Admitted
  cases projection with
  | none => simp
  | some view => simp [merged_get,Std.ExtTreeMap.mem_toList_iff_getElem?_eq_some]

theorem listPeers_ids (foreign : Foreign localId discovery.peers) :
    ((listPeers discovery).map (·.deviceId)).Perm (discovery.peers.entries.map (·.1)) := by
  have sorted := (List.mergeSort_perm (discovery.peers.entries.map fun e => e.2) fun a b => b.lastSeenMs ≤ a.lastSeenMs).map DiscoveredPeer.deviceId
  refine sorted.trans ?_
  rw [List.map_map]
  have named : ∀ e ∈ discovery.peers.entries,(DiscoveredPeer.deviceId ∘ fun e : Sigma fun _ : String => DiscoveredPeer => e.2) e = e.1 :=
    fun e member => (foreign e.1 e.2 ((entries_get _).mp member)).1
  rw [List.map_congr_left named]

theorem snap_ids (baseline : Table String BaselineEntry) (foreign : Foreign localId discovery.peers) (connects : String → String → Bool) :
    ((presents baseline discovery connects).map (·.deviceId)++(gones baseline discovery connects).map (·.deviceId)).Perm
      (discovery.peers.entries.map (·.1)++(candidates baseline discovery).map (·.1)) := by
  have here := (List.mergeSort_perm ((listPeers discovery).map (observed baseline)++
    ((candidates baseline discovery).filter fun e => (reached (candidates baseline discovery) connects).contains e.1).map revived)
    fun a b => b.lastSeenMs ≤ a.lastSeenMs).map RosterEntry.deviceId
  have away := (List.mergeSort_perm (((candidates baseline discovery).filter fun e =>
    !(reached (candidates baseline discovery) connects).contains e.1).map departed) fun a b => b.lastSeenMs ≤ a.lastSeenMs).map RosterDeparture.deviceId
  refine (here.append away).trans ?_
  simp only [List.map_append,List.map_map,List.append_assoc]
  have split := (List.filter_append_perm (fun e : Candidate => (reached (candidates baseline discovery) connects).contains e.1)
    (candidates baseline discovery)).map fun e => e.1
  rw [List.map_append] at split
  exact (listPeers_ids foreign).append split

theorem key_listed {ν : Type} (rows : Table String ν) : id ∈ rows.entries.map (·.1) ↔ (get rows id).isSome = true := by
  rw [Option.isSome_iff_exists,List.mem_map]
  constructor
  · intro listed
    obtain ⟨e,member,rfl⟩ := listed
    exact ⟨e.2,(entries_get rows).mp member⟩
  · intro found
    obtain ⟨value,there⟩ := found
    exact ⟨⟨id,value⟩,(entries_get rows).mpr there,rfl⟩

theorem candidate_listed (baseline : Table String BaselineEntry) : id ∈ (candidates baseline discovery).map (·.1) ↔
    (get baseline id).isSome = true ∧ get discovery.peers id = none := by
  rw [← key_listed]
  simp only [candidates,List.mem_map,List.mem_filter,Option.isNone_iff_eq_none]
  constructor
  · intro listed
    obtain ⟨e,⟨member,lost⟩,rfl⟩ := listed
    exact ⟨⟨e,member,rfl⟩,lost⟩
  · intro both
    obtain ⟨⟨e,member,rfl⟩,lost⟩ := both
    exact ⟨e,⟨member,lost⟩,rfl⟩

theorem snap_ids_nodup (baseline : Table String BaselineEntry) :
    (discovery.peers.entries.map (·.1)++(candidates baseline discovery).map (·.1)).Nodup := by
  have keys : ∀ {ν : Type} (rows : Table String ν),(rows.entries.map (·.1)).Nodup := fun rows => rows.nodupKeys
  rw [List.nodup_append]
  refine ⟨keys _,(keys baseline).sublist (List.filter_sublist.map _),?_⟩
  intro one present two missing same
  subst same
  have gone := ((candidate_listed baseline).mp missing).2
  rw [key_listed,gone] at present
  cases present

-- What a snap is to say of the peers.
structure Accounts (localId : String) (projection : Option DomainStateView) (before after : Discovery) (result : RosterSnap × List Happening) : Prop where
  once : (result.1.presents.map (·.deviceId)++result.1.gones.map (·.deviceId)).Nodup
  every : ∀ id,(id ∈ result.1.presents.map (·.deviceId) ∨ id ∈ result.1.gones.map (·.deviceId)) ↔
    id ≠ localId ∧ (Known before id ∨ Admitted projection id ∨ Known after id)
  seen : ∀ id,Known after id → id ∉ result.1.gones.map (·.deviceId)
  told : ∀ deviceId displayName lastSeenMs snapId,.peerDisappeared deviceId displayName lastSeenMs snapId ∈ result.2 →
    deviceId ≠ localId ∧ deviceId ∈ result.1.gones.map (·.deviceId)

theorem known_isSome : Known discovery id ↔ (get discovery.peers id).isSome = true := by
  rw [Known,Option.isSome_iff_exists]

theorem listed_ids (foreign : Foreign localId after.peers) (reason : SnapReason) (deadline : Option Nat) (projection : Option DomainStateView)
    (before : Discovery) (env : Env) (id : String) :
    (id ∈ (snap reason deadline projection before after env).1.presents.map (·.deviceId) ∨
      id ∈ (snap reason deadline projection before after env).1.gones.map (·.deviceId)) ↔
    Known before id ∨ Admitted projection id ∨ Known after id := by
  have ids := @List.Perm.mem_iff _ id _ _ (snap_ids (mergeAdmitted (snapshotBaseline before) projection) foreign env.connects)
  simp only [List.mem_append] at ids
  refine Iff.trans ids ?_
  rw [key_listed,candidate_listed,mergeAdmitted_get,snapshotBaseline_get,Option.isSome_map,← known_isSome,← known_isSome]
  constructor
  · intro either
    obtain there | ⟨was | admitted,_⟩ := either
    · exact .inr (.inr there)
    · exact .inl was
    · exact .inr (.inl admitted)
  · intro any
    by_cases there : Known after id
    · exact .inl there
    · have lost : get after.peers id = none := Option.not_isSome_iff_eq_none.mp fun held => there (known_isSome.mpr held)
      obtain was | admitted | now := any
      · exact .inr ⟨.inl was,lost⟩
      · exact .inr ⟨.inr admitted,lost⟩
      · exact absurd now there

-- The ledger's own row for the local device is merged into the baseline, and comes out on one side or the other.
theorem admitted_unaccounted (foreign : Foreign localId after.peers) (admitted : Admitted projection localId) :
    ¬Accounts localId projection before after (snap reason deadline projection before after env) := by
  intro accounts
  have listed := (listed_ids foreign reason deadline projection before env localId).mpr (.inr (.inl admitted))
  exact ((accounts.every localId).mp listed).1 rfl

theorem snap_accounts (localId : String) (earlier between : List DiscoveryAction) (reason : SnapReason) (deadline : Option Nat)
    (projection : Option DomainStateView) (env : Env) :
    let before := run (discover localId) .new earlier
    let after := run (discover localId) before between
    Accounts localId projection before after (snap reason deadline projection before after env) ↔ ¬Admitted projection localId := by
  intro before after
  have remote : Remote localId before := run_remote new_remote earlier
  have remote_ : Remote localId after := run_remote remote between
  have listed := listed_ids remote_.peers reason deadline projection before env
  constructor
  · intro accounts admitted
    exact admitted_unaccounted remote_.peers admitted accounts
  · intro free
    have apart : ∀ id,Known before id ∨ Admitted projection id ∨ Known after id → id ≠ localId := by
      intro id any same
      subst same
      obtain ⟨peer,there⟩ | admitted | ⟨peer,there⟩ := any
      · exact (remote.peers _ peer there).2 rfl
      · exact free admitted
      · exact (remote_.peers _ peer there).2 rfl
    have once := (snap_ids (mergeAdmitted (snapshotBaseline before) projection) remote_.peers env.connects).nodup_iff.mpr (snap_ids_nodup _)
    refine ⟨once,?_,?_,?_⟩
    · intro id
      rw [listed]
      constructor
      · intro any
        exact ⟨apart id any,any⟩
      · exact And.right
    · intro id now away
      obtain ⟨departure,member,rfl⟩ := List.mem_map.mp away
      have sorted := (List.mergeSort_perm _ _).mem_iff.mp member
      obtain ⟨e,missing,rfl⟩ := List.mem_map.mp sorted
      have lost := ((candidate_listed _).mp (List.mem_map_of_mem (f := (·.1)) (List.mem_filter.mp missing).1)).2
      obtain ⟨peer,there⟩ := now
      rw [show get after.peers e.1 = _ from there] at lost
      cases lost
    · intro deviceId displayName lastSeenMs snapId told
      simp only [snap,List.mem_cons,List.mem_map,reduceCtorEq,false_or,Happening.peerDisappeared.injEq] at told
      obtain ⟨departure,member,rfl,_,_,_⟩ := told
      have away : departure.deviceId ∈ (snap reason deadline projection before after env).1.gones.map (·.deviceId) := List.mem_map_of_mem member
      exact ⟨apart _ ((listed _).mp (.inr away)),away⟩

-- A domain with the device itself in its ledger, and nobody else on the network.
def ownAdmission : DomainStateView :=
  { emptyView with trust := (∅ : Std.ExtTreeMap String TrustProjection).insert "here" ⟨"here","Here","",1,none,none,.admitted⟩ }

theorem own_device_gone :
    ¬Accounts "here" (some ownAdmission) .new .new (snap .surfaceOpened none (some ownAdmission) .new .new ⟨"snap",0,fun _ _ => true⟩) := by
  apply admitted_unaccounted
  · exact (@new_remote "here").peers
  · exact ⟨ownAdmission,⟨"here","Here","",1,none,none,.admitted⟩,rfl,by simp [ownAdmission],rfl⟩

end EvoCore.RosterSnap
