import EvoCore.Runs
import EvoCore.Tables

namespace EvoCore.Custody
open Runs Tables

inductive CustodyStateKind where
  | active
  | degraded (reason : String)
  | aborted (reason : String)
  deriving DecidableEq,Repr

inductive HealthStatus where
  | healthy
  | degraded
  | unhealthy
  deriving DecidableEq,Repr

-- Times are nanoseconds since the epoch, negative before it.
structure StateSnapshot where
  payload : List UInt8
  health : HealthStatus
  reportedAt : Int
  deriving DecidableEq,Repr

structure CustodyRecord where
  plugin : String
  handleId : String
  shelf : Option String
  custodyType : Option String
  lastState : Option StateSnapshot
  state : CustodyStateKind
  startedAt : Int
  lastUpdated : Int
  deriving DecidableEq,Repr

structure PersistedCustody where
  plugin : String
  handleId : String
  shelf : Option String
  custodyType : Option String
  stateKind : String
  stateReason : Option String
  startedAtMs : Nat
  lastUpdatedAtMs : Nat
  deriving DecidableEq,Repr

structure PersistedCustodyState where
  plugin : String
  handleId : String
  payload : List UInt8
  health : String
  reportedAtMs : Nat
  deriving DecidableEq,Repr

inductive RowError where
  | unknownStateKind (other : String)
  | unknownHealth (other : String)
  deriving DecidableEq,Repr

def stateKindToStr : CustodyStateKind → String
  | .active => "active"
  | .degraded _ => "degraded"
  | .aborted _ => "aborted"

def stateKindReason : CustodyStateKind → Option String
  | .active => none
  | .degraded reason | .aborted reason => some reason

def healthToStr : HealthStatus → String
  | .healthy => "healthy"
  | .degraded => "degraded"
  | .unhealthy => "unhealthy"

def healthFromStr (s : String) : Option HealthStatus :=
  if s = "healthy" then some .healthy
  else if s = "degraded" then some .degraded
  else if s = "unhealthy" then some .unhealthy
  else none

def systemTimeToMs (time : Int) : Nat := (time / 1000000).toNat % 2^64

def msToSystemTime (ms : Nat) : Int := ms * 1000000

def persistedState (custody : PersistedCustody) : Except RowError CustodyStateKind :=
  if custody.stateKind = "active" then .ok .active
  else if custody.stateKind = "degraded" then .ok (.degraded (custody.stateReason.getD ""))
  else if custody.stateKind = "aborted" then .ok (.aborted (custody.stateReason.getD ""))
  else .error (.unknownStateKind custody.stateKind)

def persistedSnapshot : Option PersistedCustodyState → Except RowError (Option StateSnapshot)
  | none => .ok none
  | some s =>
    match healthFromStr s.health with
    | none => .error (.unknownHealth s.health)
    | some health => .ok (some ⟨s.payload,health,msToSystemTime s.reportedAtMs⟩)

def custodyRecordFromPersisted (custody : PersistedCustody) (snapshot : Option PersistedCustodyState) :
    Except RowError CustodyRecord := do
  let state ← persistedState custody
  let lastState ← persistedSnapshot snapshot
  return ⟨custody.plugin,custody.handleId,custody.shelf,custody.custodyType,lastState,state,
    msToSystemTime custody.startedAtMs,msToSystemTime custody.lastUpdatedAtMs⟩

abbrev Key := String × String

structure Store where
  custodies : Table Key PersistedCustody
  custodyState : Table Key PersistedCustodyState

inductive PersistenceError where
  | invalid (message : String)
  deriving DecidableEq,Repr

def mergeRow (existing record : PersistedCustody) : PersistedCustody :=
  { existing with
    shelf := if record.shelf.isSome then record.shelf else existing.shelf
    custodyType := if record.custodyType.isSome then record.custodyType else existing.custodyType
    stateKind := record.stateKind
    stateReason := record.stateReason
    lastUpdatedAtMs := record.lastUpdatedAtMs }

def upsertCustody (store : Store) (record : PersistedCustody) : Store :=
  let key := (record.plugin,record.handleId)
  match get store.custodies key with
  | some existing => { store with custodies := store.custodies.insert key (mergeRow existing record) }
  | none => { store with custodies := store.custodies.insert key record }

def upsertCustodyState (store : Store) (snapshot : PersistedCustodyState) : Except PersistenceError Store :=
  if (get store.custodies (snapshot.plugin,snapshot.handleId)).isSome then
    .ok ⟨store.custodies,store.custodyState.insert (snapshot.plugin,snapshot.handleId) snapshot⟩
  else .error (.invalid ("custody_state insert for missing custody (" ++ snapshot.plugin ++ ", " ++ snapshot.handleId ++ "): FK violated"))

def markCustodyState (store : Store) (key : Key) (stateKind : String) (stateReason : Option String) (lastUpdatedAtMs : Nat) :
    Store × Bool :=
  ({ store with custodies := modify store.custodies key fun rec =>
      { rec with stateKind := stateKind,stateReason := stateReason,lastUpdatedAtMs := lastUpdatedAtMs } },
    (get store.custodies key).isSome)

def deleteCustody (store : Store) (key : Key) : Store × Bool :=
  ({ custodies := store.custodies.erase key,custodyState := store.custodyState.erase key },(get store.custodies key).isSome)

def loadAllCustodies (store : Store) : List (PersistedCustody × Option PersistedCustodyState) :=
  (store.custodies.keys.mergeSort fun a b => decide (a.1 < b.1 ∨ (a.1 = b.1 ∧ a.2 ≤ b.2))).filterMap fun key =>
    (get store.custodies key).map fun custody => (custody,get store.custodyState key)

def rehydrateRow (rehydrated : Table Key CustodyRecord) (row : PersistedCustody × Option PersistedCustodyState) :
    Table Key CustodyRecord :=
  match custodyRecordFromPersisted row.1 row.2 with
  | .ok record => rehydrated.insert (row.1.plugin,row.1.handleId) record
  | .error _ => rehydrated

def rehydrateFrom (store : Store) : Table Key CustodyRecord := (loadAllCustodies store).foldl rehydrateRow ∅

inductive Call where
  | recordCustody (shelf custodyType : String)
  | recordState (payload : List UInt8) (health : HealthStatus)
  | releaseCustody
  | markAborted (reason : String)
  | markDegraded (reason : String)
  deriving DecidableEq,Repr

inductive Answer where
  | done
  | released (record : Option CustodyRecord)
  | marked (existed : Bool)
  | refused (error : PersistenceError)
  deriving DecidableEq,Repr

-- Where a call stands between two of its critical sections, with what it carries over.
inductive Stage where
  | begun
  | timed (startedAtMs : Nat)
  | read (startedAtMs : Nat) (state : CustodyStateKind)
  | snapshotted (startedAtMs : Nat) (state : CustodyStateKind) (shelf custodyType : Option String)
  | parentStored
  | stored
  | finished (answer : Answer)
  deriving DecidableEq,Repr

structure Task where
  key : Key
  call : Call
  now : Int
  stage : Stage
  deriving DecidableEq,Repr

def Task.nowMs (task : Task) : Nat := systemTimeToMs task.now

def withCustody (record : Option CustodyRecord) (key : Key) (shelf custodyType : String) (now : Int) : CustodyRecord :=
  match record with
  | some rec => { rec with shelf := some shelf,custodyType := some custodyType,lastUpdated := now }
  | none => ⟨key.1,key.2,some shelf,some custodyType,none,.active,now,now⟩

def withState (record : Option CustodyRecord) (key : Key) (snapshot : StateSnapshot) (now : Int) : CustodyRecord :=
  match record with
  | some rec => { rec with lastState := some snapshot,lastUpdated := now }
  | none => ⟨key.1,key.2,none,none,some snapshot,.active,now,now⟩

def markEntry (entries : Table Key CustodyRecord) (key : Key) (state : CustodyStateKind) (now : Int) : Table Key CustodyRecord :=
  modify entries key fun rec => { rec with state := state,lastUpdated := now }

def startedAtMs (entries : Table Key CustodyRecord) (task : Task) : Nat :=
  ((get entries task.key).map fun r => systemTimeToMs r.startedAt).getD task.nowMs

def recordedState (entries : Table Key CustodyRecord) (key : Key) : CustodyStateKind :=
  ((get entries key).map (·.state)).getD .active

def custodyRow (task : Task) (shelf custodyType : Option String) (state : CustodyStateKind) (startedAtMs : Nat) : PersistedCustody :=
  ⟨task.key.1,task.key.2,shelf,custodyType,stateKindToStr state,stateKindReason state,startedAtMs,task.nowMs⟩

def stateRow (task : Task) (payload : List UInt8) (health : HealthStatus) : PersistedCustodyState :=
  ⟨task.key.1,task.key.2,payload,healthToStr health,task.nowMs⟩

-- One critical section of a call: under the ledger's lock or one statement of the store.
def taskStep (entries : Table Key CustodyRecord) (store : Store) (task : Task) : Table Key CustodyRecord × Store × Stage :=
  match task.call,task.stage with
  | .recordCustody _ _,.begun => (entries,store,.timed (startedAtMs entries task))
  | .recordCustody _ _,.timed started => (entries,store,.read started (recordedState entries task.key))
  | .recordCustody shelf custodyType,.read started state =>
    (entries,upsertCustody store (custodyRow task (some shelf) (some custodyType) state started),.stored)
  | .recordCustody shelf custodyType,.stored =>
    (entries.insert task.key (withCustody (get entries task.key) task.key shelf custodyType task.now),store,.finished .done)
  | .recordState _ _,.begun =>
    (entries,store,.snapshotted (startedAtMs entries task) (recordedState entries task.key)
      ((get entries task.key).bind (·.shelf)) ((get entries task.key).bind (·.custodyType)))
  | .recordState _ _,.snapshotted started state shelf custodyType =>
    (entries,upsertCustody store (custodyRow task shelf custodyType state started),.parentStored)
  | .recordState payload health,.parentStored =>
    match upsertCustodyState store (stateRow task payload health) with
    | .ok store => (entries,store,.stored)
    | .error e => (entries,store,.finished (.refused e))
  | .recordState payload health,.stored =>
    (entries.insert task.key (withState (get entries task.key) task.key ⟨payload,health,task.now⟩ task.now),store,.finished .done)
  | .releaseCustody,.begun => (entries,(deleteCustody store task.key).1,.stored)
  | .releaseCustody,.stored => (entries.erase task.key,store,.finished (.released (get entries task.key)))
  | .markAborted reason,.begun =>
    (entries,(markCustodyState store task.key "aborted" (some reason) task.nowMs).1,.stored)
  | .markAborted reason,.stored =>
    (markEntry entries task.key (.aborted reason) task.now,store,.finished (.marked (get entries task.key).isSome))
  | .markDegraded reason,.begun =>
    (entries,(markCustodyState store task.key "degraded" (some reason) task.nowMs).1,.stored)
  | .markDegraded reason,.stored =>
    (markEntry entries task.key (.degraded reason) task.now,store,.finished (.marked (get entries task.key).isSome))
  | _,stage => (entries,store,stage)

structure Ledger where
  entries : Table Key CustodyRecord
  store : Store
  tasks : List Task

-- A restart drops the calls in flight and boots the ledger from the store.
inductive Action where
  | call (key : Key) (call : Call) (now : Int)
  | advance (i : Nat)
  | restart

def advance (ledger : Ledger) (i : Nat) : Ledger :=
  match ledger.tasks[i]? with
  | none => ledger
  | some task =>
    let (entries,store,stage) := taskStep ledger.entries ledger.store task
    ⟨entries,store,ledger.tasks.set i { task with stage := stage }⟩

def step (ledger : Ledger) : Action → Ledger
  | .call key call now => { ledger with tasks := ledger.tasks++[⟨key,call,now,.begun⟩] }
  | .advance i => advance ledger i
  | .restart => ⟨rehydrateFrom ledger.store,ledger.store,[]⟩

def withPersistence : Ledger := ⟨∅,⟨∅,∅⟩,[]⟩

theorem custodyRecord_parts (state : persistedState custody = .ok kind) (snapshot : persistedSnapshot report = .ok last) :
    custodyRecordFromPersisted custody report = .ok ⟨custody.plugin,custody.handleId,custody.shelf,custody.custodyType,last,kind,
      msToSystemTime custody.startedAtMs,msToSystemTime custody.lastUpdatedAtMs⟩ := by
  unfold custodyRecordFromPersisted
  rw [state,snapshot]
  rfl

theorem healthToStr_read (health : HealthStatus) : healthFromStr (healthToStr health) = some health := by
  cases health <;> rfl

theorem stateKind_read (custody : PersistedCustody) (kind : CustodyStateKind) (name : custody.stateKind = stateKindToStr kind)
    (reason : custody.stateReason = stateKindReason kind) : persistedState custody = .ok kind := by
  unfold persistedState
  rw [name,reason]
  cases kind <;> rfl

def Keyed (store : Store) : Prop := ∀ key row,get store.custodies key = some row → (row.plugin,row.handleId) = key

theorem loaded_mem {store : Store} : row ∈ loadAllCustodies store ↔
    ∃ key,get store.custodies key = some row.1 ∧ get store.custodyState key = row.2 := by
  unfold loadAllCustodies
  simp only [List.mem_filterMap,List.mem_mergeSort,Option.map_eq_some_iff]
  constructor
  · rintro ⟨key,-,custody,there,rfl⟩
    exact ⟨key,there,rfl⟩
  · rintro ⟨key,there,same⟩
    exact ⟨key,(mem_keys _).mpr ⟨_,there⟩,row.1,there,by rw [same]⟩

theorem loaded_keys (keyed : Keyed store) :
    ((loadAllCustodies store).map fun row => (row.1.plugin,row.1.handleId)).Nodup := by
  unfold loadAllCustodies
  rw [List.map_filterMap]
  refine List.Nodup.filterMap ?_ ((List.mergeSort_perm _ _).nodup_iff.mpr store.custodies.keys_nodup)
  intro a b key atA atB
  simp only [Option.mem_def,Option.map_map,Option.map_eq_some_iff] at atA atB
  obtain ⟨rowA,thereA,sameA⟩ := atA
  obtain ⟨rowB,thereB,sameB⟩ := atB
  have keyA := keyed a rowA thereA
  have keyB := keyed b rowB thereB
  simp only [Function.comp_apply] at sameA sameB
  rw [← keyA,← keyB,sameA,sameB]

theorem rehydrateRow_loads : Loads (fun t k => get t k) rehydrateRow (fun row => (row.1.plugin,row.1.handleId))
    (fun row => (custodyRecordFromPersisted row.1 row.2).toOption) := by
  intro t row k
  unfold rehydrateRow
  cases read : custodyRecordFromPersisted row.1 row.2 with
  | error e => simp [Except.toOption,read]
  | ok record => simp [Except.toOption,read]

theorem rehydrateFrom_get (keyed : Keyed store) (key : Key) : get (rehydrateFrom store) key =
    (get store.custodies key).bind fun row => (custodyRecordFromPersisted row (get store.custodyState key)).toOption := by
  unfold rehydrateFrom
  cases there : get store.custodies key with
  | none =>
    refine (load_absent rehydrateRow_loads ?_).trans get_empty
    intro listed
    obtain ⟨row,member,same⟩ := List.mem_map.mp listed
    obtain ⟨k,found,-⟩ := loaded_mem.mp member
    have own := keyed k row.1 found
    rw [same] at own
    rw [own,found] at there
    cases there
  | some row =>
    have member : (row,get store.custodyState key) ∈ loadAllCustodies store := loaded_mem.mpr ⟨key,there,rfl⟩
    have own := keyed key row there
    have found := load_present rehydrateRow_loads (loaded_keys keyed) member (t := ∅) get_empty
    rw [own] at found
    exact found

end EvoCore.Custody
