import EvoCore.Runs
import EvoCore.Tables

namespace EvoCore.Queue
open Runs Tables

inductive LifecycleType where
  | finiteProgress
  | continuousNoAdvance
  | finiteWithChapters
  | adSegment
  deriving DecidableEq,Repr

def LifecycleType.asStr : LifecycleType → String
  | .finiteProgress => "finite_progress"
  | .continuousNoAdvance => "continuous_no_advance"
  | .finiteWithChapters => "finite_with_chapters"
  | .adSegment => "ad_segment"

def LifecycleType.parseWire (s : String) : Option LifecycleType :=
  if s = "finite_progress" then some .finiteProgress
  else if s = "continuous_no_advance" then some .continuousNoAdvance
  else if s = "finite_with_chapters" then some .finiteWithChapters
  else if s = "ad_segment" then some .adSegment
  else none

inductive QueuedBy where
  | userVerb
  | plan
  | pluginAutoExtension
  deriving DecidableEq,Repr

def QueuedBy.asStr : QueuedBy → String
  | .userVerb => "user_verb"
  | .plan => "plan"
  | .pluginAutoExtension => "plugin_auto_extension"

def QueuedBy.parseWire (s : String) : Option QueuedBy :=
  if s = "user_verb" then some .userVerb
  else if s = "plan" then some .plan
  else if s = "plugin_auto_extension" then some .pluginAutoExtension
  else none

structure ResumeCapability where
  seekable : Bool
  resumeSupported : Bool
  resumePositionPersisted : Bool
  deriving DecidableEq,Repr

structure Chapter where
  title : String
  startMs : UInt64
  durationMs : Option UInt64
  artworkUri : Option String
  deriving DecidableEq,Repr

structure ExternalIds where
  mbid : Option String
  isrc : Option String
  other : List (String × String)
  deriving DecidableEq,Repr

structure Provenance where
  providerId : String
  fields : List String
  deriving DecidableEq,Repr

structure ItemMetadata where
  title : Option String
  artist : Option String
  album : Option String
  durationMs : Option UInt64
  bitrate : Option UInt32
  format : Option String
  artworkUri : Option String
  chapters : List Chapter
  externalIds : ExternalIds
  fetchedAtMs : UInt64
  provenance : List Provenance
  deriving DecidableEq,Repr

structure QueueItem where
  uri : String
  itemType : String
  lifecycle : LifecycleType
  resumeCapability : ResumeCapability
  metadata : ItemMetadata
  sourcePlugin : String
  queuedAtMs : UInt64
  queuedBy : QueuedBy
  deriving DecidableEq,Repr

structure PositionedQueueItem where
  position : UInt32
  item : QueueItem
  deriving DecidableEq,Repr

structure QueueItemRecord where
  queueId : String
  uri : String
  itemType : String
  lifecycle : String
  seekable : Bool
  resumeSupported : Bool
  resumePositionPersisted : Bool
  metadataJson : String
  sourcePlugin : String
  queuedAtMs : UInt64
  queuedBy : String
  deriving DecidableEq,Repr

structure PersistedQueueItem extends QueueItemRecord where
  position : UInt32
  deriving DecidableEq,Repr

inductive PersistenceError where
  | insertOutOfRange (position : UInt32) (queueId : String) (items : Nat)
  deriving DecidableEq,Repr

inductive QueueError where
  | invalid (message : String)
  | unknownWireString (field value : String)
  | decodeMetadata (error : String)
  | persistence (error : PersistenceError)
  deriving DecidableEq,Repr

structure SerdeJson where
  toString : ItemMetadata → Except String String
  fromStr : String → Except String ItemMetadata

def SerdeJson.RoundTrips (json : SerdeJson) (metadata : ItemMetadata) : Prop :=
  ∃ text,json.toString metadata = .ok text ∧ json.fromStr text = .ok metadata

abbrev Store := Table String (List PersistedQueueItem)

def queueOf (store : Store) (queueId : String) : List PersistedQueueItem := (get store queueId).getD []

def persistedQueueItemFrom (record : QueueItemRecord) (position : UInt32) : PersistedQueueItem := ⟨record,position⟩

def renumber (queue : List PersistedQueueItem) : List PersistedQueueItem :=
  queue.zipIdx.map fun (item,i) => { item with position := UInt32.ofNat i }

def appendQueueItem (store : Store) (record : QueueItemRecord) : Store × UInt32 :=
  let queue := queueOf store record.queueId
  let position := UInt32.ofNat queue.length
  (store.insert record.queueId (queue++[persistedQueueItemFrom record position]),position)

def insertQueueItemAt (store : Store) (record : QueueItemRecord) (position : UInt32) : Store × Except PersistenceError Unit :=
  let queue := queueOf store record.queueId
  if position.toNat > queue.length then
    (store.insert record.queueId queue,.error (.insertOutOfRange position record.queueId queue.length))
  else
    (store.insert record.queueId (renumber (queue.insertIdx position.toNat (persistedQueueItemFrom record position))),.ok ())

def removeQueueItemAt (store : Store) (queueId : String) (position : UInt32) : Store :=
  match get store queueId with
  | none => store
  | some queue => if position.toNat < queue.length then store.insert queueId (renumber (queue.eraseIdx position.toNat)) else store

def replaceQueue (store : Store) (queueId : String) (items : List QueueItemRecord) : Store :=
  store.insert queueId (items.zipIdx.map fun (record,i) => persistedQueueItemFrom record (UInt32.ofNat i))

def itemRecord (queueId : String) (item : QueueItem) (metadataJson : String) : QueueItemRecord :=
  ⟨queueId,item.uri,item.itemType,item.lifecycle.asStr,item.resumeCapability.seekable,item.resumeCapability.resumeSupported,
    item.resumeCapability.resumePositionPersisted,metadataJson,item.sourcePlugin,item.queuedAtMs,item.queuedBy.asStr⟩

section Verbs

variable (json : SerdeJson)

def queueItemFromRow (row : PersistedQueueItem) : Except QueueError QueueItem := do
  if row.itemType = "" then throw (.invalid "item_type is empty")
  let some lifecycle := LifecycleType.parseWire row.lifecycle | throw (.unknownWireString "lifecycle" row.lifecycle)
  let some queuedBy := QueuedBy.parseWire row.queuedBy | throw (.unknownWireString "queued_by" row.queuedBy)
  let metadata ← (json.fromStr row.metadataJson).mapError .decodeMetadata
  return ⟨row.uri,row.itemType,lifecycle,⟨row.seekable,row.resumeSupported,row.resumePositionPersisted⟩,metadata,
    row.sourcePlugin,row.queuedAtMs,queuedBy⟩

def positionedItemFromRow (row : PersistedQueueItem) : Except QueueError PositionedQueueItem := do
  return ⟨row.position,← queueItemFromRow json row⟩

def append (store : Store) (queueId : String) (item : QueueItem) : Store × Except QueueError UInt32 :=
  if queueId = "" then (store,.error (.invalid "queue_id is empty"))
  else
    match json.toString item.metadata with
    | .error e => (store,.error (.decodeMetadata e))
    | .ok text =>
      let (store,position) := appendQueueItem store (itemRecord queueId item text)
      (store,.ok position)

def insertAt (store : Store) (queueId : String) (item : QueueItem) (position : UInt32) : Store × Except QueueError Unit :=
  if queueId = "" then (store,.error (.invalid "queue_id is empty"))
  else
    match json.toString item.metadata with
    | .error e => (store,.error (.decodeMetadata e))
    | .ok text =>
      let (store,answer) := insertQueueItemAt store (itemRecord queueId item text) position
      (store,answer.mapError .persistence)

def removeAt (store : Store) (queueId : String) (position : UInt32) : Store × Except QueueError Unit :=
  if queueId = "" then (store,.error (.invalid "queue_id is empty"))
  else (removeQueueItemAt store queueId position,.ok ())

def replace (store : Store) (queueId : String) (items : List QueueItem) : Store × Except QueueError Unit :=
  if queueId = "" then (store,.error (.invalid "queue_id is empty"))
  else
    match items.mapM fun item => json.toString item.metadata with
    | .error e => (store,.error (.decodeMetadata e))
    | .ok texts => (replaceQueue store queueId (List.zipWith (itemRecord queueId) items texts),.ok ())

def list (store : Store) (queueId : String) : Except QueueError (List PositionedQueueItem) :=
  if queueId = "" then .error (.invalid "queue_id is empty")
  else (queueOf store queueId).mapM (positionedItemFromRow json)

inductive Call where
  | append (queueId : String) (item : QueueItem)
  | insertAt (queueId : String) (item : QueueItem) (position : UInt32)
  | removeAt (queueId : String) (position : UInt32)
  | replace (queueId : String) (items : List QueueItem)
  deriving DecidableEq,Repr

def Call.queueId : Call → String
  | .append queueId _ | .insertAt queueId _ _ | .removeAt queueId _ | .replace queueId _ => queueId

def Call.items : Call → List QueueItem
  | .append _ item | .insertAt _ item _ => [item]
  | .removeAt _ _ => []
  | .replace _ items => items

def serve (store : Store) : Call → Store × Except QueueError Unit
  | .append queueId item => ((append json store queueId item).1,(append json store queueId item).2.map fun _ => ())
  | .insertAt queueId item position => insertAt json store queueId item position
  | .removeAt queueId position => removeAt store queueId position
  | .replace queueId items => replace json store queueId items

def step (store : Store) (call : Call) : Store := (serve json store call).1

end Verbs

def Call.change : Call → List QueueItem → List QueueItem
  | .append _ item,items => items++[item]
  | .insertAt _ item position,items => if position.toNat ≤ items.length then items.insertIdx position.toNat item else items
  | .removeAt _ position,items => items.eraseIdx position.toNat
  | .replace _ items,_ => items

def listStep (lists : String → List QueueItem) (call : Call) : String → List QueueItem :=
  Function.update lists call.queueId (call.change (lists call.queueId))

def ReadsBack (json : SerdeJson) (store : Store) (queueId : String) (items : List QueueItem) : Prop :=
  ∃ listed,list json store queueId = .ok listed ∧ listed.map (fun p => (p.item,p.position.toNat)) = items.zipIdx

section Rows

variable {json : SerdeJson} {store : Store} {queueId : String} {items : List QueueItem}

def numbered (records : List QueueItemRecord) : List PersistedQueueItem :=
  records.zipIdx.map fun (record,i) => persistedQueueItemFrom record (UInt32.ofNat i)

theorem renumber_records (queue : List PersistedQueueItem) : renumber queue = numbered (queue.map (·.toQueueItemRecord)) := by
  simp [renumber,numbered,List.zipIdx_map,persistedQueueItemFrom,Function.comp_def]

theorem numbered_records (records : List QueueItemRecord) : (numbered records).map (·.toQueueItemRecord) = records := by
  simp [numbered,persistedQueueItemFrom,Function.comp_def]

@[simp] theorem numbered_length (records : List QueueItemRecord) : (numbered records).length = records.length := by simp [numbered]

theorem numbered_append (records : List QueueItemRecord) (record : QueueItemRecord) :
    numbered (records++[record]) = numbered records++[persistedQueueItemFrom record (UInt32.ofNat records.length)] := by
  simp [numbered,List.zipIdx_append]

theorem renumber_insert (records : List QueueItemRecord) :
    renumber ((numbered records).insertIdx at' (persistedQueueItemFrom record position)) = numbered (records.insertIdx at' record) := by
  rw [renumber_records,List.map_insertIdx,numbered_records]
  rfl

theorem renumber_erase (records : List QueueItemRecord) : renumber ((numbered records).eraseIdx at') = numbered (records.eraseIdx at') := by
  rw [renumber_records,← List.eraseIdx_map,numbered_records]

def textOf (json : SerdeJson) (item : QueueItem) : String := (json.toString item.metadata).toOption.getD ""

def recordOf (json : SerdeJson) (queueId : String) (item : QueueItem) : QueueItemRecord := itemRecord queueId item (textOf json item)

def Holds (json : SerdeJson) (store : Store) (lists : String → List QueueItem) : Prop :=
  ∀ queueId,queueId ≠ "" → queueOf store queueId = numbered ((lists queueId).map (recordOf json queueId))

theorem textOf_written (trips : json.RoundTrips item.metadata) : json.toString item.metadata = .ok (textOf json item) := by
  obtain ⟨text,written,-⟩ := trips
  simp [textOf,written,Except.toOption]

theorem textOf_read (trips : json.RoundTrips item.metadata) : json.fromStr (textOf json item) = .ok item.metadata := by
  obtain ⟨text,written,back⟩ := trips
  rw [show textOf json item = text by simp [textOf,written,Except.toOption],back]

theorem texts_written (trips : ∀ item ∈ items,json.RoundTrips item.metadata) :
    items.mapM (fun item => json.toString item.metadata) = .ok (items.map (textOf json)) := by
  induction items with
  | nil => rfl
  | cons item rest ih =>
    rw [List.mapM_cons,textOf_written (trips item List.mem_cons_self),ih fun other member => trips other (List.mem_cons_of_mem _ member)]
    rfl

@[simp] theorem queueOf_insert (store : Store) (queue : List PersistedQueueItem) :
    queueOf (store.insert queueId queue) other = if other = queueId then queue else queueOf store other := by
  unfold queueOf
  rw [get_insert]
  split <;> rfl

theorem queueOf_removed (store : Store) (queueId : String) (position : UInt32) :
    queueOf (removeQueueItemAt store queueId position) queueId =
      if position.toNat < (queueOf store queueId).length then renumber ((queueOf store queueId).eraseIdx position.toNat)
      else queueOf store queueId := by
  unfold removeQueueItemAt
  cases there : get store queueId with
  | none => simp [queueOf,there]
  | some queue =>
    have queued : queueOf store queueId = queue := by simp [queueOf,there]
    rw [queued]
    dsimp only
    split
    · rw [queueOf_insert,if_pos rfl]
    · exact queued

-- What a call makes of the queue it names; the calls on an empty id are refused as a whole.
theorem step_named (json : SerdeJson) (store : Store) (call : Call) (named : call.queueId ≠ "")
    (trips : ∀ item ∈ call.items,json.RoundTrips item.metadata)
    (holds : queueOf store call.queueId = numbered (items.map (recordOf json call.queueId))) :
    queueOf (step json store call) call.queueId = numbered ((call.change items).map (recordOf json call.queueId)) := by
  unfold step
  cases call with
  | append queueId item =>
    have written := textOf_written (trips item List.mem_cons_self)
    simp only [Call.queueId] at named holds ⊢
    simp only [serve,append,named,if_false,written,appendQueueItem,itemRecord,queueOf_insert,if_true,holds,numbered_length,List.length_map,
      Call.change,List.map_append,List.map_singleton,numbered_append,recordOf]
  | insertAt queueId item position =>
    have written := textOf_written (trips item List.mem_cons_self)
    simp only [Call.queueId] at named holds ⊢
    simp only [serve,insertAt,named,if_false,written,insertQueueItemAt,Call.change]
    have kept : queueOf store (itemRecord queueId item (textOf json item)).queueId = numbered (items.map (recordOf json queueId)) := holds
    rw [kept,numbered_length,List.length_map]
    by_cases inside : position.toNat ≤ items.length
    · rw [if_neg (Nat.not_lt.mpr inside),if_pos inside,renumber_insert,List.map_insertIdx]
      exact (queueOf_insert _ _).trans (if_pos rfl)
    · rw [if_pos (Nat.lt_of_not_le inside),if_neg inside]
      exact (queueOf_insert _ _).trans (if_pos rfl)
  | removeAt queueId position =>
    simp only [Call.queueId] at named holds ⊢
    simp only [serve,removeAt,named,if_false,Call.change]
    rw [queueOf_removed,holds,numbered_length,List.length_map]
    split
    · rw [renumber_erase,List.eraseIdx_map]
    · rename_i outside
      rw [List.eraseIdx_of_length_le (Nat.le_of_not_lt outside)]
  | replace queueId replacing =>
    simp only [Call.queueId] at named ⊢
    have written : replacing.mapM (fun item => json.toString item.metadata) = .ok (replacing.map (textOf json)) := texts_written trips
    simp only [serve,replace,named,if_false,written,replaceQueue,queueOf_insert,if_true,Call.change,List.zipWith_map_right,List.zipWith_self]
    rfl

theorem step_elsewhere (json : SerdeJson) (store : Store) (call : Call) (apart : other ≠ call.queueId) :
    queueOf (step json store call) other = queueOf store other := by
  unfold step
  cases call with
  | append queueId item =>
    simp only [Call.queueId] at apart
    simp only [serve,append]
    split
    · rfl
    · split
      · rfl
      · exact (queueOf_insert _ _).trans (if_neg apart)
  | insertAt queueId item position =>
    simp only [Call.queueId] at apart
    simp only [serve,insertAt]
    split
    · rfl
    · split
      · rfl
      · simp only [insertQueueItemAt]
        split
        · exact (queueOf_insert _ _).trans (if_neg apart)
        · exact (queueOf_insert _ _).trans (if_neg apart)
  | removeAt queueId position =>
    simp only [Call.queueId] at apart
    simp only [serve,removeAt,removeQueueItemAt]
    split
    · rfl
    · split
      · rfl
      · split
        · exact (queueOf_insert _ _).trans (if_neg apart)
        · rfl
  | replace queueId replacing =>
    simp only [Call.queueId] at apart
    simp only [serve,replace]
    split
    · rfl
    · split
      · rfl
      · exact (queueOf_insert _ _).trans (if_neg apart)

theorem step_holds (json : SerdeJson) (call : Call) (trips : ∀ item ∈ call.items,json.RoundTrips item.metadata)
    (holds : Holds json store lists) : Holds json (step json store call) (listStep lists call) := by
  intro queueId named
  unfold listStep
  by_cases same : queueId = call.queueId
  · subst same
    rw [Function.update_self]
    exact step_named json store call named trips (holds _ named)
  · rw [Function.update_of_ne same,step_elsewhere json store call same]
    exact holds queueId named

theorem lifecycle_read (lifecycle : LifecycleType) : LifecycleType.parseWire lifecycle.asStr = some lifecycle := by
  cases lifecycle <;> rfl

theorem queuedBy_read (queuedBy : QueuedBy) : QueuedBy.parseWire queuedBy.asStr = some queuedBy := by
  cases queuedBy <;> rfl

-- The one thing the read side checks that the write side does not.
theorem row_read (trips : json.RoundTrips item.metadata) (position : UInt32) :
    positionedItemFromRow json (persistedQueueItemFrom (recordOf json queueId item) position) =
      if item.itemType = "" then .error (.invalid "item_type is empty") else .ok ⟨position,item⟩ := by
  unfold positionedItemFromRow queueItemFromRow
  simp only [persistedQueueItemFrom,recordOf,itemRecord,lifecycle_read,queuedBy_read,textOf_read trips]
  split <;> rfl

theorem rows_read (trips : ∀ item ∈ items,json.RoundTrips item.metadata) :
    ((items.zipIdx k).map fun (item,i) => persistedQueueItemFrom (recordOf json queueId item) (UInt32.ofNat i)).mapM
      (positionedItemFromRow json) = .ok listed ↔
    (∀ item ∈ items,item.itemType ≠ "") ∧ listed = (items.zipIdx k).map fun (item,i) => ⟨UInt32.ofNat i,item⟩ := by
  induction items generalizing k listed with
  | nil =>
    constructor
    · intro same
      cases same
      exact ⟨fun _ member => (nomatch member),rfl⟩
    · rintro ⟨-,rfl⟩
      rfl
  | cons item rest ih =>
    have later := fun listed => @ih (k+1) listed fun other member => trips other (List.mem_cons_of_mem _ member)
    simp only [List.zipIdx_cons,List.map_cons,List.mapM_cons,row_read (trips item List.mem_cons_self)]
    by_cases empty : item.itemType = ""
    · rw [if_pos empty]
      constructor
      · intro same
        cases same
      · rintro ⟨typed,-⟩
        exact absurd empty (typed item List.mem_cons_self)
    · rw [if_neg empty]
      simp only [List.forall_mem_cons,empty,ne_eq,not_false_eq_true,true_and]
      cases reading : ((rest.zipIdx (k+1)).map fun (item,i) => persistedQueueItemFrom (recordOf json queueId item) (UInt32.ofNat i)).mapM
          (positionedItemFromRow json) with
      | error e =>
        constructor
        · intro same
          cases same
        · rintro ⟨typed,-⟩
          have read := (later _).mpr ⟨typed,rfl⟩
          rw [reading] at read
          cases read
      | ok out =>
        obtain ⟨typed,rfl⟩ := (later out).mp reading
        constructor
        · intro same
          cases same
          exact ⟨typed,rfl⟩
        · rintro ⟨-,rfl⟩
          rfl

-- Positions wrap from 2^32 items on.
theorem positions_fit {items : List QueueItem} :
    (items.zipIdx.map fun (item,i) => (item,(UInt32.ofNat i).toNat)) = items.zipIdx ↔ items.length ≤ 2^32 := by
  constructor
  · intro same
    by_contra long
    have there : (2^32 : Nat) < items.length := Nat.lt_of_not_le long
    have entry := congrArg (·[2^32]?) same
    simp only [List.getElem?_map,List.getElem?_zipIdx,List.getElem?_eq_getElem there,Option.map_some,Option.some.injEq,Prod.mk.injEq,
      true_and,UInt32.toNat_ofNat'] at entry
    omega
  · intro short
    refine (List.map_congr_left fun entry member => ?_).trans (List.map_id _)
    obtain ⟨item,i⟩ := entry
    obtain ⟨-,inside,-⟩ := List.mem_zipIdx member
    have wraps : (UInt32.ofNat i).toNat = i := by
      rw [UInt32.toNat_ofNat']
      exact Nat.mod_eq_of_lt (by omega)
    exact Prod.ext rfl wraps

theorem reads_back (trips : ∀ item ∈ lists queueId,json.RoundTrips item.metadata) (holds : Holds json store lists) :
    ReadsBack json store queueId (lists queueId) ↔
      queueId ≠ "" ∧ (∀ item ∈ lists queueId,item.itemType ≠ "") ∧ (lists queueId).length ≤ 2^32 := by
  unfold ReadsBack list
  by_cases named : queueId = ""
  · rw [if_pos named]
    constructor
    · rintro ⟨listed,same,-⟩
      cases same
    · exact fun met => absurd named met.1
  · rw [if_neg named,holds queueId named,numbered,List.zipIdx_map,List.map_map]
    have read := fun listed => @rows_read json queueId (lists queueId) 0 listed trips
    simp only [Function.comp_def,Prod.map] at read ⊢
    constructor
    · rintro ⟨listed,same,positions⟩
      obtain ⟨typed,rfl⟩ := (read listed).mp same
      rw [List.map_map] at positions
      exact ⟨named,typed,positions_fit.mp positions⟩
    · rintro ⟨-,typed,short⟩
      refine ⟨_,(read _).mpr ⟨typed,rfl⟩,?_⟩
      rw [List.map_map]
      exact positions_fit.mpr short

theorem change_mem (call : Call) (member : item ∈ call.change items) : item ∈ items ∨ item ∈ call.items := by
  cases call with
  | append queueId added => simpa [Call.change,Call.items] using member
  | insertAt queueId added position =>
    simp only [Call.change] at member
    split at member
    · rcases List.mem_insertIdx (by assumption) |>.mp member with rfl | old
      · exact .inr List.mem_cons_self
      · exact .inl old
    · exact .inl member
  | removeAt queueId position => exact .inl (List.mem_of_mem_eraseIdx member)
  | replace queueId replacing => exact .inr member

-- The rows stand for the lists, and what the lists hold was passed in.
structure Stands (json : SerdeJson) (store : Store) (lists : String → List QueueItem) : Prop where
  holds : Holds json store lists
  trips : ∀ queueId,∀ item ∈ lists queueId,json.RoundTrips item.metadata

theorem step_stands (call : Call) (trips : ∀ item ∈ call.items,json.RoundTrips item.metadata) (stands : Stands json store lists) :
    Stands json (step json store call) (listStep lists call) := by
  refine ⟨step_holds json call trips stands.holds,fun queueId item member => ?_⟩
  unfold listStep at member
  by_cases same : queueId = call.queueId
  · subst same
    rw [Function.update_self] at member
    rcases change_mem call member with old | new
    · exact stands.trips _ item old
    · exact trips item new
  · rw [Function.update_of_ne same] at member
    exact stands.trips queueId item member

theorem run_stands (trips : ∀ call ∈ calls,∀ item ∈ call.items,json.RoundTrips item.metadata) (stands : Stands json store lists) :
    Stands json (run (step json) store calls) (run listStep lists calls) := by
  induction calls generalizing store lists with
  | nil => exact stands
  | cons call rest ih =>
    refine ih (fun other member => trips other (List.mem_cons_of_mem _ member)) ?_
    exact step_stands call (trips call List.mem_cons_self) stands

theorem empty_stands : Stands json ∅ fun _ => [] := by
  refine ⟨fun queueId _ => ?_,fun _ _ member => nomatch member⟩
  rw [queueOf,get_empty]
  rfl

end Rows

def refused (answer : Except QueueError Unit) : Bool :=
  match answer with
  | .error _ => true
  | .ok _ => false

def Call.isPast (call : Call) (items : List QueueItem) : Bool :=
  match call with
  | .insertAt _ _ position => decide (items.length < position.toNat)
  | _ => false

theorem serve_refused (stands : Stands json store lists) (call : Call) (named : call.queueId ≠ "")
    (trips : ∀ item ∈ call.items,json.RoundTrips item.metadata) :
    refused (serve json store call).2 = call.isPast (lists call.queueId) := by
  cases call with
  | append queueId item =>
    simp only [Call.queueId] at named
    simp [serve,append,named,textOf_written (trips item List.mem_cons_self),refused,Call.isPast,Except.map]
  | insertAt queueId item position =>
    simp only [Call.queueId] at named
    have kept : queueOf store (itemRecord queueId item (textOf json item)).queueId = numbered ((lists queueId).map (recordOf json queueId)) :=
      stands.holds queueId named
    simp only [serve,insertAt,named,if_false,textOf_written (trips item List.mem_cons_self),insertQueueItemAt,kept,numbered_length,
      List.length_map,Call.isPast,Call.queueId]
    split
    · rename_i past
      exact (decide_eq_true past).symm
    · rename_i inside
      exact (decide_eq_false inside).symm
  | removeAt queueId position =>
    simp only [Call.queueId] at named
    simp [serve,removeAt,named,refused,Call.isPast]
  | replace queueId replacing =>
    simp only [Call.queueId] at named
    have written : replacing.mapM (fun item => json.toString item.metadata) = .ok (replacing.map (textOf json)) := texts_written trips
    simp [serve,replace,named,written,refused,Call.isPast]

-- After any calls a queue reads back as its list exactly when it has a name, every item it holds has
-- a type and the positions fit; a call on a named queue is refused only past the end.
theorem queue_reads_back (json : SerdeJson) (calls : List Call)
    (trips : ∀ call ∈ calls,∀ item ∈ call.items,json.RoundTrips item.metadata) :
    (∀ queueId,ReadsBack json (run (step json) ∅ calls) queueId (run listStep (fun _ => []) calls queueId) ↔
      queueId ≠ "" ∧ (∀ item ∈ run listStep (fun _ => []) calls queueId,item.itemType ≠ "") ∧
        (run listStep (fun _ => []) calls queueId).length ≤ 2^32) ∧
    ∀ before call after,calls = before++call::after → call.queueId ≠ "" →
      refused (serve json (run (step json) ∅ before) call).2 = call.isPast (run listStep (fun _ => []) before call.queueId) := by
  constructor
  · intro queueId
    have stands : Stands json (run (step json) ∅ calls) (run listStep (fun _ => []) calls) := run_stands trips empty_stands
    exact reads_back (stands.trips queueId) stands.holds
  · rintro before call after rfl named
    refine serve_refused (run_stands (fun other member => trips other ?_) empty_stands) call named (trips call (by simp))
    exact List.mem_append_left _ member

section Untyped

def untitled : ItemMetadata := ⟨none,none,none,none,none,none,none,[],⟨none,none,[]⟩,0,[]⟩

def untitledText : String :=
  "\x7b\"title\":null,\"artist\":null,\"album\":null,\"duration_ms\":null,\"bitrate\":null,\"format\":null,\"artwork_uri\":null," ++
  "\"external_ids\":\x7b\"mbid\":null,\"isrc\":null\x7d,\"fetched_at_ms\":0\x7d"

-- serde_json on the default metadata, the only one that is queued below.
def untitledJson : SerdeJson where
  toString metadata := if metadata = untitled then .ok untitledText else .error ""
  fromStr s := if s = untitledText then .ok untitled else .error ""

theorem untitled_trips : untitledJson.RoundTrips untitled := ⟨untitledText,by simp [untitledJson],by simp [untitledJson]⟩

def track (uri itemType : String) : QueueItem := ⟨uri,itemType,.finiteProgress,⟨true,true,false⟩,untitled,"org.evo.local",0,.userVerb⟩

def typedCalls : List Call :=
  [.append "active" (track "file:1" "track"),.insertAt "active" (track "file:0" "track") 0,.removeAt "active" 7,
   .insertAt "active" (track "file:9" "track") 5,.removeAt "active" 1]

theorem typed_reads_back : ReadsBack untitledJson (run (step untitledJson) ∅ typedCalls) "active" [track "file:0" "track"] := by
  have trips : ∀ call ∈ typedCalls,∀ item ∈ call.items,untitledJson.RoundTrips item.metadata := by
    have only : ∀ call ∈ typedCalls,∀ item ∈ call.items,item.metadata = untitled := by decide
    intro call member item listed
    rw [only call member item listed]
    exact untitled_trips
  have lists : run listStep (fun _ => []) typedCalls "active" = [track "file:0" "track"] := by decide
  have read := (queue_reads_back untitledJson typedCalls trips).1 "active"
  rw [lists] at read
  exact read.mpr ⟨by decide,by decide,by decide⟩

-- An item without a type is taken, and from then on its queue cannot be listed.
theorem untyped_unread : (serve untitledJson ∅ (.append "active" (track "file:1" ""))).2 = .ok () ∧
    ¬ ReadsBack untitledJson (step untitledJson ∅ (.append "active" (track "file:1" ""))) "active" [track "file:1" ""] := by
  refine ⟨by decide,?_⟩
  rintro ⟨listed,same,-⟩
  have fails : list untitledJson (step untitledJson ∅ (.append "active" (track "file:1" ""))) "active" =
      .error (.invalid "item_type is empty") := by decide
  rw [fails] at same
  cases same

end Untyped

end EvoCore.Queue
