import EvoCore.CustodyLedger

namespace EvoCore.Custody
open Runs Tables

def CustodyRecord.view (record : CustodyRecord) :
    Option String × Option String × CustodyStateKind × Option (List UInt8 × HealthStatus) :=
  (record.shelf,record.custodyType,record.state,record.lastState.map fun s => (s.payload,s.health))

def Agrees (ledger : Ledger) : Prop :=
  ∀ key,(get (rehydrateFrom ledger.store) key).map CustodyRecord.view = (get ledger.entries key).map CustodyRecord.view

def Task.isFinished (task : Task) : Bool :=
  match task.stage with
  | .finished _ => true
  | _ => false

def Quiescent (ledger : Ledger) : Prop := ∀ task ∈ ledger.tasks,task.isFinished = true

-- A record seen as three columns, each with calls of its own that set it.
inductive Column where
  | placement
  | state
  | report
  deriving DecidableEq,Repr

inductive Cell where
  | placement (shelf custodyType : Option String)
  | state (kind : CustodyStateKind)
  | report (last : Option (List UInt8 × HealthStatus))
  deriving DecidableEq,Repr

def Cell.column : Cell → Column
  | .placement _ _ => .placement
  | .state _ => .state
  | .report _ => .report

def Call.sets : Call → Option Column
  | .recordCustody _ _ => some .placement
  | .recordState _ _ => some .report
  | .releaseCustody => none
  | .markAborted _ | .markDegraded _ => some .state

def Task.isPending (task : Task) : Bool :=
  match task.stage with
  | .parentStored | .stored => true
  | _ => false

-- The state, shelf and type that an upsert carries along without setting them are the row's own.
def CarriesState (row : Option PersistedCustody) (state : CustodyStateKind) : Prop :=
  match row with
  | some r => r.stateKind = stateKindToStr state ∧ r.stateReason = stateKindReason state
  | none => state = .active

def CarriesPlacement (row : Option PersistedCustody) (shelf custodyType : Option String) : Prop :=
  (shelf = none ∨ shelf = row.bind (·.shelf)) ∧ (custodyType = none ∨ custodyType = row.bind (·.custodyType))

-- An upsert of the custodies row among the calls on its handle that wait for their memory update.
def Joins (ledger : Ledger) (key : Key) (column : Column) : Prop :=
  ∀ other ∈ ledger.tasks,other.key = key → other.isPending = true →
    other.call ≠ .releaseCustody ∧ other.call.sets ≠ some column ∧
      (get ledger.store.custodies key = none → other.call.sets ≠ some .state)

def ClearTask (ledger : Ledger) (task : Task) : Prop :=
  match task.call,task.stage with
  | .recordCustody _ _,.read _ state =>
    Joins ledger task.key .placement ∧ CarriesState (get ledger.store.custodies task.key) state
  | .recordState _ _,.snapshotted _ state shelf custodyType =>
    Joins ledger task.key .report ∧ CarriesState (get ledger.store.custodies task.key) state ∧
      CarriesPlacement (get ledger.store.custodies task.key) shelf custodyType
  | .markAborted _,.begun | .markDegraded _,.begun =>
    Joins ledger task.key .state ∧ ((get ledger.store.custodies task.key).isSome → (get ledger.entries task.key).isSome)
  | .releaseCustody,.begun =>
    ∀ other ∈ ledger.tasks,other.key = task.key → other.isPending = true → other.call = .releaseCustody
  | _,_ => True

def Clear (ledger : Ledger) : Action → Prop
  | .advance i => ∀ task ∈ ledger.tasks[i]?,ClearTask ledger task
  | _ => True

section Columns

variable {row : Option PersistedCustody} {report : Option PersistedCustodyState} {record : Option CustodyRecord}
  {pending : Nat → Option Task}

def storeCell (row : PersistedCustody) (report : Option PersistedCustodyState) : Column → Option Cell
  | .placement => some (.placement row.shelf row.custodyType)
  | .state => (persistedState row).toOption.map .state
  | .report => (persistedSnapshot report).toOption.map fun last => .report (last.map fun s => (s.payload,s.health))

-- A handle without a record reads as the record that the first report would create, without the report.
def recordCell (record : Option CustodyRecord) : Column → Cell
  | .placement => .placement (record.bind (·.shelf)) (record.bind (·.custodyType))
  | .state => .state ((record.map (·.state)).getD .active)
  | .report => .report ((record.bind (·.lastState)).map fun s => (s.payload,s.health))

def cells (row : Option PersistedCustody) (report : Option PersistedCustodyState) (column : Column) : Option Cell :=
  match row with
  | some r => storeCell r report column
  | none => some (recordCell none column)

def Task.wrote (task : Task) : Option Cell :=
  match task.call,task.stage with
  | .recordCustody shelf custodyType,.stored => some (.placement (some shelf) (some custodyType))
  | .recordState payload health,.stored => some (.report (some (payload,health)))
  | .markAborted reason,.stored => some (.state (.aborted reason))
  | .markDegraded reason,.stored => some (.state (.degraded reason))
  | _,_ => none

theorem wrote_sets {task : Task} (written : task.wrote = some cell) : task.call.sets = some cell.column := by
  unfold Task.wrote at written
  split at written <;> cases written <;> simp_all [Call.sets,Cell.column]

-- One handle: its rows, its record, and the calls on it that wait for their memory update.
structure Tracks (row : Option PersistedCustody) (report : Option PersistedCustodyState) (record : Option CustodyRecord)
    (pending : Nat → Option Task) : Prop where
  orphan : row = none → report = none
  releasing : ∀ i task,pending i = some task → task.call = .releaseCustody →
    row = none ∧ ∀ j other,pending j = some other → other.call = .releaseCustody
  absent : row = none → record = none ∨ ∃ i task,pending i = some task ∧ task.call = .releaseCustody
  missing : row = none → ∀ i task,pending i = some task → task.call = .releaseCustody ∨ task.call.sets = some .state
  present : row ≠ none → record ≠ none ∨ ∃ i task,pending i = some task ∧
    (task.call.sets = some .placement ∨ task.call.sets = some .report)
  marked : row ≠ none → ∀ i task,pending i = some task → task.call.sets = some .state → record ≠ none
  wrote : ∀ r,row = some r → ∀ i task cell,pending i = some task → task.wrote = some cell →
    storeCell r report cell.column = some cell
  settled : ∀ r,row = some r → ∀ column,(∀ i task cell,pending i = some task → task.wrote = some cell → cell.column ≠ column) →
    storeCell r report column = some (recordCell record column)
  alone : ∀ i j task other column,pending i = some task → pending j = some other → task.call.sets = some column →
    other.call.sets = some column → i = j

theorem sets_release {task : Task} (sets : task.call.sets = some column) : task.call ≠ .releaseCustody := by
  intro same
  rw [same] at sets
  cases sets

def overlaid (task : Task) (under : Column → Option Cell) (column : Column) : Option Cell :=
  match task.wrote with
  | some cell => if cell.column = column then some cell else under column
  | none => under column

theorem overlaid_own {task : Task} (written : task.wrote = some cell) : overlaid task under cell.column = some cell := by
  simp [overlaid,written]

theorem overlaid_other {task : Task} (apart : ∀ cell,task.wrote = some cell → cell.column ≠ column) :
    overlaid task under column = under column := by
  unfold overlaid
  split
  · rename_i cell written
    rw [if_neg (apart cell written)]
  · rfl

theorem overlaid_aside {task : Task} (written : task.wrote = some cell) (apart : cell.column ≠ column) :
    overlaid task under column = under column := by
  apply overlaid_other
  intro own mine
  rw [written] at mine
  cases mine
  exact apart

theorem cells_absent (tracks : Tracks none report record pending) (free : ∀ j other,pending j = some other → other.call ≠ .releaseCustody) :
    record = none := by
  rcases tracks.absent rfl with gone | ⟨i,task,there,release⟩
  · exact gone
  · exact absurd release (free i task there)

theorem update_cases {new : Option Task} (there : Function.update pending i new j = some other) :
    (j = i ∧ new = some other) ∨ (j ≠ i ∧ pending j = some other) := by
  by_cases same : j = i
  · subst same
    rw [Function.update_self] at there
    exact .inl ⟨rfl,there⟩
  · rw [Function.update_of_ne same] at there
    exact .inr ⟨same,there⟩

-- A write to the rows by a call that then waits for its memory update.
theorem tracks_stored (column : Column) (tracks : Tracks row report record pending) (sets : task.call.sets = some column)
    (idle : ∀ before,pending i = some before → before.wrote = none ∧ before.call ≠ .releaseCustody)
    (joins : ∀ j other,j ≠ i → pending j = some other → other.call ≠ .releaseCustody ∧ other.call.sets ≠ some column ∧
      (row = none → other.call.sets ≠ some .state))
    (creates : column = .state → record ≠ none) (written : ∀ c,storeCell r report' c = overlaid task (cells row report) c) :
    Tracks (some r) report' record (Function.update pending i (some task)) := by
  have gone : row = none → record = none := by
    intro absent
    subst absent
    refine cells_absent tracks fun j other there => ?_
    by_cases same : j = i
    · exact (idle other (same ▸ there)).2
    · exact (joins j other same there).1
  constructor
  case orphan => exact fun absurdity => nomatch absurdity
  case absent => exact fun absurdity => nomatch absurdity
  case missing => exact fun absurdity => nomatch absurdity
  case releasing =>
    intro j other there release
    rcases update_cases there with ⟨-,⟨⟩⟩ | ⟨apart,there⟩
    · exact absurd release (sets_release sets)
    · exact absurd release (joins j other apart there).1
  case present =>
    intro _
    cases column with
    | placement => exact .inr ⟨i,task,Function.update_self _ _ _,.inl sets⟩
    | report => exact .inr ⟨i,task,Function.update_self _ _ _,.inr sets⟩
    | state => exact .inl (creates rfl)
  case marked =>
    intro _ j other there marking
    rcases update_cases there with ⟨-,⟨⟩⟩ | ⟨apart,there⟩
    · rw [sets] at marking
      exact creates (Option.some.inj marking)
    · by_cases absent : row = none
      · exact absurd marking ((joins j other apart there).2.2 absent)
      · exact tracks.marked absent j other there marking
  case wrote =>
    rintro _ ⟨⟩ j other cell there wrote
    rcases update_cases there with ⟨-,⟨⟩⟩ | ⟨apart,there⟩
    · rw [written,overlaid_own wrote]
    · have elsewhere : ∀ own,task.wrote = some own → own.column ≠ cell.column := by
        intro own mine same
        have both := wrote_sets mine
        rw [sets,same] at both
        exact (joins j other apart there).2.1 ((wrote_sets wrote).trans both.symm)
      rw [written,overlaid_other elsewhere]
      cases row with
      | none =>
        rcases tracks.missing rfl j other there with release | marking
        · exact absurd release (joins j other apart there).1
        · exact absurd marking ((joins j other apart there).2.2 rfl)
      | some before => exact tracks.wrote before rfl j other cell there wrote
  case settled =>
    rintro _ ⟨⟩ c free
    rw [written,overlaid_other fun own mine => free i task own (Function.update_self _ _ _) mine]
    cases row with
    | none => rw [gone rfl]; rfl
    | some before =>
      refine tracks.settled before rfl c fun j other cell there wrote => ?_
      by_cases same : j = i
      · rw [(idle other (same ▸ there)).1] at wrote
        cases wrote
      · exact free j other cell (by rw [Function.update_of_ne same,there]) wrote
  case alone =>
    intro j l one other c atJ atL setsJ setsL
    rcases update_cases atJ with ⟨rfl,⟨⟩⟩ | ⟨apart,there⟩
    · rcases update_cases atL with ⟨rfl,⟨⟩⟩ | ⟨apart',there'⟩
      · rfl
      · exact absurd (setsL.trans (setsJ.symm.trans sets)) (joins l other apart' there').2.1
    · rcases update_cases atL with ⟨rfl,⟨⟩⟩ | ⟨-,there'⟩
      · exact absurd (setsJ.trans (setsL.symm.trans sets)) (joins j one apart there).2.1
      · exact tracks.alone j l one other c there there' setsJ setsL

theorem update_none (there : Function.update pending i none j = some other) : j ≠ i ∧ pending j = some other := by
  rcases update_cases there with ⟨-,⟨⟩⟩ | found
  exact found

theorem tracks_updated (tracks : Tracks (some r) report record pending) (there : pending i = some task) (exists' : record' ≠ none)
    (written : ∀ c,some (recordCell record' c) = overlaid task (fun c => some (recordCell record c)) c) :
    Tracks (some r) report record' (Function.update pending i none) := by
  constructor
  case orphan => exact fun absurdity => nomatch absurdity
  case absent => exact fun absurdity => nomatch absurdity
  case missing => exact fun absurdity => nomatch absurdity
  case releasing =>
    intro j other found release
    exact nomatch (tracks.releasing j other (update_none found).2 release).1
  case present => exact fun _ => .inl exists'
  case marked => exact fun _ _ _ _ _ => exists'
  case wrote => exact fun r' same j other cell found wrote => tracks.wrote r' same j other cell (update_none found).2 wrote
  case settled =>
    rintro _ ⟨⟩ c free
    rw [written]
    by_cases mine : ∃ own,task.wrote = some own ∧ own.column = c
    · obtain ⟨own,wrote,rfl⟩ := mine
      rw [overlaid_own wrote]
      exact tracks.wrote r rfl i task own there wrote
    · have elsewhere : ∀ own,task.wrote = some own → own.column ≠ c := fun own wrote same => mine ⟨own,wrote,same⟩
      rw [overlaid_other elsewhere]
      refine tracks.settled r rfl c fun j other cell found wrote => ?_
      by_cases same : j = i
      · subst same
        rw [there] at found
        cases found
        exact elsewhere cell wrote
      · exact free j other cell (by rw [Function.update_of_ne same,found]) wrote
  case alone =>
    exact fun j l one other c atJ atL => tracks.alone j l one other c (update_none atJ).2 (update_none atL).2

theorem tracks_missing (free : ∀ j other,pending j = some other → other.call = .releaseCustody ∨ other.call.sets = some .state)
    (alone : ∀ i j task other column,pending i = some task → pending j = some other → task.call.sets = some column →
      other.call.sets = some column → i = j)
    (releasing : ∀ i task,pending i = some task → task.call = .releaseCustody →
      ∀ j other,pending j = some other → other.call = .releaseCustody)
    (absent : record = none ∨ ∃ i task,pending i = some task ∧ task.call = .releaseCustody) :
    Tracks none none record pending := by
  constructor
  case orphan => exact fun _ => rfl
  case releasing => exact fun i task there release => ⟨rfl,releasing i task there release⟩
  case absent => exact fun _ => absent
  case missing => exact fun _ => free
  case present => exact fun present => absurd rfl present
  case marked => exact fun present => absurd rfl present
  case wrote => exact fun _ there => nomatch there
  case settled => exact fun _ there => nomatch there
  case alone => exact alone

theorem tracks_unmarked (tracks : Tracks none report record pending) (sets : task.call.sets = some .state)
    (joins : ∀ j other,pending j = some other → other.call ≠ .releaseCustody ∧ other.call.sets ≠ some .state) :
    Tracks none report record (Function.update pending i (some task)) := by
  have gone := cells_absent tracks fun j other there => (joins j other there).1
  rw [tracks.orphan rfl]
  have only : ∀ j other,Function.update pending i (some task) j = some other → j = i ∧ other = task := by
    intro j other there
    rcases update_cases there with ⟨same,⟨⟩⟩ | ⟨-,there⟩
    · exact ⟨same,rfl⟩
    · rcases tracks.missing rfl j other there with release | marking
      · exact absurd release (joins j other there).1
      · exact absurd marking (joins j other there).2
  refine tracks_missing ?_ ?_ ?_ (.inl gone)
  · intro j other there
    rw [(only j other there).2]
    exact .inr sets
  · intro j l one other c atJ atL _ _
    rw [(only j one atJ).1,(only l other atL).1]
  · intro j other there release
    rw [(only j other there).2] at release
    exact absurd release (sets_release sets)

theorem tracks_dropped (tracks : Tracks none report none pending) : Tracks none report none (Function.update pending i none) := by
  rw [tracks.orphan rfl]
  refine tracks_missing ?_ ?_ ?_ (.inl rfl)
  · exact fun j other there => tracks.missing rfl j other (update_none there).2
  · exact fun j l one other c atJ atL => tracks.alone j l one other c (update_none atJ).2 (update_none atL).2
  · intro j other there release l another found
    exact (tracks.releasing j other (update_none there).2 release).2 l another (update_none found).2

theorem tracks_deleted (release : task.call = .releaseCustody) (joins : ∀ j other,pending j = some other → other.call = .releaseCustody) :
    Tracks none none record (Function.update pending i (some task)) := by
  have all : ∀ j other,Function.update pending i (some task) j = some other → other.call = .releaseCustody := by
    intro j other there
    rcases update_cases there with ⟨-,⟨⟩⟩ | ⟨-,there⟩
    · exact release
    · exact joins j other there
  refine tracks_missing (fun j other there => .inl (all j other there)) ?_ (fun _ _ _ _ => all) (.inr ⟨i,task,Function.update_self _ _ _,release⟩)
  intro j l one other c atJ _ sets
  exact absurd (all j one atJ) (sets_release sets)

theorem tracks_released (tracks : Tracks row report record pending) (there : pending i = some task) (release : task.call = .releaseCustody) :
    Tracks row report none (Function.update pending i none) := by
  obtain ⟨rfl,all⟩ := tracks.releasing i task there release
  rw [tracks.orphan rfl]
  refine tracks_missing ?_ ?_ ?_ (.inl rfl)
  · exact fun j other found => .inl (all j other (update_none found).2)
  · intro j l one other c atJ _ sets
    exact absurd (all j one (update_none atJ).2) (sets_release sets)
  · exact fun _ _ _ _ l another found => all l another (update_none found).2

theorem tracks_readable (tracks : Tracks (some r) report record pending) (column : Column) : ∃ cell,storeCell r report column = some cell := by
  by_cases mine : ∃ i task cell,pending i = some task ∧ task.wrote = some cell ∧ cell.column = column
  · obtain ⟨i,task,cell,there,wrote,rfl⟩ := mine
    exact ⟨cell,tracks.wrote r rfl i task cell there wrote⟩
  · refine ⟨_,tracks.settled r rfl column fun i task cell there wrote same => mine ⟨i,task,cell,there,wrote,same⟩⟩

theorem read_back (readable : ∀ column,∃ cell,storeCell r report column = some cell) :
    ∃ record,custodyRecordFromPersisted r report = .ok record ∧ ∀ column,storeCell r report column = some (recordCell (some record) column) := by
  obtain ⟨kind,state⟩ : ∃ kind,persistedState r = .ok kind := by
    obtain ⟨cell,there⟩ := readable .state
    cases read : persistedState r with
    | ok kind => exact ⟨kind,rfl⟩
    | error e =>
      rw [storeCell,read] at there
      cases there
  obtain ⟨last,snapshot⟩ : ∃ last,persistedSnapshot report = .ok last := by
    obtain ⟨cell,there⟩ := readable .report
    cases read : persistedSnapshot report with
    | ok last => exact ⟨last,rfl⟩
    | error e =>
      rw [storeCell,read] at there
      cases there
  refine ⟨_,custodyRecord_parts state snapshot,fun column => ?_⟩
  cases column with
  | placement => rfl
  | state => simp [storeCell,recordCell,state,Except.toOption]
  | report => simp [storeCell,recordCell,snapshot,Except.toOption]

theorem cells_view (same : ∀ column,recordCell (some one) column = recordCell (some other) column) : one.view = other.view := by
  have placement := same .placement
  have state := same .state
  have report := same .report
  simp only [recordCell,Cell.placement.injEq,Cell.state.injEq,Cell.report.injEq,Option.bind_some,Option.map_some,Option.getD_some]
    at placement state report
  simp only [CustodyRecord.view,placement.1,placement.2,state,report]

theorem tracks_restarted (tracks : Tracks row report record pending) :
    Tracks row report (row.bind fun r => (custodyRecordFromPersisted r report).toOption) fun _ => none := by
  cases row with
  | none =>
    rw [tracks.orphan rfl]
    refine tracks_missing ?_ ?_ ?_ (.inl rfl)
    · exact fun _ _ there => nomatch there
    · exact fun _ _ _ _ _ there => nomatch there
    · exact fun _ _ there => nomatch there
  | some r =>
    obtain ⟨back,read,same⟩ := read_back (tracks_readable tracks)
    rw [Option.bind_some,read]
    constructor
    case orphan => exact fun absurdity => nomatch absurdity
    case absent => exact fun absurdity => nomatch absurdity
    case missing => exact fun absurdity => nomatch absurdity
    case releasing => exact fun _ _ there => nomatch there
    case present => exact fun _ => .inl fun absurdity => nomatch absurdity
    case marked => exact fun _ _ _ there => nomatch there
    case wrote => exact fun _ _ _ _ _ there => nomatch there
    case alone => exact fun _ _ _ _ _ there => nomatch there
    case settled =>
      rintro _ ⟨⟩ column _
      exact same column

theorem tracks_agree (tracks : Tracks row report record fun _ => none) :
    (row.bind fun r => (custodyRecordFromPersisted r report).toOption).map CustodyRecord.view = record.map CustodyRecord.view := by
  cases row with
  | none =>
    rcases tracks.absent rfl with rfl | ⟨i,task,there,-⟩
    · rfl
    · cases there
  | some r =>
    obtain ⟨back,read,same⟩ := read_back (tracks_readable tracks)
    rcases tracks.present (fun absurdity => nomatch absurdity) with found | ⟨i,task,there,-⟩
    · obtain ⟨kept,rfl⟩ := Option.ne_none_iff_exists'.mp found
      rw [Option.bind_some,read]
      refine congrArg some (cells_view fun column => ?_)
      have settled := tracks.settled r rfl column fun _ _ _ there => nomatch there
      rw [same column] at settled
      exact Option.some.inj settled
    · cases there

end Columns

section Rows

variable {row : Option PersistedCustody} {report : Option PersistedCustodyState}

def upserted (row : Option PersistedCustody) (record : PersistedCustody) : PersistedCustody :=
  match row with
  | some existing => mergeRow existing record
  | none => record

@[simp] theorem upsertCustody_get (store : Store) (record : PersistedCustody) (key : Key) :
    get (upsertCustody store record).custodies key =
      if key = (record.plugin,record.handleId) then some (upserted (get store.custodies key) record) else get store.custodies key := by
  unfold upsertCustody
  by_cases same : key = (record.plugin,record.handleId)
  · subst same
    cases found : get store.custodies (record.plugin,record.handleId) <;> simp [found,upserted]
  · cases found : get store.custodies (record.plugin,record.handleId) <;> simp [found,same]

@[simp] theorem upsertCustody_state (store : Store) (record : PersistedCustody) :
    (upsertCustody store record).custodyState = store.custodyState := by
  unfold upsertCustody
  cases found : get store.custodies (record.plugin,record.handleId) <;> simp [found]

theorem upserted_state (orphan : row = none → report = none) (carries : CarriesState row state) :
    storeCell (upserted row (custodyRow task shelf custodyType state started)) report .state = cells row report .state := by
  have written : persistedState (upserted row (custodyRow task shelf custodyType state started)) = .ok state := by
    apply stateKind_read
    · cases row <;> rfl
    · cases row <;> rfl
  cases row with
  | none =>
    rw [storeCell,written,show state = .active from carries]
    rfl
  | some r => rw [storeCell,written,cells,storeCell,stateKind_read r state carries.1 carries.2]

theorem upserted_report (orphan : row = none → report = none) :
    storeCell (upserted row record) report .report = cells row report .report := by
  cases row with
  | none =>
    rw [orphan rfl]
    rfl
  | some r => rfl

theorem custody_cells (orphan : row = none → report = none) (carries : CarriesState row state)
    (wrote : after.wrote = some (.placement (some shelf) (some custodyType))) (column : Column) :
    storeCell (upserted row (custodyRow task (some shelf) (some custodyType) state started)) report column =
      overlaid after (cells row report) column := by
  cases column with
  | placement =>
    refine Eq.trans ?_ (overlaid_own wrote).symm
    cases row <;> rfl
  | state =>
    rw [upserted_state orphan carries,overlaid_aside wrote Column.noConfusion]
  | report =>
    rw [upserted_report orphan,overlaid_aside wrote Column.noConfusion]

theorem parent_cells (orphan : row = none → report = none) (carries : CarriesState row state)
    (placed : CarriesPlacement row shelf custodyType) (wrote : after.wrote = none) (column : Column) :
    storeCell (upserted row (custodyRow task shelf custodyType state started)) report column =
      overlaid after (cells row report) column := by
  rw [overlaid_other fun cell same => by rw [wrote] at same; cases same]
  cases column with
  | placement =>
    obtain ⟨shelved,typed⟩ := placed
    cases row with
    | none =>
      rcases shelved with rfl | rfl <;> rcases typed with rfl | rfl <;> rfl
    | some r =>
      have shelfKept : (if shelf.isSome then shelf else r.shelf) = r.shelf := by
        rcases shelved with rfl | rfl <;> simp
      have typeKept : (if custodyType.isSome then custodyType else r.custodyType) = r.custodyType := by
        rcases typed with rfl | rfl <;> simp
      exact congrArg some (congrArg₂ Cell.placement shelfKept typeKept)
  | state => exact upserted_state orphan carries
  | report => exact upserted_report orphan

theorem marked_cells (wrote : after.wrote = some (.state kind)) (column : Column) :
    storeCell { r with stateKind := stateKindToStr kind,stateReason := stateKindReason kind,lastUpdatedAtMs := at' } report column =
      overlaid after (cells (some r) report) column := by
  cases column with
  | state =>
    refine Eq.trans ?_ (overlaid_own wrote).symm
    rw [storeCell,stateKind_read _ kind rfl rfl]
    rfl
  | placement =>
    rw [overlaid_aside wrote Column.noConfusion]
    rfl
  | report =>
    rw [overlaid_aside wrote Column.noConfusion]
    rfl

theorem reported_cells (wrote : after.wrote = some (.report (some (payload,health)))) (column : Column) :
    storeCell r (some (stateRow task payload health)) column = overlaid after (cells (some r) report) column := by
  cases column with
  | report =>
    refine Eq.trans ?_ (overlaid_own wrote).symm
    simp [storeCell,persistedSnapshot,stateRow,healthToStr_read,Except.toOption]
  | placement =>
    rw [overlaid_aside wrote Column.noConfusion]
    rfl
  | state =>
    rw [overlaid_aside wrote Column.noConfusion]
    rfl

end Rows

section Records

variable {record : Option CustodyRecord}

theorem custody_recorded (wrote : task.wrote = some (.placement (some shelf) (some custodyType))) (column : Column) :
    some (recordCell (some (withCustody record key shelf custodyType now)) column) = overlaid task (fun c => some (recordCell record c)) column := by
  cases column with
  | placement =>
    refine Eq.trans ?_ (overlaid_own wrote).symm
    cases record <;> rfl
  | state =>
    rw [overlaid_aside wrote Column.noConfusion]
    cases record <;> rfl
  | report =>
    rw [overlaid_aside wrote Column.noConfusion]
    cases record <;> rfl

theorem state_recorded (wrote : task.wrote = some (.report (some (payload,health)))) (column : Column) :
    some (recordCell (some (withState record key ⟨payload,health,now⟩ now)) column) = overlaid task (fun c => some (recordCell record c)) column := by
  cases column with
  | report =>
    refine Eq.trans ?_ (overlaid_own wrote).symm
    cases record <;> rfl
  | state =>
    rw [overlaid_aside wrote Column.noConfusion]
    cases record <;> rfl
  | placement =>
    rw [overlaid_aside wrote Column.noConfusion]
    cases record <;> rfl

theorem mark_recorded (wrote : task.wrote = some (.state kind)) (column : Column) :
    some (recordCell (some { rec with state := kind,lastUpdated := now }) column) =
      overlaid task (fun c => some (recordCell (some rec) c)) column := by
  cases column with
  | state => exact (overlaid_own wrote).symm
  | placement =>
    rw [overlaid_aside wrote Column.noConfusion]
    rfl
  | report =>
    rw [overlaid_aside wrote Column.noConfusion]
    rfl

end Records

def pendingOn (tasks : List Task) (key : Key) (i : Nat) : Option Task :=
  tasks[i]?.filter fun task => decide (task.key = key) && task.isPending

theorem pendingOn_some : pendingOn tasks key i = some task ↔ tasks[i]? = some task ∧ task.key = key ∧ task.isPending = true := by
  simp [pendingOn,Option.filter_eq_some_iff]

theorem pendingOn_set (there : tasks[i]? = some task) (after : Task) : pendingOn (tasks.set i after) key =
    Function.update (pendingOn tasks key) i (if after.key = key ∧ after.isPending = true then some after else none) := by
  funext j
  obtain ⟨bound,-⟩ := List.getElem?_eq_some_iff.mp there
  by_cases same : j = i
  · subst same
    rw [Function.update_self,pendingOn,List.getElem?_set_self bound]
    by_cases waits : after.key = key ∧ after.isPending = true <;> simp [Option.filter,waits]
  · rw [Function.update_of_ne same,pendingOn,pendingOn,List.getElem?_set_ne (Ne.symm same)]

theorem pendingOn_append (begun : task.isPending = false) : pendingOn (tasks++[task]) key = pendingOn tasks key := by
  funext j
  unfold pendingOn
  rcases Nat.lt_trichotomy j tasks.length with inside | last | outside
  · rw [List.getElem?_append_left inside]
  · subst last
    simp [Option.filter,begun]
  · rw [List.getElem?_eq_none (by simpa using outside),List.getElem?_eq_none (by omega)]

structure Kept (ledger : Ledger) : Prop where
  keyed : Keyed ledger.store
  tracks : ∀ key,Tracks (get ledger.store.custodies key) (get ledger.store.custodyState key) (get ledger.entries key)
    (pendingOn ledger.tasks key)

theorem taskStep_keyed (keyed : Keyed store) : Keyed (taskStep entries store task).2.1 := by
  have upsert : ∀ shelf custodyType state started,Keyed (upsertCustody store (custodyRow task shelf custodyType state started)) := by
    intro shelf custodyType state started key row there
    rw [upsertCustody_get] at there
    split at there
    · rename_i same
      cases there
      cases found : get store.custodies key with
      | none => exact same.symm
      | some before => exact keyed key before found
    · exact keyed key row there
  have mark : ∀ kind reason ms,Keyed (markCustodyState store task.key kind reason ms).1 := by
    intro kind reason ms key row there
    simp only [markCustodyState,get_modify] at there
    split at there
    · rename_i same
      obtain ⟨before,found,rfl⟩ := Option.map_eq_some_iff.mp there
      exact same ▸ keyed task.key before found
    · exact keyed key row there
  unfold taskStep
  split
  case h_3 => exact upsert _ _ _ _
  case h_6 => exact upsert _ _ _ _
  case h_7 =>
    unfold upsertCustodyState
    split
    · rename_i out
      split at out
      · cases out
        exact keyed
      · cases out
    · exact keyed
  case h_9 =>
    intro key row there
    simp only [deleteCustody,get_erase] at there
    split at there
    · cases there
    · exact keyed key row there
  case h_11 => exact mark _ _ _
  case h_13 => exact mark _ _ _
  all_goals exact keyed

theorem taskStep_elsewhere (apart : key ≠ task.key) : get (taskStep entries store task).1 key = get entries key ∧
    get (taskStep entries store task).2.1.custodies key = get store.custodies key ∧
    get (taskStep entries store task).2.1.custodyState key = get store.custodyState key := by
  unfold taskStep
  split
  case h_3 => exact ⟨rfl,by simp [custodyRow,apart],by simp⟩
  case h_4 => exact ⟨by simp [apart],rfl,rfl⟩
  case h_6 => exact ⟨rfl,by simp [custodyRow,apart],by simp⟩
  case h_7 =>
    unfold upsertCustodyState
    split
    · rename_i out
      split at out
      · cases out
        exact ⟨rfl,rfl,by simp [stateRow,apart]⟩
      · cases out
    · exact ⟨rfl,rfl,rfl⟩
  case h_8 => exact ⟨by simp [apart],rfl,rfl⟩
  case h_9 => exact ⟨rfl,by simp [deleteCustody,apart],by simp [deleteCustody,apart]⟩
  case h_10 => exact ⟨by simp [apart],rfl,rfl⟩
  case h_11 => exact ⟨rfl,by simp [markCustodyState,apart],rfl⟩
  case h_12 => exact ⟨by simp [markEntry,apart],rfl,rfl⟩
  case h_13 => exact ⟨rfl,by simp [markCustodyState,apart],rfl⟩
  case h_14 => exact ⟨by simp [markEntry,apart],rfl,rfl⟩
  all_goals exact ⟨rfl,rfl,rfl⟩

def waiting (task : Task) : Option Task := if task.isPending = true then some task else none

def Turns (ledger : Ledger) (i : Nat) (task : Task) : Prop :=
  let (entries,store,stage) := taskStep ledger.entries ledger.store task
  Tracks (get store.custodies task.key) (get store.custodyState task.key) (get entries task.key)
    (Function.update (pendingOn ledger.tasks task.key) i (waiting { task with stage := stage }))

section Steps

variable {ledger : Ledger} {i : Nat} {key : Key} {now : Int}

theorem idle_pending (there : ledger.tasks[i]? = some task) (idle : task.isPending = false) : pendingOn ledger.tasks key i = none := by
  simp [pendingOn,there,Option.filter,idle]

theorem own_pending (there : ledger.tasks[i]? = some task) (waits : task.isPending = true) : pendingOn ledger.tasks task.key i = some task :=
  pendingOn_some.mpr ⟨there,rfl,waits⟩

theorem joins_pending (joins : Joins ledger key column) : ∀ j other,pendingOn ledger.tasks key j = some other →
    other.call ≠ .releaseCustody ∧ other.call.sets ≠ some column ∧
      (get ledger.store.custodies key = none → other.call.sets ≠ some .state) := by
  intro j other there
  obtain ⟨found,same,waits⟩ := pendingOn_some.mp there
  exact joins other (List.mem_of_getElem? found) same waits

theorem turns_quiet (kept : Kept ledger) (there : ledger.tasks[i]? = some task) (entries : (taskStep ledger.entries ledger.store task).1 = ledger.entries)
    (store : (taskStep ledger.entries ledger.store task).2.1 = ledger.store)
    (same : waiting { task with stage := (taskStep ledger.entries ledger.store task).2.2 } = waiting task) : Turns ledger i task := by
  have still : pendingOn ledger.tasks task.key i = waiting task := by
    unfold waiting
    split
    · rename_i waits
      exact own_pending there waits
    · rename_i idle
      exact idle_pending there (Bool.not_eq_true _ ▸ idle)
  unfold Turns
  simp only
  rw [entries,store,same,← still,Function.update_eq_self]
  exact kept.tracks task.key

theorem turns_custody (kept : Kept ledger) (there : ledger.tasks[i]? = some ⟨key,.recordCustody shelf custodyType,now,.read started state⟩)
    (clear : ClearTask ledger ⟨key,.recordCustody shelf custodyType,now,.read started state⟩) :
    Turns ledger i ⟨key,.recordCustody shelf custodyType,now,.read started state⟩ := by
  obtain ⟨joins,carries⟩ := clear
  have tracks := kept.tracks key
  simp only [Turns,taskStep,upsertCustody_get,upsertCustody_state,custodyRow,Prod.mk.eta,if_true]
  refine tracks_stored .placement tracks rfl ?_ ?_ ?_ (custody_cells tracks.orphan carries rfl)
  · intro before found
    rw [idle_pending there rfl] at found
    cases found
  · exact fun j other _ found => joins_pending joins j other found
  · exact fun absurdity => by cases absurdity

theorem turns_parent (kept : Kept ledger)
    (there : ledger.tasks[i]? = some ⟨key,.recordState payload health,now,.snapshotted started state shelf custodyType⟩)
    (clear : ClearTask ledger ⟨key,.recordState payload health,now,.snapshotted started state shelf custodyType⟩) :
    Turns ledger i ⟨key,.recordState payload health,now,.snapshotted started state shelf custodyType⟩ := by
  obtain ⟨joins,carries,placed⟩ := clear
  have tracks := kept.tracks key
  simp only [Turns,taskStep,upsertCustody_get,upsertCustody_state,custodyRow,Prod.mk.eta,if_true]
  refine tracks_stored .report tracks rfl ?_ ?_ ?_ (parent_cells tracks.orphan carries placed rfl)
  · intro before found
    rw [idle_pending there rfl] at found
    cases found
  · exact fun j other _ found => joins_pending joins j other found
  · exact fun absurdity => by cases absurdity

-- The parent row is there: only a release takes it away, and none could begin.
theorem turns_report (kept : Kept ledger) (there : ledger.tasks[i]? = some ⟨key,.recordState payload health,now,.parentStored⟩) :
    Turns ledger i ⟨key,.recordState payload health,now,.parentStored⟩ := by
  have tracks := kept.tracks key
  have own : pendingOn ledger.tasks key i = some ⟨key,.recordState payload health,now,.parentStored⟩ := own_pending there rfl
  cases row : get ledger.store.custodies key with
  | none =>
    rw [row] at tracks
    rcases tracks.missing rfl i _ own with release | marking
    · cases release
    · cases marking
  | some r =>
    rw [row] at tracks
    have accepted : upsertCustodyState ledger.store (stateRow ⟨key,.recordState payload health,now,.parentStored⟩ payload health) =
        .ok ⟨ledger.store.custodies,ledger.store.custodyState.insert key
          (stateRow ⟨key,.recordState payload health,now,.parentStored⟩ payload health)⟩ := by
      simp [upsertCustodyState,stateRow,row]
    simp only [Turns,taskStep,accepted,row,get_insert,if_true]
    refine tracks_stored .report tracks rfl ?_ ?_ ?_ (reported_cells rfl)
    · intro before found
      rw [own] at found
      cases found
      exact ⟨rfl,Call.noConfusion⟩
    · intro j other apart found
      refine ⟨?_,?_,?_⟩
      · intro release
        have releases := (tracks.releasing j other found release).1
        cases releases
      · exact fun sets => apart (tracks.alone j i other _ .report found own sets rfl)
      · exact fun absurdity => by cases absurdity
    · exact fun absurdity => by cases absurdity

theorem turns_marking (kind : CustodyStateKind) (kept : Kept ledger) (there : ledger.tasks[i]? = some task) (idle : task.isPending = false)
    (joins : Joins ledger task.key .state) (known : (get ledger.store.custodies task.key).isSome → (get ledger.entries task.key).isSome)
    (sets : task.call.sets = some .state) (stored : { task with stage := .stored }.wrote = some (.state kind))
    (out : taskStep ledger.entries ledger.store task =
      (ledger.entries,(markCustodyState ledger.store task.key (stateKindToStr kind) (stateKindReason kind) task.nowMs).1,.stored)) :
    Turns ledger i task := by
  have tracks := kept.tracks task.key
  have joined := joins_pending joins
  unfold Turns
  simp only [out,markCustodyState,get_modify,if_true]
  have waits : waiting { task with stage := .stored } = some { task with stage := .stored } := rfl
  rw [waits]
  cases row : get ledger.store.custodies task.key with
  | none =>
    rw [row] at tracks
    exact tracks_unmarked tracks sets fun j other found => ⟨(joined j other found).1,(joined j other found).2.1⟩
  | some r =>
    rw [row] at tracks known joined
    refine tracks_stored .state tracks sets ?_ ?_ ?_ (marked_cells stored)
    · intro before found
      rw [idle_pending there idle] at found
      cases found
    · exact fun j other _ found => joined j other found
    · intro _ absent
      rw [absent] at known
      cases known rfl

theorem turns_deleting (clear : ClearTask ledger ⟨key,.releaseCustody,now,.begun⟩) : Turns ledger i ⟨key,.releaseCustody,now,.begun⟩ := by
  simp only [Turns,taskStep,deleteCustody,get_erase,if_true]
  refine tracks_deleted rfl fun j other found => ?_
  obtain ⟨member,same,waits⟩ := pendingOn_some.mp found
  exact clear other (List.mem_of_getElem? member) same waits

theorem turns_released (kept : Kept ledger) (there : ledger.tasks[i]? = some ⟨key,.releaseCustody,now,.stored⟩) :
    Turns ledger i ⟨key,.releaseCustody,now,.stored⟩ := by
  simp only [Turns,taskStep,get_erase,if_true]
  exact tracks_released (kept.tracks key) (own_pending there rfl) rfl

-- A call past its store write finds its row unless the row was missing when it marked it.
theorem turns_recorded (kept : Kept ledger) (there : ledger.tasks[i]? = some task) (waits : task.isPending = true)
    (sets : task.call.sets = some .placement ∨ task.call.sets = some .report)
    (written : ∀ c,some (recordCell (some record) c) = overlaid task (fun c => some (recordCell (get ledger.entries task.key) c)) c)
    (out : taskStep ledger.entries ledger.store task = (ledger.entries.insert task.key record,ledger.store,.finished answer)) :
    Turns ledger i task := by
  have tracks := kept.tracks task.key
  have own := own_pending there waits
  unfold Turns
  simp only [out,get_insert,if_true]
  have finished : waiting { task with stage := .finished answer } = none := rfl
  rw [finished]
  cases row : get ledger.store.custodies task.key with
  | none =>
    rw [row] at tracks
    rcases tracks.missing rfl i task own with release | marking
    · rw [release] at sets
      rcases sets with sets | sets <;> cases sets
    · rw [marking] at sets
      rcases sets with sets | sets <;> cases sets
  | some r =>
    rw [row] at tracks
    exact tracks_updated tracks own (fun absurdity => by cases absurdity) written

theorem turns_marked (kept : Kept ledger) (there : ledger.tasks[i]? = some task) (waits : task.isPending = true)
    (wrote : task.wrote = some (.state kind))
    (out : taskStep ledger.entries ledger.store task =
      (markEntry ledger.entries task.key kind task.now,ledger.store,.finished answer)) : Turns ledger i task := by
  have tracks := kept.tracks task.key
  have own := own_pending there waits
  have sets : task.call.sets = some .state := wrote_sets wrote
  unfold Turns
  simp only [out,markEntry,get_modify,if_true]
  have finished : waiting { task with stage := .finished answer } = none := rfl
  rw [finished]
  cases row : get ledger.store.custodies task.key with
  | none =>
    rw [row] at tracks
    have gone : get ledger.entries task.key = none := by
      refine cells_absent tracks fun j other found release => ?_
      exact sets_release sets ((tracks.releasing j other found release).2 i task own)
    rw [gone] at tracks ⊢
    exact tracks_dropped tracks
  | some r =>
    rw [row] at tracks
    obtain ⟨rec,found⟩ := Option.ne_none_iff_exists'.mp (tracks.marked (fun absurdity => by cases absurdity) i task own sets)
    rw [found] at tracks ⊢
    exact tracks_updated tracks own (fun absurdity => by cases absurdity) (mark_recorded wrote)

theorem turns (kept : Kept ledger) (there : ledger.tasks[i]? = some task) (clear : ClearTask ledger task) : Turns ledger i task := by
  obtain ⟨key,call,now,stage⟩ := task
  cases call with
  | recordCustody shelf custodyType =>
    cases stage with
    | read started state => exact turns_custody kept there clear
    | stored => exact turns_recorded kept there rfl (.inl rfl) (custody_recorded rfl) rfl
    | _ => exact turns_quiet kept there rfl rfl rfl
  | recordState payload health =>
    cases stage with
    | snapshotted started state shelf custodyType => exact turns_parent kept there clear
    | parentStored => exact turns_report kept there
    | stored => exact turns_recorded kept there rfl (.inr rfl) (state_recorded rfl) rfl
    | _ => exact turns_quiet kept there rfl rfl rfl
  | releaseCustody =>
    cases stage with
    | begun => exact turns_deleting clear
    | stored => exact turns_released kept there
    | _ => exact turns_quiet kept there rfl rfl rfl
  | markAborted reason =>
    cases stage with
    | begun => exact turns_marking (.aborted reason) kept there rfl clear.1 clear.2 rfl rfl rfl
    | stored => exact turns_marked kept there rfl rfl rfl
    | _ => exact turns_quiet kept there rfl rfl rfl
  | markDegraded reason =>
    cases stage with
    | begun => exact turns_marking (.degraded reason) kept there rfl clear.1 clear.2 rfl rfl rfl
    | stored => exact turns_marked kept there rfl rfl rfl
    | _ => exact turns_quiet kept there rfl rfl rfl

end Steps

theorem advance_kept (kept : Kept ledger) (clear : Clear ledger (.advance i)) : Kept (advance ledger i) := by
  unfold advance
  cases there : ledger.tasks[i]? with
  | none => exact kept
  | some task =>
    refine ⟨taskStep_keyed kept.keyed,fun key => ?_⟩
    simp only
    rw [pendingOn_set there]
    by_cases own : key = task.key
    · subst own
      simpa [Turns,waiting] using turns kept there (clear task there)
    · obtain ⟨entries,custodies,state⟩ : _ ∧ _ ∧ _ := taskStep_elsewhere own
      rw [entries,custodies,state,if_neg fun both => own both.1.symm]
      have idle : pendingOn ledger.tasks key i = none := by
        simp [pendingOn,there,Option.filter,Ne.symm own]
      rw [← idle,Function.update_eq_self]
      exact kept.tracks key

theorem step_kept (ledger : Ledger) (action : Action) (kept : Kept ledger) (clear : Clear ledger action) : Kept (step ledger action) := by
  cases action with
  | call key call now =>
    refine ⟨kept.keyed,fun other => ?_⟩
    simp only [step]
    rw [pendingOn_append rfl]
    exact kept.tracks other
  | advance i => exact advance_kept kept clear
  | restart =>
    refine ⟨kept.keyed,fun key => ?_⟩
    simp only [step,rehydrateFrom_get kept.keyed]
    exact tracks_restarted (kept.tracks key)

theorem start_kept : Kept withPersistence := by
  refine ⟨fun key row there => ?_,fun key => ?_⟩
  · cases there
  · refine tracks_missing ?_ ?_ ?_ (.inl rfl)
    · exact fun _ _ there => nomatch there
    · exact fun _ _ _ _ _ there => nomatch there
    · exact fun _ _ there => nomatch there

theorem kept_agrees (kept : Kept ledger) (quiescent : Quiescent ledger) : Agrees ledger := by
  intro key
  have none : pendingOn ledger.tasks key = fun _ => none := by
    funext i
    cases found : pendingOn ledger.tasks key i with
    | none => rfl
    | some task =>
      obtain ⟨member,-,waits⟩ := pendingOn_some.mp found
      have finished := quiescent task (List.mem_of_getElem? member)
      unfold Task.isFinished at finished
      unfold Task.isPending at waits
      cases shape : task.stage <;> simp_all
  have tracks := kept.tracks key
  rw [none] at tracks
  rw [rehydrateFrom_get kept.keyed]
  exact tracks_agree tracks

-- Whenever all calls have finished the store holds what memory holds.
theorem ledger_agrees (actions : List Action) (clear : Guarded step Clear withPersistence actions) :
    Throughout step (fun ledger => Quiescent ledger → Agrees ledger) withPersistence actions := by
  have all := guarded_keeps step_kept start_kept clear
  rw [throughout_prefixes] at all ⊢
  exact fun k => kept_agrees (all k)

section Races

instance : Decidable (CarriesState row state) := by unfold CarriesState; split <;> infer_instance

instance : Decidable (CarriesPlacement row shelf custodyType) := inferInstanceAs (Decidable (_ ∧ _))

instance : Decidable (Joins ledger key column) :=
  inferInstanceAs (Decidable (∀ other ∈ ledger.tasks,other.key = key → other.isPending = true →
    other.call ≠ .releaseCustody ∧ other.call.sets ≠ some column ∧
      (get ledger.store.custodies key = none → other.call.sets ≠ some .state)))

instance : Decidable (ClearTask ledger task) := by unfold ClearTask; split <;> infer_instance

instance (ledger : Ledger) : DecidablePred (Clear ledger)
  | .advance i => inferInstanceAs (Decidable (∀ task ∈ ledger.tasks[i]?,ClearTask ledger task))
  | .call _ _ _ | .restart => isTrue trivial

def speaker : Key := ("org.evo.playback","h1")

-- The first report and the acceptance of its custody overlap at every section; then the custody is aborted.
def lazyUpsert : List Action :=
  [.call speaker (.recordState [1] .healthy) 1000000,.call speaker (.recordCustody "audio.playback" "playback") 2000000,
   .advance 1,.advance 0,.advance 1,.advance 0,.advance 1,.advance 0,.advance 1,.advance 0,
   .call speaker (.markAborted "lost") 3000000,.advance 2,.advance 2]

theorem lazyUpsert_agrees : Throughout step (fun ledger => Quiescent ledger → Agrees ledger) withPersistence lazyUpsert :=
  ledger_agrees lazyUpsert (by decide)

-- A custody is accepted, then accepted again with the state read before an abort and written after it.
def staleSnapshot : List Action :=
  [.call speaker (.recordCustody "audio.playback" "playback") 1000000,.advance 0,.advance 0,.advance 0,.advance 0,
   .call speaker (.recordCustody "audio.playback" "playback") 2000000,.advance 1,.advance 1,
   .call speaker (.markAborted "lost") 3000000,.advance 2,.advance 2,.advance 1,.advance 1]

-- A report that writes its rows after the release has deleted them and before the record goes.
def lateReport : List Action :=
  [.call speaker (.recordCustody "audio.playback" "playback") 1000000,.advance 0,.advance 0,.advance 0,.advance 0,
   .call speaker (.recordState [1] .healthy) 2000000,.advance 1,.call speaker .releaseCustody 3000000,
   .advance 2,.advance 1,.advance 1,.advance 1,.advance 2]

def restored (actions : List Action) : Option CustodyStateKind :=
  (get (rehydrateFrom (run step withPersistence actions).store) speaker).map (·.state)

def remembered (actions : List Action) : Option CustodyStateKind :=
  (get (run step withPersistence actions).entries speaker).map (·.state)

theorem agrees_state (agrees : Agrees (run step withPersistence actions)) : restored actions = remembered actions := by
  have states := congrArg (Option.map fun view => view.2.2.1) (agrees speaker)
  rw [Option.map_map,Option.map_map] at states
  exact states

-- The aborted custody would boot as active, the released one would come back.
theorem races_disagree :
    (Quiescent (run step withPersistence staleSnapshot) ∧ ¬ Agrees (run step withPersistence staleSnapshot)) ∧
    (Quiescent (run step withPersistence lateReport) ∧ ¬ Agrees (run step withPersistence lateReport)) := by
  have aborted : remembered staleSnapshot = some (.aborted "lost") ∧ restored staleSnapshot = some .active := by decide +kernel
  have released : remembered lateReport = none ∧ restored lateReport = some .active := by decide +kernel
  refine ⟨⟨List.all_eq_true.mp (by decide),fun agrees => ?_⟩,⟨List.all_eq_true.mp (by decide),fun agrees => ?_⟩⟩
  · have same := agrees_state agrees
    rw [aborted.1,aborted.2] at same
    cases same
  · have same := agrees_state agrees
    rw [released.1,released.2] at same
    cases same

end Races

end EvoCore.Custody
