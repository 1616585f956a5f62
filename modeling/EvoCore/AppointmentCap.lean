import EvoCore.Appointments
import EvoCore.Runs

namespace EvoCore.Appointments
open Runs Tables

-- The runtime over its ledger and its store, one call of the loop or of a client after the other.
-- `issued` is the spec that a creator last issued under a key, with the dispatches of its action since.
structure AppointmentRuntime where
  ledger : AppointmentLedger
  store : AppointmentStore
  issued : Table AppointmentKey (AppointmentSpec × Nat)

inductive RuntimeEvent where
  | schedule (creator : String) (spec : AppointmentSpec) (action : AppointmentAction) (clock : Clock)
  | cancel (key : AppointmentKey)
  | fire (key : AppointmentKey) (clock : Clock) (trusted : Bool)
  | reevaluateAllPending (clock : Clock)
  | restart (clock : Clock)

variable {δ τ ω : Type} [DecidableEq δ] (chrono : Chrono δ τ ω)

def AppointmentRuntime.start (maxTotal maxPerCreator : Nat) : AppointmentRuntime := ⟨⟨∅,maxTotal,maxPerCreator⟩,∅,∅⟩

-- The upsert leaves created_at_ms as it was.
def recordAppointment (store : AppointmentStore) (row : PersistedAppointment) : AppointmentStore :=
  let key := (row.creator,row.spec.appointmentId)
  store.insert key {row with createdAtMs := ((get store key).map (·.createdAtMs)).getD row.createdAtMs}

def updateAppointmentAfterFire (store : AppointmentStore) (key : AppointmentKey) (nextFireAtMs : Option Nat) (firedAtMs firesCompleted : Nat) :
    AppointmentStore :=
  modify store key ({· with nextFireAtMs := nextFireAtMs,lastFiredAtMs := some firedAtMs,firesCompleted := firesCompleted})

def AppointmentRuntime.schedule (s : AppointmentRuntime) (creator : String) (spec : AppointmentSpec) (action : AppointmentAction)
    (clock : Clock) : AppointmentRuntime :=
  match nextFireAfter chrono spec clock.nowMs 0 with
  | .error _ => s
  | .ok nextMs =>
    match s.ledger.schedule creator spec action (nextMs.map (msToInstant clock)) with
    | .error _ => s
    | .ok ledger => {s with
        ledger := ledger
        store := recordAppointment s.store ⟨creator,spec,action,nextMs,none,0,clock.nowMs⟩
        issued := s.issued.insert (creator,spec.appointmentId) (spec,0)}

def AppointmentRuntime.cancel (s : AppointmentRuntime) (key : AppointmentKey) : AppointmentRuntime :=
  match s.ledger.cancel key with
  | (ledger,true) => {s with ledger := ledger,store := s.store.erase key}
  | (_,false) => s

def nextAfterFire (entry : AppointmentEntry) (clock : Clock) : Option Nat :=
  match nextFireAfter chrono entry.spec (clock.nowMs+1) (entry.firesCompleted+1) with
  | .ok next => next
  | .error _ => none

def AppointmentRuntime.advanceAfterFire (s : AppointmentRuntime) (entry : AppointmentEntry) (clock : Clock) : AppointmentRuntime :=
  let nextMs := nextAfterFire chrono entry clock
  {s with
    ledger := (s.ledger.markFired entry.key clock.nowMs (nextMs.map (msToInstant clock))).1
    store :=
      if nextMs.isSome then updateAppointmentAfterFire s.store entry.key nextMs clock.nowMs (entry.firesCompleted+1)
      else s.store.erase entry.key}

def AppointmentRuntime.dispatch (s : AppointmentRuntime) (key : AppointmentKey) : AppointmentRuntime :=
  {s with issued := modify s.issued key fun (spec,count) => (spec,count+1)}

def AppointmentRuntime.fireOne (s : AppointmentRuntime) (entry : AppointmentEntry) (clock : Clock) (trusted : Bool) : AppointmentRuntime :=
  match entry.firing clock trusted with
  | .untrusted => s
  | .missed _ _ => s.advanceAfterFire chrono entry clock
  | .dispatched => (s.dispatch entry.key).advanceAfterFire chrono entry clock

def reissue (clock : Clock) (ledger : AppointmentLedger) (entry : AppointmentEntry) : AppointmentLedger :=
  match nextFireAfter chrono entry.spec clock.nowMs entry.firesCompleted with
  | .error _ => ledger
  | .ok next =>
    match ledger.schedule entry.creator entry.spec entry.action (next.map (msToInstant clock)) with
    | .error _ => ledger
    | .ok after => after

def AppointmentRuntime.reevaluateAllPending (s : AppointmentRuntime) (clock : Clock) : AppointmentRuntime :=
  {s with ledger := s.ledger.pending.foldl (reissue chrono clock) s.ledger}

def listPendingAppointments (store : AppointmentStore) : List PersistedAppointment :=
  (store.entries.map (·.2)).insertionSort fun a b => a.createdAtMs ≤ b.createdAtMs

def restoreRow (clock : Clock) (ledger : AppointmentLedger) (row : PersistedAppointment) : AppointmentLedger :=
  match ledger.schedule row.creator row.spec row.action (row.nextFireAtMs.map (msToInstant clock)) with
  | .error _ => ledger
  | .ok after => after

def rehydrateFrom (ledger : AppointmentLedger) (store : AppointmentStore) (clock : Clock) : AppointmentLedger :=
  (listPendingAppointments store).foldl (restoreRow clock) ledger

def AppointmentRuntime.step (s : AppointmentRuntime) : RuntimeEvent → AppointmentRuntime
  | .schedule creator spec action clock => s.schedule chrono creator spec action clock
  | .cancel key => s.cancel key
  | .fire key clock trusted =>
    match get s.ledger.entries key with
    | some entry => if entry.due clock then s.fireOne chrono entry clock trusted else s
    | none => s
  | .reevaluateAllPending clock => s.reevaluateAllPending chrono clock
  | .restart clock => {s with ledger := rehydrateFrom ⟨∅,s.ledger.maxTotal,s.ledger.maxPerCreator⟩ s.store clock}

def Capped (s : AppointmentRuntime) : Prop :=
  ∀ key spec count cap,get s.issued key = some (spec,count) → spec.maxFires = some cap → count ≤ cap

-- What is pending in the ledger or in the store keeps its count where it stays.
structure Recounted (before after : AppointmentRuntime) : Prop where
  entries : ∀ key entry entry',get before.ledger.entries key = some entry → entry.state = .pending →
    get after.ledger.entries key = some entry' → entry'.firesCompleted = entry.firesCompleted
  rows : ∀ key row entry',get before.store key = some row → get after.ledger.entries key = some entry' →
    entry'.firesCompleted = row.firesCompleted

def CountKept (s : AppointmentRuntime) (event : RuntimeEvent) : Prop :=
  match event with
  | .reevaluateAllPending _ => Recounted s (s.step chrono event)
  | .restart _ => Recounted s (s.step chrono event)
  | _ => True

-- Nothing that a clock adjustment or a restart issues again has fired.
def Unfired (s : AppointmentRuntime) : RuntimeEvent → Prop
  | .reevaluateAllPending clock => ∀ key entry next,get s.ledger.entries key = some entry → entry.state = .pending →
      nextFireAfter chrono entry.spec clock.nowMs entry.firesCompleted = .ok next → entry.firesCompleted = 0
  | .restart clock => ∀ key row,get s.store key = some row →
      (get (rehydrateFrom ⟨∅,s.ledger.maxTotal,s.ledger.maxPerCreator⟩ s.store clock).entries key).isSome → row.firesCompleted = 0
  | _ => True

structure EntryKept (s : AppointmentRuntime) (key : AppointmentKey) (entry : AppointmentEntry) : Prop where
  keyed : entry.key = key
  issued : ∃ count,get s.issued key = some (entry.spec,count) ∧ count ≤ entry.firesCompleted
  capped : ∀ cap,entry.spec.maxFires = some cap → entry.firesCompleted ≤ cap
  room : entry.state = .pending → entry.nextFire.isSome → capReached entry.spec entry.firesCompleted = false

structure RowKept (s : AppointmentRuntime) (key : AppointmentKey) (row : PersistedAppointment) : Prop where
  keyed : (row.creator,row.spec.appointmentId) = key
  issued : ∃ count,get s.issued key = some (row.spec,count) ∧ count ≤ row.firesCompleted
  capped : ∀ cap,row.spec.maxFires = some cap → row.firesCompleted ≤ cap
  room : row.nextFireAtMs.isSome → capReached row.spec row.firesCompleted = false
  entry : ∀ entry,get s.ledger.entries key = some entry → entry.state = .pending ∧ entry.firesCompleted = row.firesCompleted

structure Accounted (s : AppointmentRuntime) : Prop where
  entries : ∀ key entry,get s.ledger.entries key = some entry → EntryKept s key entry
  rows : ∀ key row,get s.store key = some row → RowKept s key row
  capped : Capped s

variable {chrono} {s : AppointmentRuntime}

theorem capReached_false : capReached spec fires = false ↔ ∀ cap,spec.maxFires = some cap → fires < cap := by
  unfold capReached
  cases spec.maxFires with
  | none => simp
  | some cap => simp

theorem nextFireAfter_room (next : nextFireAfter chrono spec nowMs fires = .ok (some ms)) : capReached spec fires = false := by
  unfold nextFireAfter at next
  split at next
  · cases next
  · rename_i open_
    exact Bool.eq_false_iff.mpr open_

theorem nextAfterFire_room (next : (nextAfterFire chrono entry clock).isSome) :
    capReached entry.spec (entry.firesCompleted+1) = false := by
  unfold nextAfterFire at next
  split at next
  · rename_i found computed
    obtain ⟨ms,rfl⟩ := Option.isSome_iff_exists.mp next
    exact nextFireAfter_room computed
  · cases next

theorem schedule_entries {ledger after : AppointmentLedger} (accepted : ledger.schedule creator spec action nextFire = .ok after) :
    after = {ledger with
      entries := ledger.entries.insert (creator,spec.appointmentId) ⟨creator,spec,action,.pending,nextFire,none,0⟩} := by
  unfold AppointmentLedger.schedule at accepted
  split at accepted
  · cases accepted
  · cases accepted
    rfl

theorem EntryKept.frame {after : AppointmentRuntime} (kept : EntryKept s key entry) (issued : get after.issued key = get s.issued key) :
    EntryKept after key entry :=
  ⟨kept.keyed,by rw [issued]; exact kept.issued,kept.capped,kept.room⟩

theorem RowKept.frame {after : AppointmentRuntime} (kept : RowKept s key row) (issued : get after.issued key = get s.issued key)
    (ledger : get after.ledger.entries key = get s.ledger.entries key) : RowKept after key row :=
  ⟨kept.keyed,by rw [issued]; exact kept.issued,kept.capped,kept.room,by rw [ledger]; exact kept.entry⟩

theorem Accounted.at {after : AppointmentRuntime} (held : Accounted s) (key : AppointmentKey)
    (ledger : ∀ other,other ≠ key → get after.ledger.entries other = get s.ledger.entries other)
    (store : ∀ other,other ≠ key → get after.store other = get s.store other)
    (issued : ∀ other,other ≠ key → get after.issued other = get s.issued other)
    (entry : ∀ entry,get after.ledger.entries key = some entry → EntryKept after key entry)
    (row : ∀ row,get after.store key = some row → RowKept after key row)
    (capped : ∀ spec count cap,get after.issued key = some (spec,count) → spec.maxFires = some cap → count ≤ cap) :
    Accounted after := by
  refine ⟨?_,?_,?_⟩
  · intro other found there
    by_cases same : other = key
    · subst same
      exact entry found there
    · rw [ledger other same] at there
      exact (held.entries other found there).frame (issued other same)
  · intro other found there
    by_cases same : other = key
    · subst same
      exact row found there
    · rw [store other same] at there
      exact (held.rows other found there).frame (issued other same) (ledger other same)
  · intro other spec count cap there limit
    by_cases same : other = key
    · subst same
      exact capped spec count cap there limit
    · rw [issued other same] at there
      exact held.capped other spec count cap there limit

theorem fresh_room (computed : nextFireAfter chrono spec nowMs fires = .ok next) (some_ : (next.map change).isSome) :
    capReached spec fires = false := by
  rw [Option.isSome_map] at some_
  obtain ⟨ms,rfl⟩ := Option.isSome_iff_exists.mp some_
  exact nextFireAfter_room computed

theorem schedule_accounted (held : Accounted s) : Accounted (s.schedule chrono creator spec action clock) := by
  unfold AppointmentRuntime.schedule
  split
  · exact held
  · rename_i nextMs computed
    split
    · exact held
    · rename_i ledger accepted
      cases schedule_entries accepted
      apply held.at (creator,spec.appointmentId)
      · intro other apart
        simp [apart]
      · intro other apart
        simp [recordAppointment,apart]
      · intro other apart
        simp [apart]
      · intro entry there
        simp only [get_insert,↓reduceIte,Option.some.injEq] at there
        subst there
        refine ⟨rfl,⟨0,by simp⟩,by simp,?_⟩
        exact fun _ next => fresh_room computed next
      · intro row there
        simp only [recordAppointment,get_insert,↓reduceIte,Option.some.injEq] at there
        subst there
        refine ⟨rfl,⟨0,by simp⟩,by simp,?_,?_⟩
        · intro next
          obtain ⟨ms,same⟩ := Option.isSome_iff_exists.mp next
          simp only at same
          subst same
          exact nextFireAfter_room computed
        · intro entry there
          simp only [get_insert,↓reduceIte,Option.some.injEq] at there
          subst there
          exact ⟨rfl,rfl⟩
      · intro spec' count cap there _
        simp only [get_insert,↓reduceIte,Option.some.injEq,Prod.mk.injEq] at there
        omega

theorem cancel_accounted (held : Accounted s) : Accounted (s.cancel key) := by
  unfold AppointmentRuntime.cancel AppointmentLedger.cancel
  cases there : get s.ledger.entries key with
  | none => exact held
  | some entry =>
    have kept := held.entries key entry there
    by_cases gone : entry.state = .cancelled
    · simp only [gone,↓reduceIte]
      exact held
    · simp only [gone,↓reduceIte]
      apply held.at key
      · intro other apart
        simp [apart]
      · intro other apart
        simp [apart]
      · exact fun _ _ => rfl
      · intro found same
        simp only [get_insert,↓reduceIte,Option.some.injEq] at same
        subst same
        exact ⟨kept.keyed,kept.issued,kept.capped,by simp⟩
      · intro row found
        simp at found
      · exact fun spec count cap => held.capped key spec count cap

theorem due_room (kept : EntryKept s key entry) (due : entry.due clock) :
    entry.state = .pending ∧ capReached entry.spec entry.firesCompleted = false := by
  simp only [AppointmentEntry.due,Bool.and_eq_true,decide_eq_true_eq] at due
  refine ⟨due.1,kept.room due.1 ?_⟩
  cases next : entry.nextFire with
  | none => simp [next] at due
  | some instant => rfl

-- The fire is counted in the ledger whether it was dispatched or missed.
theorem advance_accounted {counted : AppointmentRuntime} (held : Accounted s) (there : get s.ledger.entries key = some entry) (due : entry.due clock)
    (ledger : counted.ledger = s.ledger) (store : counted.store = s.store)
    (others : ∀ other,other ≠ key → get counted.issued other = get s.issued other)
    (issued : ∃ count,get counted.issued key = some (entry.spec,count) ∧ count ≤ entry.firesCompleted+1) :
    Accounted (counted.advanceAfterFire chrono entry clock) := by
  have kept := held.entries key entry there
  obtain ⟨pending,room⟩ := due_room kept due
  have alive : entry.state ≠ .cancelled := by simp [pending]
  have under : ∀ cap,entry.spec.maxFires = some cap → entry.firesCompleted+1 ≤ cap := capReached_false.mp room
  have room' : (nextAfterFire chrono entry clock).isSome → capReached entry.spec (entry.firesCompleted+1) = false := nextAfterFire_room
  simp only [AppointmentRuntime.advanceAfterFire,kept.keyed,ledger,store]
  generalize nextAfterFire chrono entry clock = next at room'
  have marked : (s.ledger.markFired key clock.nowMs (next.map (msToInstant clock))).1 = {s.ledger with
      entries := s.ledger.entries.insert key {entry with
        firesCompleted := entry.firesCompleted+1
        lastFiredAtMs := some clock.nowMs
        nextFire := next.map (msToInstant clock)
        state := if (next.map (msToInstant clock)).isSome then .pending else .fired}} := by
    simp only [AppointmentLedger.markFired,there,alive,↓reduceIte]
  rw [marked]
  apply held.at key
  · intro other apart
    simp [apart]
  · intro other apart
    simp only
    split
    · simp [updateAppointmentAfterFire,apart]
    · simp [apart]
  · exact others
  · intro found same
    simp only [get_insert,↓reduceIte,Option.some.injEq] at same
    subst same
    refine ⟨kept.keyed,issued,under,?_⟩
    intro _ some_
    exact room' (by simpa using some_)
  · intro row found
    simp only at found
    split at found
    · rename_i some_
      simp only [updateAppointmentAfterFire,get_modify,↓reduceIte] at found
      obtain ⟨old,stored,rfl⟩ := Option.map_eq_some_iff.mp found
      have before := held.rows key old stored
      obtain ⟨count,listed,-⟩ := before.issued
      obtain ⟨count',listed',-⟩ := kept.issued
      have same : old.spec = entry.spec := by
        rw [listed] at listed'
        exact (Prod.mk.inj (Option.some.inj listed')).1
      refine ⟨before.keyed,by rw [same]; exact issued,by rw [same]; exact under,by rw [same]; exact room',?_⟩
      intro found' same'
      simp only [get_insert,↓reduceIte,Option.some.injEq] at same'
      subst same'
      simp [some_]
    · simp at found
  · intro spec count cap listed limit
    obtain ⟨count',listed',bound⟩ := issued
    simp only [listed',Option.some.injEq,Prod.mk.injEq] at listed
    obtain ⟨rfl,rfl⟩ := listed
    exact Nat.le_trans bound (under cap limit)

theorem fire_accounted (held : Accounted s) (there : get s.ledger.entries key = some entry) (due : entry.due clock) :
    Accounted (s.fireOne chrono entry clock trusted) := by
  have kept := held.entries key entry there
  obtain ⟨count,listed,bound⟩ := kept.issued
  unfold AppointmentRuntime.fireOne
  split
  · exact held
  · apply advance_accounted held there due rfl rfl (fun _ _ => rfl)
    exact ⟨count,listed,Nat.le_succ_of_le bound⟩
  · refine advance_accounted held there due rfl rfl ?_ ?_
    · intro other apart
      simp [AppointmentRuntime.dispatch,kept.keyed,apart]
    · exact ⟨count+1,by simp [AppointmentRuntime.dispatch,kept.keyed,listed],Nat.succ_le_succ bound⟩

-- What a clock adjustment makes of a pending entry, unless its recurrence cannot be evaluated.
def reissued (chrono : Chrono δ τ ω) (clock : Clock) (entry : AppointmentEntry) : Option AppointmentEntry :=
  match nextFireAfter chrono entry.spec clock.nowMs entry.firesCompleted with
  | .error _ => none
  | .ok next => some ⟨entry.creator,entry.spec,entry.action,.pending,next.map (msToInstant clock),none,0⟩

theorem reissue_get {ledger : AppointmentLedger} (present : (get ledger.entries entry.key).isSome) :
    get (reissue chrono clock ledger entry).entries key =
      if key = entry.key then (reissued chrono clock entry).or (get ledger.entries key) else get ledger.entries key := by
  have accepted : ledger.refusal entry.creator (entry.creator,entry.spec.appointmentId) = none := by
    have there : (get ledger.entries (entry.creator,entry.spec.appointmentId)).isSome := present
    simp [AppointmentLedger.refusal,there]
  unfold reissue reissued
  split
  · simp
  · simp only [AppointmentLedger.schedule,accepted,get_insert,AppointmentEntry.key]
    by_cases same : key = (entry.creator,entry.spec.appointmentId)
    · simp [same]
    · simp [same]

-- Each entry of the snapshot is still the ledger's when its turn comes, or was already issued again.
theorem reissue_all {look : AppointmentKey → Option AppointmentEntry} {ledger : AppointmentLedger}
    (done left : List AppointmentEntry) (keyed : ∀ key entry,look key = some entry → entry.key = key)
    (listed : ∀ entry,entry ∈ left → look entry.key = some entry)
    (now : ∀ key,get ledger.entries key = (look key).map fun entry =>
      if entry ∈ done then (reissued chrono clock entry).getD entry else entry) :
    ∀ key,get (left.foldl (reissue chrono clock) ledger).entries key = (look key).map fun entry =>
      if entry ∈ done ++ left then (reissued chrono clock entry).getD entry else entry := by
  induction left generalizing ledger done with
  | nil => simpa using now
  | cons first rest ih =>
    have here := listed first List.mem_cons_self
    rw [List.append_cons]
    apply ih
    · exact fun entry member => listed entry (List.mem_cons_of_mem _ member)
    · intro key
      have present : (get ledger.entries first.key).isSome := by rw [now,here]; rfl
      rw [reissue_get present,now key]
      by_cases same : key = first.key
      · rw [same,if_pos rfl,here]
        cases again : reissued chrono clock first with
        | none => simp [again]
        | some entry => simp [again]
      · rw [if_neg same]
        cases there : look key with
        | none => rfl
        | some entry =>
          have apart : entry ≠ first := by
            intro equal
            exact same ((keyed key entry there).symm.trans (by rw [equal]))
          simp [apart]

theorem pending_iff {ledger : AppointmentLedger} : entry ∈ ledger.pending ↔
    (∃ key,get ledger.entries key = some entry) ∧ entry.state = .pending := by
  simp only [AppointmentLedger.pending,List.mem_filter,List.mem_map,decide_eq_true_eq]
  constructor
  · rintro ⟨⟨⟨key,found⟩,member,same⟩,state⟩
    cases same
    exact ⟨⟨key,(entries_get _).mp member⟩,state⟩
  · rintro ⟨⟨key,there⟩,state⟩
    exact ⟨⟨⟨key,entry⟩,(entries_get _).mpr there,rfl⟩,state⟩

theorem reevaluated (keyed : ∀ key entry,get s.ledger.entries key = some entry → entry.key = key) :
    get (s.reevaluateAllPending chrono clock).ledger.entries key = (get s.ledger.entries key).map fun entry =>
      if entry.state = .pending then (reissued chrono clock entry).getD entry else entry := by
  have all : get (s.ledger.pending.foldl (reissue chrono clock) s.ledger).entries key = _ :=
    reissue_all [] s.ledger.pending keyed ?_ ?_ key
  · simp only [AppointmentRuntime.reevaluateAllPending,all,List.nil_append]
    cases there : get s.ledger.entries key with
    | none => rfl
    | some entry =>
      have listed : entry ∈ s.ledger.pending ↔ entry.state = .pending := by
        rw [pending_iff]
        exact ⟨fun member => member.2,fun state => ⟨⟨key,there⟩,state⟩⟩
      simp only [Option.map_some,listed]
  · intro entry member
    obtain ⟨⟨other,there⟩,-⟩ := pending_iff.mp member
    rw [keyed other entry there]
    exact there
  · intro other
    simp

theorem Accounted.keyed (held : Accounted s) : ∀ key entry,get s.ledger.entries key = some entry → entry.key = key :=
  fun key entry there => (held.entries key entry there).keyed

theorem reissued_some (found : reissued chrono clock entry = some again) :
    ∃ next,nextFireAfter chrono entry.spec clock.nowMs entry.firesCompleted = .ok next ∧
      again = ⟨entry.creator,entry.spec,entry.action,.pending,next.map (msToInstant clock),none,0⟩ := by
  unfold reissued at found
  split at found
  · cases found
  · rename_i next computed
    exact ⟨next,computed,(Option.some.inj found).symm⟩

theorem reevaluated_entry (held : Accounted s) (there : get (s.reevaluateAllPending chrono clock).ledger.entries key = some after) :
    ∃ entry,get s.ledger.entries key = some entry ∧ (after = entry ∨ entry.state = .pending ∧
      ∃ next,nextFireAfter chrono entry.spec clock.nowMs entry.firesCompleted = .ok next ∧
        after = ⟨entry.creator,entry.spec,entry.action,.pending,next.map (msToInstant clock),none,0⟩) := by
  rw [reevaluated held.keyed] at there
  obtain ⟨entry,old,rfl⟩ := Option.map_eq_some_iff.mp there
  refine ⟨entry,old,?_⟩
  split
  · rename_i state
    cases again : reissued chrono clock entry with
    | none => exact .inl rfl
    | some fresh => exact .inr ⟨state,reissued_some again⟩
  · exact .inl rfl

theorem reevaluate_accounted (held : Accounted s) (unfired : Unfired chrono s (.reevaluateAllPending clock)) :
    Accounted (s.reevaluateAllPending chrono clock) := by
  refine ⟨?_,?_,held.capped⟩
  · intro key after there
    obtain ⟨entry,old,same | ⟨state,next,computed,rfl⟩⟩ := reevaluated_entry held there
    · subst same
      exact (held.entries key after old).frame rfl
    · have kept := held.entries key entry old
      have zero := unfired key entry next old state computed
      refine ⟨kept.keyed,?_,by simp,?_⟩
      · obtain ⟨count,listed,bound⟩ := kept.issued
        exact ⟨count,listed,by simp only; omega⟩
      · rw [zero] at computed
        exact fun _ some_ => fresh_room computed some_
  · intro key row stored
    have before := held.rows key row stored
    refine ⟨before.keyed,before.issued,before.capped,before.room,?_⟩
    intro after there
    obtain ⟨entry,old,same | ⟨state,next,computed,rfl⟩⟩ := reevaluated_entry held there
    · subst same
      exact before.entry after old
    · have zero := unfired key entry next old state computed
      exact ⟨rfl,by rw [←(before.entry entry old).2,zero]⟩

def PersistedAppointment.restored (clock : Clock) (row : PersistedAppointment) : AppointmentEntry :=
  ⟨row.creator,row.spec,row.action,.pending,row.nextFireAtMs.map (msToInstant clock),none,0⟩

theorem restored_entry {ledger : AppointmentLedger} {rows all : List PersistedAppointment}
    (known : ∀ key entry,get ledger.entries key = some entry →
      ∃ row,row ∈ all ∧ entry = row.restored clock ∧ (row.creator,row.spec.appointmentId) = key)
    (part : ∀ row,row ∈ rows → row ∈ all) :
    ∀ key entry,get (rows.foldl (restoreRow clock) ledger).entries key = some entry →
      ∃ row,row ∈ all ∧ entry = row.restored clock ∧ (row.creator,row.spec.appointmentId) = key := by
  induction rows generalizing ledger with
  | nil => exact known
  | cons first rest ih =>
    apply ih
    · intro key entry there
      unfold restoreRow at there
      split at there
      · exact known key entry there
      · rename_i after accepted
        cases schedule_entries accepted
        simp only [get_insert] at there
        split at there
        · rename_i same
          exact ⟨first,part first List.mem_cons_self,(Option.some.inj there).symm,same.symm⟩
        · exact known key entry there
    · exact fun row member => part row (List.mem_cons_of_mem _ member)

theorem rehydrated_entry (held : Accounted s)
    (there : get (rehydrateFrom ⟨∅,s.ledger.maxTotal,s.ledger.maxPerCreator⟩ s.store clock).entries key = some entry) :
    ∃ row,get s.store key = some row ∧ entry = row.restored clock := by
  obtain ⟨row,member,same,own⟩ := restored_entry (by simp) (fun row member => member) key entry there
  have stored := (List.perm_insertionSort _ _).mem_iff.mp member
  obtain ⟨⟨other,found⟩,listed,rfl⟩ := List.mem_map.mp stored
  have there' := (entries_get _).mp listed
  have keyed := (held.rows other found there').keyed
  refine ⟨found,?_,same⟩
  rw [←own]
  simp only at keyed ⊢
  rw [keyed]
  exact there'

theorem restart_accounted (held : Accounted s) (unfired : Unfired chrono s (.restart clock)) :
    Accounted (s.step chrono (.restart clock)) := by
  refine ⟨?_,?_,held.capped⟩
  · intro key entry there
    obtain ⟨row,stored,rfl⟩ := rehydrated_entry held there
    have kept := held.rows key row stored
    have zero := unfired key row stored (Option.isSome_iff_exists.mpr ⟨_,there⟩)
    refine ⟨kept.keyed,?_,by simp [PersistedAppointment.restored],?_⟩
    · obtain ⟨count,listed,bound⟩ := kept.issued
      exact ⟨count,listed,by simp only [PersistedAppointment.restored]; omega⟩
    · intro _ some_
      have room := kept.room (by simpa [PersistedAppointment.restored] using some_)
      rw [zero] at room
      exact room
  · intro key row stored
    have kept := held.rows key row stored
    refine ⟨kept.keyed,kept.issued,kept.capped,kept.room,?_⟩
    intro entry there
    obtain ⟨found,again,rfl⟩ := rehydrated_entry held there
    exact ⟨rfl,(unfired key row stored (Option.isSome_iff_exists.mpr ⟨_,there⟩)).symm⟩

theorem step_accounted (held : Accounted s) (unfired : Unfired chrono s event) : Accounted (s.step chrono event) := by
  cases event with
  | schedule creator spec action clock => exact schedule_accounted held
  | cancel key => exact cancel_accounted held
  | fire key clock trusted =>
    simp only [AppointmentRuntime.step]
    split
    · rename_i entry there
      split
      · rename_i due
        exact fire_accounted held there due
      · exact held
    · exact held
  | reevaluateAllPending clock => exact reevaluate_accounted held unfired
  | restart clock => exact restart_accounted held unfired

theorem countKept_iff (held : Accounted s) : CountKept chrono s event ↔ Unfired chrono s event := by
  cases event with
  | reevaluateAllPending clock =>
    constructor
    · intro recounted key entry next there state computed
      have again : get (s.reevaluateAllPending chrono clock).ledger.entries key =
          some ⟨entry.creator,entry.spec,entry.action,.pending,next.map (msToInstant clock),none,0⟩ := by
        rw [reevaluated held.keyed,there]
        simp [state,reissued,computed]
      exact (recounted.entries key entry _ there state again).symm
    · intro unfired
      have same (key : AppointmentKey) (entry after : AppointmentEntry) (there : get s.ledger.entries key = some entry)
          (now : get (s.reevaluateAllPending chrono clock).ledger.entries key = some after) :
          after.firesCompleted = entry.firesCompleted := by
        obtain ⟨old,found,equal | ⟨state,next,computed,rfl⟩⟩ := reevaluated_entry held now
        · rw [there] at found
          cases found
          rw [equal]
        · rw [there] at found
          cases found
          exact (unfired key entry next there state computed).symm
      refine ⟨fun key entry after there _ now => same key entry after there now,?_⟩
      intro key row after stored now
      obtain ⟨old,found,-⟩ := reevaluated_entry held now
      rw [same key old after found now]
      exact ((held.rows key row stored).entry old found).2
  | restart clock =>
    constructor
    · intro recounted key row stored restored
      obtain ⟨entry,there⟩ := Option.isSome_iff_exists.mp restored
      obtain ⟨found,again,rfl⟩ := rehydrated_entry held there
      exact (recounted.rows key row _ stored there).symm
    · intro unfired
      have zero (key : AppointmentKey) (row : PersistedAppointment) (after : AppointmentEntry) (stored : get s.store key = some row)
          (now : get (s.step chrono (.restart clock)).ledger.entries key = some after) : after.firesCompleted = row.firesCompleted := by
        obtain ⟨found,again,rfl⟩ := rehydrated_entry held now
        exact (unfired key row stored (Option.isSome_iff_exists.mpr ⟨_,now⟩)).symm
      refine ⟨?_,zero⟩
      intro key entry after there _ now
      obtain ⟨row,stored,-⟩ := rehydrated_entry held now
      rw [zero key row after stored now]
      exact (((held.rows key row stored).entry entry there).2).symm
  | _ => exact Iff.rfl

theorem start_accounted : Accounted (.start maxTotal maxPerCreator) := by
  refine ⟨?_,?_,?_⟩ <;> simp [AppointmentRuntime.start,Capped]

theorem max_fires_kept_exactly (maxTotal maxPerCreator : Nat) (events : List RuntimeEvent) :
    (Throughout (AppointmentRuntime.step chrono) Capped (.start maxTotal maxPerCreator) events ∧
      Guarded (AppointmentRuntime.step chrono) (CountKept chrono) (.start maxTotal maxPerCreator) events) ↔
    Guarded (AppointmentRuntime.step chrono) (Unfired chrono) (.start maxTotal maxPerCreator) events := by
  have kept : Guarded (AppointmentRuntime.step chrono) (CountKept chrono) (.start maxTotal maxPerCreator) events ↔
      Guarded (AppointmentRuntime.step chrono) (Unfired chrono) (.start maxTotal maxPerCreator) events := by
    apply guarded_iff Accounted (fun s event held => countKept_iff held)
    · exact fun s event held counted => step_accounted held ((countKept_iff held).mp counted)
    · exact start_accounted
  constructor
  · exact fun both => kept.mp both.2
  · intro unfired
    refine ⟨?_,kept.mpr unfired⟩
    have all : Throughout (AppointmentRuntime.step chrono) Accounted (.start maxTotal maxPerCreator) events :=
      guarded_keeps (fun s event held (met : Unfired chrono s event) => step_accounted held met) start_accounted unfired
    exact throughout_prefixes.mpr fun k => (throughout_prefixes.mp all k).capped

-- A periodic appointment asks nothing of the calendar.
def noCalendar : Chrono Unit Unit Unit where
  parseTime _ _ := none
  parseDate _ _ := none
  fromTimestampMillis _ := none
  utcDate _ := ()
  localDate _ := ()
  addDays _ _ := none
  utcMillis _ _ := 0
  localMillis _ _ := .none
  weekday _ := .mon
  month _ := 1
  day _ := 1

def everySecondTwice : AppointmentSpec :=
  ⟨"chime",none,.utc,.periodic 1000,none,some 2,[],.catchup⟩

def chime : RuntimeEvent := .schedule "org.example.clock" everySecondTwice ⟨"audio.playback","play","null"⟩ ⟨0,0⟩

def chimeAt (ms : Nat) : RuntimeEvent := .fire ("org.example.clock","chime") ⟨ms,ms*1000000⟩ true

-- Either event between the first and the second fire sets the count back.
def adjustedRun : List RuntimeEvent :=
  [chime,chimeAt 1000,.reevaluateAllPending ⟨1500,1500000000⟩,chimeAt 2500,chimeAt 3501]

def restartedRun : List RuntimeEvent := [chime,chimeAt 1000,.restart ⟨1500,1500000000⟩,chimeAt 2001,chimeAt 3002]

theorem dispatched_beyond_max_fires :
    ¬ Capped (run (AppointmentRuntime.step noCalendar) (.start 10000 1000) adjustedRun) ∧
      ¬ Capped (run (AppointmentRuntime.step noCalendar) (.start 10000 1000) restartedRun) := by
  refine ⟨?_,?_⟩
  · intro capped
    have three := capped ("org.example.clock","chime") everySecondTwice 3 2 (by decide) rfl
    omega
  · intro capped
    have three := capped ("org.example.clock","chime") everySecondTwice 3 2 (by decide) rfl
    omega

end EvoCore.Appointments
