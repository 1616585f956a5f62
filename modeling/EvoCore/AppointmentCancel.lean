import EvoCore.UntrustedTicks

namespace EvoCore.Appointments
open Runs Tables

-- The loop task beside its clients: every lock of the ledger is a step of its own, and the loop works
-- from the entries that it copied out before.
inductive Loop where
  | idle
  | firing (nowMs : Nat) (due : List AppointmentEntry)
  | advancing (nowMs : Nat) (entry : AppointmentEntry) (due : List AppointmentEntry)
  | reevaluating (nowMs : Nat) (left : List AppointmentEntry)
deriving DecidableEq,Repr

def Loop.entries : Loop → List AppointmentEntry
  | .idle => []
  | .firing _ due | .advancing _ _ due => due
  | .reevaluating _ left => left

-- `cancelled` are the keys whose last client call was a cancel that returned true, `raced` those of them
-- that were cancelled since the loop copied its entries out; no code reads either.
structure Scheduler where
  ledger : AppointmentLedger
  loop : Loop
  cancelled : List AppointmentKey
  raced : List AppointmentKey

inductive LockStep where
  | schedule (creator : String) (spec : AppointmentSpec) (action : AppointmentAction) (clock : Clock)
  | cancel (key : AppointmentKey)
  | fireDueEntries (clock : Clock)
  | fireOne (instant : Nat) (trusted : Bool)
  | advanceAfterFire (instant : Nat)
  | reevaluateAllPending (nowMs : Nat)
  | reissue (instant : Nat)
  | rest

variable {δ τ ω : Type} [DecidableEq δ] (chrono : Chrono δ τ ω)

def Scheduler.start (maxTotal maxPerCreator : Nat) : Scheduler := ⟨⟨∅,maxTotal,maxPerCreator⟩,.idle,[],[]⟩

def Scheduler.schedule (s : Scheduler) (creator : String) (spec : AppointmentSpec) (action : AppointmentAction) (clock : Clock) : Scheduler :=
  match nextFireAfter chrono spec clock.nowMs 0 with
  | .error _ => s
  | .ok nextMs =>
    match s.ledger.schedule creator spec action (nextMs.map (msToInstant clock)) with
    | .error _ => s
    | .ok ledger => {s with
        ledger := ledger
        cancelled := s.cancelled.filter fun key => key ≠ (creator,spec.appointmentId)
        raced := s.raced.filter fun key => key ≠ (creator,spec.appointmentId)}

def Scheduler.cancel (s : Scheduler) (key : AppointmentKey) : Scheduler :=
  match s.ledger.cancel key with
  | (ledger,true) => {s with ledger := ledger,cancelled := key::s.cancelled,raced := key::s.raced}
  | (_,false) => s

def Scheduler.step (s : Scheduler) : LockStep → Scheduler
  | .schedule creator spec action clock => s.schedule chrono creator spec action clock
  | .cancel key => s.cancel key
  | .fireDueEntries clock =>
    match s.loop with
    | .idle => {s with loop := .firing clock.nowMs (s.ledger.pending.filter fun entry => entry.due clock),raced := []}
    | _ => s
  | .fireOne instant trusted =>
    match s.loop with
    | .firing nowMs (entry::rest) =>
      match entry.firing ⟨nowMs,instant⟩ trusted with
      | .untrusted => {s with loop := .firing nowMs rest}
      | _ => {s with loop := .advancing nowMs entry rest}
    | _ => s
  | .advanceAfterFire instant =>
    match s.loop with
    | .advancing nowMs entry rest =>
      let nextMs := nextAfterFire chrono entry ⟨nowMs,instant⟩
      {s with
        ledger := (s.ledger.markFired entry.key nowMs (nextMs.map (msToInstant ⟨nowMs,instant⟩))).1
        loop := .firing nowMs rest}
    | _ => s
  | .reevaluateAllPending nowMs =>
    match s.loop with
    | .idle => {s with loop := .reevaluating nowMs s.ledger.pending,raced := []}
    | _ => s
  | .reissue instant =>
    match s.loop with
    | .reevaluating nowMs (entry::left) =>
      {s with ledger := reissue chrono ⟨nowMs,instant⟩ s.ledger entry,loop := .reevaluating nowMs left}
    | _ => s
  | .rest =>
    match s.loop with
    | .firing _ [] => {s with loop := .idle}
    | .reevaluating _ [] => {s with loop := .idle}
    | _ => s

def Scheduler.dispatches (s : Scheduler) : LockStep → Option AppointmentKey
  | .fireOne instant trusted =>
    match s.loop with
    | .firing nowMs (entry::_) => if entry.firing ⟨nowMs,instant⟩ trusted = .dispatched then some entry.key else none
    | _ => none
  | _ => none

def Scheduler.markedCancelled (s : Scheduler) (key : AppointmentKey) : Prop :=
  ∃ entry,get s.ledger.entries key = some entry ∧ entry.state = .cancelled

-- A step after which every cancelled entry is still so, and which starts none of their actions.
structure StaysCancelled (s : Scheduler) (event : LockStep) : Prop where
  state : ∀ key,key ∈ (s.step chrono event).cancelled → (s.step chrono event).markedCancelled key
  silent : ∀ key,s.dispatches event = some key → key ∉ s.cancelled

-- The key that a step writes back whatever became of it since the snapshot.
def Scheduler.writesBack (s : Scheduler) : LockStep → Option AppointmentKey
  | .reissue _ =>
    match s.loop with
    | .reevaluating nowMs (entry::_) => (nextFireAfter chrono entry.spec nowMs entry.firesCompleted).toOption.map fun _ => entry.key
    | _ => none
  | _ => none

-- No cancel falls between the copy that the loop works from and its write-back or dispatch of an entry.
structure Unraced (s : Scheduler) (event : LockStep) : Prop where
  dispatch : ∀ key,s.dispatches event = some key → key ∉ s.raced
  writeBack : ∀ key,s.writesBack chrono event = some key → key ∉ s.raced

def LockStep.byClient : LockStep → Bool
  | .schedule .. => true
  | .cancel _ => true
  | _ => false

-- The ledger marks as cancelled exactly what clients cancelled and did not schedule again, and of what the
-- loop copied exactly what was cancelled since.
structure Marked (s : Scheduler) : Prop where
  keyed : Keyed s.ledger
  cancelled : ∀ key,key ∈ s.cancelled ↔ s.markedCancelled key
  raced : ∀ entry ∈ s.loop.entries,entry.key ∈ s.raced ↔ s.markedCancelled entry.key

variable {chrono} {s : Scheduler}

theorem schedule_marked (marked : Marked s) : Marked (s.schedule chrono creator spec action clock) := by
  unfold Scheduler.schedule
  split
  · exact marked
  · rename_i nextMs _
    split
    · exact marked
    · rename_i ledger accepted
      have keyed := keyed_schedule marked.keyed accepted
      cases schedule_entries accepted
      have marks (keys : List AppointmentKey) (key : AppointmentKey) (before : key ∈ keys ↔ s.markedCancelled key) :
          key ∈ keys.filter (· ≠ (creator,spec.appointmentId)) ↔ ∃ entry,get (s.ledger.entries.insert (creator,spec.appointmentId)
            ⟨creator,spec,action,.pending,nextMs.map (msToInstant clock),none,0⟩) key = some entry ∧ entry.state = .cancelled := by
        simp only [Scheduler.markedCancelled,get_insert,List.mem_filter,decide_eq_true_eq] at before ⊢
        by_cases same : key = (creator,spec.appointmentId)
        · simp [same]
        · simpa [same] using before
      exact ⟨keyed,fun key => marks _ key (marked.cancelled key),fun entry member => marks _ _ (marked.raced entry member)⟩

theorem cancel_marked (marked : Marked s) : Marked (s.cancel key) := by
  have keyed := @keyed_cancel s.ledger key marked.keyed
  unfold Scheduler.cancel
  unfold AppointmentLedger.cancel at keyed ⊢
  cases there : get s.ledger.entries key with
  | none => exact marked
  | some entry =>
    by_cases gone : entry.state = .cancelled
    · simp only [gone,↓reduceIte]
      exact marked
    · simp only [there,gone,↓reduceIte] at keyed ⊢
      have marks (keys : List AppointmentKey) (other : AppointmentKey) (before : other ∈ keys ↔ s.markedCancelled other) :
          other ∈ key::keys ↔ ∃ found,get (s.ledger.entries.insert key {entry with state := .cancelled,nextFire := none}) other = some found ∧
            found.state = .cancelled := by
        simp only [Scheduler.markedCancelled,get_insert,List.mem_cons] at before ⊢
        by_cases same : other = key
        · simp [same]
        · simpa [same] using before
      exact ⟨keyed,fun other => marks _ other (marked.cancelled other),fun other member => marks _ _ (marked.raced other member)⟩

theorem markFired_cancelled {ledger : AppointmentLedger} :
    (∃ entry,get (ledger.markFired key firedAtMs nextFire).1.entries other = some entry ∧ entry.state = .cancelled) ↔
      ∃ entry,get ledger.entries other = some entry ∧ entry.state = .cancelled := by
  unfold AppointmentLedger.markFired
  cases there : get ledger.entries key with
  | none => rfl
  | some entry =>
    by_cases gone : entry.state = .cancelled
    · simp [gone]
    · simp only [gone,↓reduceIte,get_insert]
      by_cases same : other = key
      · subst same
        simp only [↓reduceIte,there,Option.some.injEq,exists_eq_left',gone,iff_false]
        split <;> simp
      · simp [same]

-- The write-back of a re-evaluation revives a cancelled entry as soon as its recurrence evaluates.
theorem reissue_cancelled {ledger : AppointmentLedger} :
    (∃ found,get (reissue chrono clock ledger entry).entries other = some found ∧ found.state = .cancelled) ↔
      (∃ found,get ledger.entries other = some found ∧ found.state = .cancelled) ∧
        ∀ next,nextFireAfter chrono entry.spec clock.nowMs entry.firesCompleted = .ok next → other ≠ entry.key := by
  unfold reissue
  cases computed : nextFireAfter chrono entry.spec clock.nowMs entry.firesCompleted with
  | error e => simp
  | ok next =>
    simp only [Except.ok.injEq,forall_eq']
    cases issued : ledger.schedule entry.creator entry.spec entry.action (next.map (msToInstant clock)) with
    | error e =>
      have absent : get ledger.entries entry.key = none := by
        cases there : get ledger.entries entry.key with
        | none => rfl
        | some old =>
          unfold AppointmentEntry.key at there
          simp [AppointmentLedger.schedule,AppointmentLedger.refusal,there] at issued
      by_cases same : other = entry.key
      · simp [same,absent]
      · simp [same]
    | ok after =>
      cases schedule_entries issued
      simp only [get_insert]
      by_cases same : other = entry.key
      · simp [same,AppointmentEntry.key]
      · have apart : other ≠ (entry.creator,entry.spec.appointmentId) := same
        simp [same,apart]

-- The loop cancels nothing, and only that write-back takes a mark away.
theorem loop_marks (chrono : Chrono δ τ ω) (s : Scheduler) {event : LockStep} (loops : event.byClient = false) :
    (s.step chrono event).cancelled = s.cancelled ∧
      ∀ key,(s.step chrono event).markedCancelled key ↔ s.markedCancelled key ∧ s.writesBack chrono event ≠ some key := by
  cases event with
  | schedule creator spec action clock => cases loops
  | cancel key => cases loops
  | fireDueEntries clock =>
    simp only [Scheduler.step]
    split <;> simp [Scheduler.writesBack,Scheduler.markedCancelled]
  | fireOne instant trusted =>
    simp only [Scheduler.step]
    split
    · split <;> simp [Scheduler.writesBack,Scheduler.markedCancelled]
    · simp [Scheduler.writesBack]
  | advanceAfterFire instant =>
    simp only [Scheduler.step]
    split
    · refine ⟨rfl,fun key => ?_⟩
      simp only [Scheduler.markedCancelled,markFired_cancelled]
      simp [Scheduler.writesBack]
    · simp [Scheduler.writesBack]
  | reevaluateAllPending nowMs =>
    simp only [Scheduler.step]
    split <;> simp [Scheduler.writesBack,Scheduler.markedCancelled]
  | reissue instant =>
    simp only [Scheduler.step,Scheduler.writesBack]
    split
    · rename_i nowMs entry left loop
      refine ⟨rfl,fun key => ?_⟩
      simp only [Scheduler.markedCancelled,reissue_cancelled]
      cases computed : nextFireAfter chrono entry.spec nowMs entry.firesCompleted with
      | error e => simp [Except.toOption]
      | ok next =>
        simp only [Except.toOption,Except.ok.injEq,forall_eq',Option.map_some,ne_eq,Option.some.injEq]
        rw [eq_comm]
    · simp
  | rest =>
    simp only [Scheduler.step]
    split <;> simp [Scheduler.writesBack,Scheduler.markedCancelled]

theorem loop_copies (chrono : Chrono δ τ ω) (keyed : Keyed s.ledger) {event : LockStep} (loops : event.byClient = false) :
    Keyed (s.step chrono event).ledger ∧ ((s.step chrono event).loop.entries ⊆ s.loop.entries ∧ (s.step chrono event).raced = s.raced ∨
      (s.step chrono event).loop.entries ⊆ s.ledger.pending ∧ (s.step chrono event).raced = [] ∧ (s.step chrono event).ledger = s.ledger) := by
  have stays : s.loop.entries ⊆ s.loop.entries ∧ s.raced = s.raced := ⟨List.Subset.refl _,rfl⟩
  cases event with
  | schedule creator spec action clock => cases loops
  | cancel key => cases loops
  | fireDueEntries clock =>
    simp only [Scheduler.step]
    split
    · exact ⟨keyed,.inr ⟨List.filter_subset_self _,rfl,rfl⟩⟩
    · exact ⟨keyed,.inl stays⟩
  | reevaluateAllPending nowMs =>
    simp only [Scheduler.step]
    split
    · exact ⟨keyed,.inr ⟨List.Subset.refl _,rfl,rfl⟩⟩
    · exact ⟨keyed,.inl stays⟩
  | fireOne instant trusted =>
    simp only [Scheduler.step]
    split
    · rename_i loop
      rw [loop]
      split <;> exact ⟨keyed,.inl ⟨List.subset_cons_self _ _,rfl⟩⟩
    · exact ⟨keyed,.inl stays⟩
  | advanceAfterFire instant =>
    simp only [Scheduler.step]
    split
    · rename_i loop
      rw [loop]
      exact ⟨keyed_markFired keyed,.inl ⟨List.Subset.refl _,rfl⟩⟩
    · exact ⟨keyed,.inl stays⟩
  | reissue instant =>
    simp only [Scheduler.step]
    split
    · rename_i loop
      rw [loop]
      exact ⟨keyed_reissue keyed _,.inl ⟨List.subset_cons_self _ _,rfl⟩⟩
    · exact ⟨keyed,.inl stays⟩
  | rest =>
    simp only [Scheduler.step]
    split <;> exact ⟨keyed,.inl ⟨by simp [Loop.entries],rfl⟩⟩

theorem client_marked {event : LockStep} (client : event.byClient = true) (marked : Marked s) : Marked (s.step chrono event) := by
  cases event with
  | schedule creator spec action clock => exact schedule_marked marked
  | cancel key => exact cancel_marked marked
  | _ => cases client

theorem client_silent (chrono : Chrono δ τ ω) (s : Scheduler) {event : LockStep} (client : event.byClient = true) :
    s.dispatches event = none ∧ s.writesBack chrono event = none := by
  cases event with
  | schedule creator spec action clock => exact ⟨rfl,rfl⟩
  | cancel key => exact ⟨rfl,rfl⟩
  | _ => cases client

theorem used_copied {event : LockStep} (used : s.dispatches event = some key ∨ s.writesBack chrono event = some key) :
    ∃ entry ∈ s.loop.entries,entry.key = key := by
  obtain ⟨ledger,loop,cancelled,raced⟩ := s
  rcases used with used | used <;> cases event <;> cases loop <;> simp only [Scheduler.dispatches,Scheduler.writesBack] at used <;> try cases used
  case inl.fireOne.firing nowMs due =>
    cases due with
    | nil => cases used
    | cons entry rest => exact ⟨entry,List.mem_cons_self,(by simpa using used : _ ∧ entry.key = key).2⟩
  case inr.reissue.reevaluating nowMs left =>
    cases left with
    | nil => cases used
    | cons entry rest => exact ⟨entry,List.mem_cons_self,(Option.map_eq_some_iff.mp used).choose_spec.2⟩

theorem raced_marked (marked : Marked s) {event : LockStep} (used : s.dispatches event = some key ∨ s.writesBack chrono event = some key) :
    key ∈ s.raced ↔ s.markedCancelled key := by
  obtain ⟨entry,member,rfl⟩ := used_copied used
  exact marked.raced entry member

theorem step_marked (marked : Marked s) (stays : StaysCancelled chrono s event) : Marked (s.step chrono event) := by
  cases client : event.byClient with
  | true => exact client_marked client marked
  | false =>
    obtain ⟨same,marks⟩ := loop_marks chrono s client
    have cancelled (key : AppointmentKey) : key ∈ (s.step chrono event).cancelled ↔ (s.step chrono event).markedCancelled key := by
      refine ⟨stays.state key,fun after => ?_⟩
      rw [same]
      exact (marked.cancelled key).mpr ((marks key).mp after).1
    obtain ⟨keyed,copies⟩ := loop_copies chrono marked.keyed client
    refine ⟨keyed,cancelled,fun entry member => ?_⟩
    rcases copies with ⟨inside,raced⟩ | ⟨copied,raced,ledger⟩
    · rw [raced,marked.raced entry (inside member),← cancelled,same,marked.cancelled]
    · obtain ⟨⟨key,there⟩,pending⟩ := pending_iff.mp (copied member)
      rw [raced,Scheduler.markedCancelled,ledger,marked.keyed key entry there,there]
      simp [pending]

theorem staysCancelled_iff (marked : Marked s) : StaysCancelled chrono s event ↔ Unraced chrono s event := by
  cases client : event.byClient with
  | true =>
    obtain ⟨silent,unwritten⟩ := client_silent chrono s client
    constructor
    · intro _
      constructor <;> simp [silent,unwritten]
    · intro _
      constructor
      · exact fun key held => ((client_marked client marked).cancelled key).mp held
      · simp [silent]
  | false =>
    obtain ⟨same,marks⟩ := loop_marks chrono s client
    constructor
    · intro stays
      constructor
      · intro key started raced
        have held := (raced_marked marked (.inl started : _ ∨ s.writesBack chrono event = _)).mp raced
        exact stays.silent key started ((marked.cancelled key).mpr held)
      · intro key written raced
        have held := (raced_marked marked (.inr written)).mp raced
        have kept := stays.state key (same ▸ (marked.cancelled key).mpr held)
        exact ((marks key).mp kept).2 written
    · intro unraced
      constructor
      · intro key held
        have before := (marked.cancelled key).mp (same ▸ held)
        exact (marks key).mpr ⟨before,fun written => unraced.writeBack key written ((raced_marked marked (.inr written)).mpr before)⟩
      · intro key started held
        have used : s.dispatches event = some key ∨ s.writesBack chrono event = some key := .inl started
        exact unraced.dispatch key started ((raced_marked marked used).mpr ((marked.cancelled key).mp held))

theorem start_marked : Marked (.start maxTotal maxPerCreator) := by
  constructor
  · intro key entry there
    cases there
  · intro key
    simp [Scheduler.start,Scheduler.markedCancelled]
  · intro entry member
    cases member

theorem cancelled_stays_exactly (maxTotal maxPerCreator : Nat) (events : List LockStep) :
    Guarded (Scheduler.step chrono) (StaysCancelled chrono) (.start maxTotal maxPerCreator) events ↔
      Guarded (Scheduler.step chrono) (Unraced chrono) (.start maxTotal maxPerCreator) events := by
  apply guarded_iff Marked
  · exact fun s event marked => staysCancelled_iff marked
  · exact fun s event marked stays => step_marked marked stays
  · exact start_marked

-- The cancel lands between the loop's snapshot and what the loop does with it.
def cancelWhileReevaluating : List LockStep :=
  [.schedule "org.example.clock" everySecondTwice ⟨"audio.playback","play","null"⟩ ⟨0,0⟩,
    .reevaluateAllPending 500,.cancel ("org.example.clock","chime")]

def cancelWhileFiring : List LockStep :=
  [.schedule "org.example.clock" everySecondTwice ⟨"audio.playback","play","null"⟩ ⟨0,0⟩,
    .fireDueEntries ⟨1000,1000000000⟩,.cancel ("org.example.clock","chime")]

def beforeReissue : Scheduler := run (Scheduler.step noCalendar) (.start 8 8) cancelWhileReevaluating

def beforeFire : Scheduler := run (Scheduler.step noCalendar) (.start 8 8) cancelWhileFiring

theorem cancelled_revived_or_dispatched :
    (beforeReissue.cancelled = [("org.example.clock","chime")] ∧
      ((get (beforeReissue.step noCalendar (.reissue 500000000)).ledger.entries ("org.example.clock","chime")).map (·.state)) = some .pending ∧
      ¬ Guarded (Scheduler.step noCalendar) (StaysCancelled noCalendar) (.start 8 8) (cancelWhileReevaluating++[LockStep.reissue 500000000])) ∧
    (beforeFire.cancelled = [("org.example.clock","chime")] ∧
      beforeFire.dispatches (.fireOne 1000000000 true) = some ("org.example.clock","chime") ∧
      ¬ Guarded (Scheduler.step noCalendar) (StaysCancelled noCalendar) (.start 8 8) (cancelWhileFiring++[LockStep.fireOne 1000000000 true])) := by
  have revived : ((get (beforeReissue.step noCalendar (.reissue 500000000)).ledger.entries ("org.example.clock","chime")).map (·.state)) =
    some .pending := by decide
  have listed : beforeReissue.cancelled = [("org.example.clock","chime")] := by decide
  have still : (beforeReissue.step noCalendar (.reissue 500000000)).cancelled = [("org.example.clock","chime")] := by decide
  have dispatched : beforeFire.dispatches (.fireOne 1000000000 true) = some ("org.example.clock","chime") := by decide
  have marked : beforeFire.cancelled = [("org.example.clock","chime")] := by decide
  refine ⟨⟨listed,revived,?_⟩,⟨marked,dispatched,?_⟩⟩
  · intro met
    obtain ⟨_,stays,_⟩ := guarded_append.mp met
    obtain ⟨entry,there,gone⟩ := stays.state ("org.example.clock","chime") (by rw [← beforeReissue,still]; simp)
    rw [← beforeReissue] at there
    rw [there,Option.map_some,gone] at revived
    cases revived
  · intro met
    obtain ⟨_,stays,_⟩ := guarded_append.mp met
    exact stays.silent _ dispatched (by rw [← beforeFire,marked]; simp)

end EvoCore.Appointments
