import EvoCore.AppointmentCap

namespace EvoCore.Appointments
open Runs Tables
open HappeningBus (u64Max)

structure AppointmentMissed where
  key : AppointmentKey
  scheduledForMs : Nat
  reason : String
deriving DecidableEq,Repr

def AppointmentEntry.missed (entry : AppointmentEntry) (clock : Clock) (trusted : Bool) : List AppointmentMissed :=
  match entry.firing clock trusted with
  | .untrusted => [⟨entry.key,clock.nowMs,"untrusted_time"⟩]
  | .missed reason scheduledForMs => [⟨entry.key,scheduledForMs,reason⟩]
  | .dispatched => []

def peekSoonestPending (ledger : AppointmentLedger) : Option Nat := (ledger.pending.filterMap (·.nextFire)).min?

-- An instant that is past is slept for no time; the year that nothing is pending for may end at any instant here.
def slept (next : Option Nat) (instant : Nat) : Bool := next.all (· ≤ instant)

-- One iteration of run_loop by the branch of its select that is taken.
inductive Iteration where
  | notified
  | heard
  | clockAdjusted (clock : Clock)
  | elapsed (clock : Clock)
deriving DecidableEq,Repr

def Iteration.adjusts : Iteration → Bool
  | .clockAdjusted _ => true
  | _ => false

structure RunLoop where
  runtime : AppointmentRuntime
  missed : List AppointmentMissed

variable {δ τ ω : Type} [DecidableEq δ] (chrono : Chrono δ τ ω)

def RunLoop.fire (clock : Clock) (trusted : Bool) (s : RunLoop) (entry : AppointmentEntry) : RunLoop :=
  ⟨s.runtime.fireOne chrono entry clock trusted,s.missed++entry.missed clock trusted⟩

def RunLoop.fireDueEntries (s : RunLoop) (clock : Clock) (trusted : Bool) : RunLoop :=
  (s.runtime.ledger.pending.filter fun entry => entry.due clock).foldl (RunLoop.fire chrono clock trusted) s

def RunLoop.iterate (trusted : Bool) (s : RunLoop) : Iteration → RunLoop
  | .notified => s
  | .heard => s
  | .clockAdjusted clock => {s with runtime := s.runtime.reevaluateAllPending chrono clock}
  | .elapsed clock => if slept (peekSoonestPending s.runtime.ledger) clock.instant then s.fireDueEntries chrono clock trusted else s

-- An iteration that wakes up and finds the entry due.
def Iteration.finds (ledger : AppointmentLedger) (entry : AppointmentEntry) : Iteration → Bool
  | .elapsed clock => slept (peekSoonestPending ledger) clock.instant && entry.due clock
  | _ => false

def RunLoop.timesMissed (s : RunLoop) (key : AppointmentKey) : Nat := s.missed.countP fun missed => missed.key = key

def Keyed (ledger : AppointmentLedger) : Prop := ∀ key entry,get ledger.entries key = some entry → entry.key = key

variable {chrono} {ledger : AppointmentLedger} {s : AppointmentRuntime} {key : AppointmentKey} {entry : AppointmentEntry}

theorem keyed_insert (keyed : Keyed ledger) (own : entry.key = key) : Keyed {ledger with entries := ledger.entries.insert key entry} := by
  intro asked found there
  rw [get_insert] at there
  split at there
  · rename_i same
    cases there
    exact own.trans same.symm
  · exact keyed asked found there

theorem keyed_schedule {after : AppointmentLedger} (keyed : Keyed ledger) (accepted : ledger.schedule creator spec action nextFire = .ok after) :
    Keyed after := by
  rw [schedule_entries accepted]
  exact keyed_insert keyed rfl

theorem keyed_cancel (keyed : Keyed ledger) : Keyed (ledger.cancel key).1 := by
  unfold AppointmentLedger.cancel
  split
  · rename_i entry there
    split
    · exact keyed
    · exact keyed_insert keyed (keyed key entry there)
  · exact keyed

theorem keyed_markFired (keyed : Keyed ledger) : Keyed (ledger.markFired key firedAtMs nextFire).1 := by
  unfold AppointmentLedger.markFired
  split
  · rename_i entry there
    split
    · exact keyed
    · exact keyed_insert keyed (keyed key entry there)
  · exact keyed

theorem keyed_reissue (keyed : Keyed ledger) (entry : AppointmentEntry) : Keyed (reissue chrono clock ledger entry) := by
  unfold reissue
  split
  · exact keyed
  · split
    · exact keyed
    · rename_i accepted
      exact keyed_schedule keyed accepted

theorem keyed_restore (keyed : Keyed ledger) (row : PersistedAppointment) : Keyed (restoreRow clock ledger row) := by
  unfold restoreRow
  split
  · exact keyed
  · rename_i accepted
    exact keyed_schedule keyed accepted

theorem keyed_fire (keyed : Keyed s.ledger) (entry : AppointmentEntry) : Keyed (s.fireOne chrono entry clock trusted).ledger := by
  unfold AppointmentRuntime.fireOne
  split
  · exact keyed
  · exact keyed_markFired keyed
  · exact keyed_markFired keyed

theorem keyed_step (keyed : Keyed s.ledger) (event : RuntimeEvent) : Keyed (s.step chrono event).ledger := by
  cases event with
  | schedule creator spec action clock =>
    simp only [AppointmentRuntime.step,AppointmentRuntime.schedule]
    split
    · exact keyed
    · split
      · exact keyed
      · rename_i accepted
        exact keyed_schedule keyed accepted
  | cancel key =>
    simp only [AppointmentRuntime.step,AppointmentRuntime.cancel]
    split
    · rename_i ledger cancelled
      have after := @keyed_cancel _ key keyed
      rw [cancelled] at after
      exact after
    · exact keyed
  | fire key clock trusted =>
    simp only [AppointmentRuntime.step]
    split
    · split
      · exact keyed_fire keyed _
      · exact keyed
    · exact keyed
  | reevaluateAllPending clock =>
    exact List.foldlRecOn _ _ keyed fun ledger held entry _ => keyed_reissue held entry
  | restart clock =>
    refine List.foldlRecOn _ _ ?_ fun ledger held row _ => keyed_restore held row
    intro key entry there
    rw [get_empty] at there
    cases there

theorem keyed_run (history : List RuntimeEvent) : Keyed (run (AppointmentRuntime.step chrono) (.start maxTotal maxPerCreator) history).ledger := by
  refine @run_keeps _ _ _ (fun s : AppointmentRuntime => Keyed s.ledger) _ _ (fun s event keyed => keyed_step keyed event) ?_
  intro key entry there
  rw [AppointmentRuntime.start,get_empty] at there
  cases there

theorem pending_apart (keyed : Keyed ledger) : (ledger.pending.map AppointmentEntry.key).Nodup := by
  have kept : (((ledger.entries.entries.map fun e => e.2).map AppointmentEntry.key)).Nodup := by
    have names : (ledger.entries.entries.map fun e => e.2).map AppointmentEntry.key = ledger.entries.entries.map fun e => e.1 := by
      rw [List.map_map]
      apply List.map_congr_left
      intro e there
      exact keyed e.1 e.2 ((entries_get _).mp there)
    rw [names]
    exact ledger.entries.nodupKeys
  exact kept.sublist (List.filter_sublist.map AppointmentEntry.key)

theorem due_counted (keyed : Keyed ledger) (pending : entry ∈ ledger.pending) (clock : Clock) :
    (ledger.pending.filter fun entry => entry.due clock).countP (fun due => due.key = entry.key) = if entry.due clock then 1 else 0 := by
  have apart := pending_apart keyed
  have alone (other : AppointmentEntry) (there : other ∈ ledger.pending) (same : other.key = entry.key) : other = entry :=
    List.inj_on_of_nodup_map apart there pending same
  rw [List.countP_filter]
  have same : ∀ other ∈ ledger.pending,(decide (other.key = entry.key) && other.due clock) = decide (other.key = entry.key ∧ entry.due clock = true) := by
    intro other there
    by_cases named : other.key = entry.key
    · rw [alone other there named]
      simp
    · simp [named]
  rw [List.countP_congr fun other there => by rw [same other there]]
  cases due : entry.due clock with
  | false => simp
  | true =>
    simp only [and_true,if_true]
    have once := List.count_eq_one_of_mem apart (List.mem_map_of_mem pending)
    rw [List.count,List.countP_map] at once
    rw [←once]
    apply List.countP_congr
    intro other _
    simp

-- While the clock is not trusted a tick reports every due entry and leaves the runtime as it is.
theorem untrusted_tick (s : RunLoop) (due : List AppointmentEntry) (clock : Clock) : due.foldl (RunLoop.fire chrono clock false) s =
    ⟨s.runtime,s.missed++due.map fun entry => ⟨entry.key,clock.nowMs,"untrusted_time"⟩⟩ := by
  induction due generalizing s with
  | nil => simp
  | cons entry rest ih =>
    have first : RunLoop.fire chrono clock false s entry = ⟨s.runtime,s.missed++[⟨entry.key,clock.nowMs,"untrusted_time"⟩]⟩ := rfl
    rw [List.foldl_cons,first,ih]
    simp

theorem iterate_untrusted (chrono : Chrono δ τ ω) (s : RunLoop) (keyed : Keyed s.runtime.ledger)
    (pending : entry ∈ s.runtime.ledger.pending) {iteration : Iteration}
    (calm : iteration.adjusts = false) : (s.iterate chrono false iteration).runtime = s.runtime ∧
      (s.iterate chrono false iteration).timesMissed entry.key =
        s.timesMissed entry.key+if iteration.finds s.runtime.ledger entry then 1 else 0 := by
  cases iteration with
  | notified => exact ⟨rfl,rfl⟩
  | heard => exact ⟨rfl,rfl⟩
  | clockAdjusted clock => cases calm
  | elapsed clock =>
    rw [RunLoop.iterate,Iteration.finds]
    cases slept (peekSoonestPending s.runtime.ledger) clock.instant with
    | false => exact ⟨rfl,rfl⟩
    | true =>
      rw [if_pos rfl,RunLoop.fireDueEntries,untrusted_tick]
      refine ⟨rfl,?_⟩
      rw [RunLoop.timesMissed,List.countP_append,List.countP_map,Bool.true_and,←due_counted keyed pending clock]
      rfl

theorem untrusted_run (chrono : Chrono δ τ ω) (s : RunLoop) (keyed : Keyed s.runtime.ledger) (pending : entry ∈ s.runtime.ledger.pending)
    (iterations : List Iteration) (calm : ∀ iteration ∈ iterations,iteration.adjusts = false) :
    (run (RunLoop.iterate chrono false) s iterations).runtime = s.runtime ∧
      (run (RunLoop.iterate chrono false) s iterations).timesMissed entry.key =
        s.timesMissed entry.key+iterations.countP (Iteration.finds s.runtime.ledger entry) := by
  induction iterations generalizing s with
  | nil => exact ⟨rfl,rfl⟩
  | cons iteration rest ih =>
    obtain ⟨here,later⟩ := List.forall_mem_cons.mp calm
    obtain ⟨kept,counted⟩ := iterate_untrusted chrono s keyed pending here
    obtain ⟨kept_,counted_⟩ := ih (s.iterate chrono false iteration) (by rw [kept]; exact keyed) (by rw [kept]; exact pending) later
    rw [run_cons,kept_,counted_,kept,counted,List.countP_cons]
    exact ⟨rfl,by omega⟩

-- The clock is at or past the soonest instant of all, and at or past the entry's own or less than a millisecond before it.
def Iteration.reaches (soonest instant : Nat) : Iteration → Bool
  | .elapsed clock => soonest ≤ clock.instant && instant < clock.instant+1000000
  | _ => false

def Iteration.readable : Iteration → Bool
  | .elapsed clock => clock.nowMs < u64Max && clock.instant ≤ u64Max
  | _ => true

theorem finds_reaches {soonest instant : Nat} (pending : entry ∈ ledger.pending) (scheduled : entry.nextFire = some instant)
    (first : peekSoonestPending ledger = some soonest) {iteration : Iteration} (readable : iteration.readable = true) :
    iteration.finds ledger entry = iteration.reaches soonest instant := by
  cases iteration with
  | elapsed clock =>
    have state := (pending_iff.mp pending).2
    obtain ⟨time,near⟩ : clock.nowMs < u64Max ∧ clock.instant ≤ u64Max := by simpa [Iteration.readable] using readable
    have due : entry.due clock = decide (instant < clock.instant+1000000) := by
      rw [AppointmentEntry.due,scheduled,Option.bind_some,state,instantToMs]
      by_cases ahead : clock.instant ≤ instant
      · by_cases far : (instant-clock.instant)/1000000 ≤ u64Max
        · have shown : saturatingAdd clock.nowMs ((instant-clock.instant)/1000000) ≤ clock.nowMs ↔ instant < clock.instant+1000000 := by
            rw [saturatingAdd,min_le_iff]
            omega
          simp [ahead,far,shown]
        · have late : ¬ instant < clock.instant+1000000 := by omega
          simp [ahead,far,late]
      · have small : (clock.instant-instant)/1000000 ≤ u64Max := by omega
        have past : instant < clock.instant+1000000 := by omega
        simp [ahead,small,past]
    rw [Iteration.finds,Iteration.reaches,first,due]
    rfl
  | _ => rfl

-- So an alarm that is the next one is reported by every iteration that wakes up at its instant or after it.
theorem untrusted_readings {soonest instant : Nat} (s : RunLoop) (keyed : Keyed s.runtime.ledger) (pending : entry ∈ s.runtime.ledger.pending)
    (scheduled : entry.nextFire = some instant) (first : peekSoonestPending s.runtime.ledger = some soonest) (iterations : List Iteration)
    (calm : ∀ iteration ∈ iterations,iteration.adjusts = false) (readable : ∀ iteration ∈ iterations,iteration.readable = true) :
    (run (RunLoop.iterate chrono false) s iterations).timesMissed entry.key =
      s.timesMissed entry.key+iterations.countP (Iteration.reaches soonest instant) := by
  rw [(untrusted_run chrono s keyed pending iterations calm).2]
  refine congrArg _ (List.countP_congr fun iteration there => ?_)
  rw [finds_reaches pending scheduled first (readable iteration there)]

-- An occurrence is reported once at most, in every run of the loop over every ledger there can be, exactly where no
-- entry is found due by two iterations.
theorem untrusted_exact (maxTotal maxPerCreator : Nat) (history : List RuntimeEvent) (iterations : List Iteration)
    (calm : ∀ iteration ∈ iterations,iteration.adjusts = false) :
    (∀ entry ∈ (run (AppointmentRuntime.step chrono) (.start maxTotal maxPerCreator) history).ledger.pending,
      (run (RunLoop.iterate chrono false) ⟨run (AppointmentRuntime.step chrono) (.start maxTotal maxPerCreator) history,[]⟩ iterations).timesMissed
        entry.key ≤ 1) ↔
    ∀ entry ∈ (run (AppointmentRuntime.step chrono) (.start maxTotal maxPerCreator) history).ledger.pending,
      iterations.countP (Iteration.finds (run (AppointmentRuntime.step chrono) (.start maxTotal maxPerCreator) history).ledger entry) ≤ 1 := by
  have keyed : Keyed (run (AppointmentRuntime.step chrono) (.start maxTotal maxPerCreator) history).ledger := keyed_run history
  generalize run (AppointmentRuntime.step chrono) (.start maxTotal maxPerCreator) history = s at keyed ⊢
  refine forall₂_congr fun entry pending => ?_
  rw [(untrusted_run chrono ⟨s,[]⟩ keyed pending iterations calm).2]
  exact iff_of_eq (congrArg (· ≤ 1) (Nat.zero_add _))

-- An alarm an hour after the schedule call, and the clock a second after it.
def alarm : RuntimeEvent :=
  .schedule "org.example.clock" ⟨"alarm",none,.utc,.oneShot 3600000,none,none,[],.catchup⟩ ⟨"audio.playback","play","null"⟩ ⟨0,0⟩

def tick (ms : Nat) : Iteration := .elapsed ⟨ms,ms*1000000⟩

-- The loop wakes up once after the hour.
theorem alarm_reported : (run (AppointmentRuntime.step noCalendar) (.start 10000 1000) [alarm]).ledger.pending.length = 1 ∧
    ∀ entry ∈ (run (AppointmentRuntime.step noCalendar) (.start 10000 1000) [alarm]).ledger.pending,
      (run (RunLoop.iterate noCalendar false) ⟨run (AppointmentRuntime.step noCalendar) (.start 10000 1000) [alarm],[]⟩
        [tick 1000,.notified,tick 3601000]).timesMissed entry.key ≤ 1 :=
  ⟨by decide,(untrusted_exact 10000 1000 [alarm] [tick 1000,.notified,tick 3601000] (by decide)).mpr (by decide)⟩

-- Two iterations after the hour report it twice.
theorem alarm_flooded :
    ¬ ∀ entry ∈ (run (AppointmentRuntime.step noCalendar) (.start 10000 1000) [alarm]).ledger.pending,
      (run (RunLoop.iterate noCalendar false) ⟨run (AppointmentRuntime.step noCalendar) (.start 10000 1000) [alarm],[]⟩
        [tick 3600000,tick 3600001]).timesMissed entry.key ≤ 1 := by decide

end EvoCore.Appointments
