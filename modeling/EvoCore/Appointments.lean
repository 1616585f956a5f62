import EvoCore.HappeningBus
import EvoCore.Tables

namespace EvoCore.Appointments
open Tables
open HappeningBus (asI64 u64Max)

-- The ledger and the recurrences of crates/evo/src/appointments.rs. Dates, time zones and the parsing
-- of their texts are the chrono crate's and stay a parameter.
inductive DayOfWeek where
  | mon
  | tue
  | wed
  | thu
  | fri
  | sat
  | sun
deriving DecidableEq,Repr

inductive LocalResult where
  | single (ms : Int)
  | ambiguous (first second : Int)
  | none
deriving DecidableEq,Repr

structure Chrono (δ τ ω : Type) where
  parseTime : String → String → Option τ
  parseDate : String → String → Option δ
  fromTimestampMillis : Int → Option ω
  utcDate : ω → δ
  localDate : ω → δ
  addDays : δ → Nat → Option δ
  utcMillis : δ → τ → Int
  localMillis : δ → τ → LocalResult
  weekday : δ → DayOfWeek
  month : δ → Nat
  day : δ → Nat

inductive AppointmentRecurrence where
  | oneShot (fireAtMs : Nat)
  | daily
  | weekdays
  | weekends
  | weekly (days : List DayOfWeek)
  | monthly (dayOfMonth : Nat)
  | yearly (month day : Nat)
  | cron (expr : String)
  | periodic (intervalMs : Nat)
deriving DecidableEq,Repr

inductive AppointmentTimeZone where
  | utc
  | local
  | anchored (zone : String)
deriving DecidableEq,Repr

inductive AppointmentMissPolicy where
  | drop
  | catchup
  | catchupWithinGrace (graceMs : Nat)
deriving DecidableEq,Repr

structure AppointmentAction where
  targetShelf : String
  requestType : String
  payload : String
deriving DecidableEq,Repr

-- Without pre_fire_ms, must_wake_device and wake_pre_arm_ms: only the RTC alarm is programmed from them.
structure AppointmentSpec where
  appointmentId : String
  time : Option String
  zone : AppointmentTimeZone
  recurrence : AppointmentRecurrence
  endTimeMs : Option Nat
  maxFires : Option Nat
  except : List String
  missPolicy : AppointmentMissPolicy
deriving DecidableEq,Repr

inductive RecurrenceError where
  | invalidTimeOfDay (value : String)
  | invalidDayOfMonth (dayOfMonth : Nat)
  | invalidYearlyDate (month day : Nat)
  | emptyWeeklyDays
  | invalidExceptDate (value : String)
  | anchoredZoneNotSupported (zone : String)
  | cronNotSupported (expr : String)
  | invalidPeriodicInterval (intervalMs : Nat)
deriving DecidableEq,Repr

def asU64 (n : Int) : Nat := (n % 2^64).toNat

def saturatingAdd (a b : Nat) : Nat := min (a+b) u64Max

section Recurrence
variable {δ τ ω : Type} [DecidableEq δ] (chrono : Chrono δ τ ω)

def parseTimeOfDay : Option String → Except RecurrenceError τ
  | none => .error (.invalidTimeOfDay "<none>")
  | some raw =>
    match (chrono.parseTime raw "%H:%M").orElse fun _ => chrono.parseTime raw "%H:%M:%S" with
    | some time => .ok time
    | none => .error (.invalidTimeOfDay raw)

def parseExceptDates : List String → Except RecurrenceError (List δ)
  | [] => .ok []
  | raw::rest =>
    match chrono.parseDate raw "%Y-%m-%d" with
    | none => .error (.invalidExceptDate raw)
    | some date => (parseExceptDates rest).map (date::·)

def dayMatchesRecurrence (date : δ) : AppointmentRecurrence → Bool
  | .weekdays => chrono.weekday date ≠ .sat && chrono.weekday date ≠ .sun
  | .weekends => chrono.weekday date = .sat || chrono.weekday date = .sun
  | .weekly days => days.contains (chrono.weekday date)
  | .monthly dayOfMonth => chrono.day date = dayOfMonth
  | .yearly month day => chrono.month date = month && chrono.day date = day
  | _ => true

def validRecurrence : AppointmentRecurrence → Option RecurrenceError
  | .weekly [] => some .emptyWeeklyDays
  | .monthly dayOfMonth => if 1 ≤ dayOfMonth ∧ dayOfMonth ≤ 31 then none else some (.invalidDayOfMonth dayOfMonth)
  | .yearly month day =>
    if 1 ≤ month ∧ month ≤ 12 ∧ 1 ≤ day ∧ day ≤ 31 then none else some (.invalidYearlyDate month day)
  | _ => none

def candidateOn (recurrence : AppointmentRecurrence) (here : Bool) (today : δ) (time : τ) (except : List δ) (nowUtcMs offsetDays : Nat) :
    Option Nat := do
  let date ← chrono.addDays today offsetDays
  let ms ← if here then
      match chrono.localMillis date time with
      | .single ms => some ms
      | .ambiguous first _ => some first
      | .none => none
    else some (chrono.utcMillis date time)
  let candidateUtcMs := asU64 ms
  if candidateUtcMs ≤ nowUtcMs ∨ date ∈ except ∨ dayMatchesRecurrence chrono date recurrence = false then none
  else some candidateUtcMs

def maxLookaheadDays : Nat := 367

def nextPeriodicFire (recurrence : AppointmentRecurrence) (zone : AppointmentTimeZone) (time : τ) (except : List δ) (nowUtcMs : Nat) :
    Except RecurrenceError (Option Nat) :=
  match validRecurrence recurrence,chrono.fromTimestampMillis (asI64 nowUtcMs),zone with
  | some e,_,_ => .error e
  | none,none,_ => .error (.invalidTimeOfDay "<now-overflow>")
  | none,some _,.anchored name => .error (.anchoredZoneNotSupported name)
  | none,some now,.utc =>
    .ok ((List.range maxLookaheadDays).findSome? (candidateOn chrono recurrence false (chrono.utcDate now) time except nowUtcMs))
  | none,some now,.local =>
    .ok ((List.range maxLookaheadDays).findSome? (candidateOn chrono recurrence true (chrono.localDate now) time except nowUtcMs))

def candidateFire (spec : AppointmentSpec) (nowUtcMs firesCompleted : Nat) : Except RecurrenceError (Option Nat) :=
  match spec.recurrence with
  | .oneShot fireAtMs => if 0 < firesCompleted then .ok none else .ok (some fireAtMs)
  | .cron expr => .error (.cronNotSupported expr)
  | .periodic intervalMs =>
    if intervalMs = 0 then .error (.invalidPeriodicInterval 0) else .ok (some (saturatingAdd nowUtcMs intervalMs))
  | recurrence => do
    let time ← parseTimeOfDay chrono spec.time
    let except ← parseExceptDates chrono spec.except
    nextPeriodicFire chrono recurrence spec.zone time except nowUtcMs

def capReached (spec : AppointmentSpec) (firesCompleted : Nat) : Bool :=
  match spec.maxFires with
  | some cap => cap ≤ firesCompleted
  | none => false

def pastEnd (spec : AppointmentSpec) (candidate : Nat) : Bool :=
  match spec.endTimeMs with
  | some final => final < candidate
  | none => false

def nextFireAfter (spec : AppointmentSpec) (nowUtcMs firesCompleted : Nat) : Except RecurrenceError (Option Nat) :=
  if capReached spec firesCompleted then .ok none
  else (candidateFire chrono spec nowUtcMs firesCompleted).map fun candidate => candidate.filter fun ms => !pastEnd spec ms

end Recurrence

-- The wall clock in milliseconds and the monotonic clock in nanoseconds.
structure Clock where
  nowMs : Nat
  instant : Nat
deriving DecidableEq,Repr

def msToInstant (clock : Clock) (targetMs : Nat) : Nat :=
  if targetMs ≤ clock.nowMs then clock.instant else clock.instant+(targetMs-clock.nowMs)*1000000

def instantToMs (clock : Clock) (target : Nat) : Option Nat :=
  if clock.instant ≤ target then
    let deltaMs := (target-clock.instant)/1000000
    if deltaMs ≤ u64Max then some (saturatingAdd clock.nowMs deltaMs) else none
  else
    let deltaMs := (clock.instant-target)/1000000
    if deltaMs ≤ u64Max then some (clock.nowMs-deltaMs) else none

-- The source never sets Approaching and Firing.
inductive AppointmentState where
  | pending
  | approaching
  | firing
  | fired
  | cancelled
deriving DecidableEq,Repr

structure AppointmentEntry where
  creator : String
  spec : AppointmentSpec
  action : AppointmentAction
  state : AppointmentState
  nextFire : Option Nat
  lastFiredAtMs : Option Nat
  firesCompleted : Nat
deriving DecidableEq,Repr

abbrev AppointmentKey := String × String

structure AppointmentLedger where
  entries : Table AppointmentKey AppointmentEntry
  maxTotal : Nat
  maxPerCreator : Nat

inductive QuotaScope where
  | total
  | perCreator (creator : String)
deriving DecidableEq,Repr

inductive AppointmentScheduleError where
  | quotaExceeded (scope : QuotaScope) (limit : Nat)
deriving DecidableEq,Repr

-- fires_completed counts fires and stays a number; so do the numbers of entries.
namespace AppointmentLedger
variable (ledger : AppointmentLedger)

def refusal (creator : String) (key : AppointmentKey) : Option AppointmentScheduleError :=
  if (get ledger.entries key).isSome then none
  else if ledger.maxTotal ≤ ledger.entries.keys.length then some (.quotaExceeded .total ledger.maxTotal)
  else if ledger.maxPerCreator ≤ (ledger.entries.keys.filter fun other => other.1 = creator).length then
    some (.quotaExceeded (.perCreator creator) ledger.maxPerCreator)
  else none

def schedule (creator : String) (spec : AppointmentSpec) (action : AppointmentAction) (nextFire : Option Nat) :
    Except AppointmentScheduleError AppointmentLedger :=
  match ledger.refusal creator (creator,spec.appointmentId) with
  | some e => .error e
  | none => .ok {ledger with
      entries := ledger.entries.insert (creator,spec.appointmentId) ⟨creator,spec,action,.pending,nextFire,none,0⟩}

def cancel (key : AppointmentKey) : AppointmentLedger × Bool :=
  match get ledger.entries key with
  | some entry =>
    if entry.state = .cancelled then (ledger,false)
    else ({ledger with entries := ledger.entries.insert key {entry with state := .cancelled,nextFire := none}},true)
  | none => (ledger,false)

def markFired (key : AppointmentKey) (firedAtMs : Nat) (nextFire : Option Nat) : AppointmentLedger × Bool :=
  match get ledger.entries key with
  | some entry =>
    if entry.state = .cancelled then (ledger,false)
    else
      let state := if nextFire.isSome then AppointmentState.pending else .fired
      ({ledger with entries := ledger.entries.insert key {entry with
          firesCompleted := entry.firesCompleted+1
          lastFiredAtMs := some firedAtMs
          nextFire := nextFire
          state := state}},true)
  | none => (ledger,false)

def pending : List AppointmentEntry :=
  (ledger.entries.entries.map (·.2)).filter fun entry => entry.state = .pending

end AppointmentLedger

def AppointmentEntry.key (entry : AppointmentEntry) : AppointmentKey := (entry.creator,entry.spec.appointmentId)

-- The row of the appointments table without its JSON texts; every row that is written is pending.
structure PersistedAppointment where
  creator : String
  spec : AppointmentSpec
  action : AppointmentAction
  nextFireAtMs : Option Nat
  lastFiredAtMs : Option Nat
  firesCompleted : Nat
  createdAtMs : Nat
deriving DecidableEq,Repr

abbrev AppointmentStore := Table AppointmentKey PersistedAppointment

inductive Firing where
  | untrusted
  | missed (reason : String) (scheduledForMs : Nat)
  | dispatched
deriving DecidableEq,Repr

def AppointmentEntry.due (entry : AppointmentEntry) (clock : Clock) : Bool :=
  entry.state = .pending && (entry.nextFire.bind (instantToMs clock)).any (· ≤ clock.nowMs)

def AppointmentEntry.firing (entry : AppointmentEntry) (clock : Clock) (trusted : Bool) : Firing :=
  let scheduledForMs := (entry.nextFire.bind (instantToMs clock)).getD clock.nowMs
  let delayMs := clock.nowMs-scheduledForMs
  if !trusted then .untrusted
  else match entry.spec.missPolicy with
    | .drop => if 1000 < delayMs then .missed "drop_policy" scheduledForMs else .dispatched
    | .catchupWithinGrace graceMs => if graceMs < delayMs then .missed "grace_window_exceeded" scheduledForMs else .dispatched
    | .catchup => .dispatched

end EvoCore.Appointments
