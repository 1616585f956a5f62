import EvoCore.Appointments

namespace EvoCore.Schedules
open Tables
open HappeningBus (u64Max)
open Appointments (saturatingAdd)

-- The ledger and the fire outcomes of crates/evo/src/scheduler.rs. The display name, the power behaviour,
-- the two survival flags and the action decide nothing here.
inductive FirstFire where
  | immediate
  | afterInterval
deriving DecidableEq,Repr

inductive ScheduleTrigger where
  | periodic (intervalSeconds : UInt64) (firstFire : FirstFire)
  | oneShot (atMs : UInt64)
  | cron (expression : String)
  | eventTriggered (eventFilter : String)
deriving DecidableEq,Repr

inductive RetryPolicy where
  | none
  | exponential (maxAttempts : UInt32) (initialBackoffSeconds maxBackoffSeconds : UInt64)
  | linear (maxAttempts : UInt32) (betweenAttemptsSeconds : UInt64)
  | pluginManaged
deriving DecidableEq,Repr

structure ScheduleSpec where
  taskId : String
  trigger : ScheduleTrigger
  retryPolicy : RetryPolicy
deriving DecidableEq,Repr

inductive FireOutcome where
  | success
  | successWithNote (note : String)
  | skipped (reason : String)
  | failed (error : String) (retryable : Bool)
deriving DecidableEq,Repr

-- Of the states the scheduler itself sets Pending and Terminal only.
inductive ScheduleState where
  | pending
  | firing
  | fired
  | cancelled
  | terminal
deriving DecidableEq,Repr

structure ScheduleEntry where
  creator : String
  spec : ScheduleSpec
  state : ScheduleState
  nextFireAtMs : Option Nat
  lastFiredAtMs : Option Nat
  firesCompleted : Nat
  retryAttemptsMade : Nat
  createdAtMs : Nat
deriving DecidableEq,Repr

inductive FireDecision where
  | advance
  | retry (reason : String)
  | terminal (reason : String)
deriving DecidableEq,Repr

inductive SchedulerError where
  | invalid (text : String)
  | unsupported (text : String)
deriving DecidableEq,Repr

-- What a plain product does that does not fit into its u64: a debug build panics, a release build wraps.
inductive Build where
  | debug
  | release
deriving DecidableEq,Repr

def Build.mul (build : Build) (a b : Nat) : Option Nat :=
  if a*b ≤ u64Max then some (a*b)
  else match build with
    | .debug => none
    | .release => some (a*b % 2^64)

def u32Max : Nat := 2^32-1

def saturatingMul (a b : Nat) : Nat := min (a*b) u64Max

-- 1u64.checked_shl(n)
def checkedShl (n : Nat) : Option Nat := if n < 64 then some (2^n) else none

section
variable (build : Build)

-- None is a panic, here and below.
def nextFireAfterSuccess (trigger : ScheduleTrigger) (nowMs : UInt64) : Option (Option Nat) :=
  match trigger with
  | .periodic intervalSeconds _ => (build.mul intervalSeconds.toNat 1000).map fun ms => some (saturatingAdd nowMs.toNat ms)
  | .oneShot _ => some none
  | .cron _ => some none
  | .eventTriggered _ => some none

def backoffSeconds (initialBackoffSeconds maxBackoffSeconds : UInt64) (attemptsMade : Nat) : Nat :=
  min (saturatingMul initialBackoffSeconds.toNat ((checkedShl attemptsMade).getD u64Max)) maxBackoffSeconds.toNat

def nextRetryAfterFailure (policy : RetryPolicy) (attemptsMade : Nat) (nowMs : UInt64) : Option (Option Nat) :=
  match policy with
  | .none => some none
  | .exponential maxAttempts initialBackoffSeconds maxBackoffSeconds =>
    if maxAttempts.toNat ≤ attemptsMade then some none
    else (build.mul (backoffSeconds initialBackoffSeconds maxBackoffSeconds attemptsMade) 1000).map fun ms =>
      some (saturatingAdd nowMs.toNat ms)
  | .linear maxAttempts betweenAttemptsSeconds =>
    if maxAttempts.toNat ≤ attemptsMade then some none
    else (build.mul betweenAttemptsSeconds.toNat 1000).map fun ms => some (saturatingAdd nowMs.toNat ms)
  | .pluginManaged => some none

def validateAndInitialFire (spec : ScheduleSpec) (nowMs : UInt64) : Option (Except SchedulerError Nat) :=
  if spec.taskId = "" then some (.error (.invalid "task_id is empty"))
  else match spec.trigger with
    | .periodic intervalSeconds firstFire =>
      if intervalSeconds = 0 then some (.error (.invalid "Periodic.interval_seconds must be non-zero"))
      else match firstFire with
        | .immediate => some (.ok nowMs.toNat)
        | .afterInterval => (build.mul intervalSeconds.toNat 1000).map fun ms => .ok (saturatingAdd nowMs.toNat ms)
    | .oneShot atMs => some (.ok atMs.toNat)
    | .cron _ => some (.error (.unsupported "Cron trigger not implemented; reserved for follow-on work"))
    | .eventTriggered _ => some (.error (.unsupported "EventTriggered trigger not implemented; reserved for follow-on work"))

-- A success and a skip go on by the trigger and differ in the count of fires and in the reason.
def ScheduleEntry.onTrigger (entry : ScheduleEntry) (nowMs : UInt64) (exhausted : String) : Option (ScheduleEntry × FireDecision) :=
  (nextFireAfterSuccess build entry.spec.trigger nowMs).map fun
    | some n => ({entry with nextFireAtMs := some n,state := .pending},.advance)
    | none => ({entry with nextFireAtMs := none,state := .terminal},.terminal exhausted)

def ScheduleEntry.fired (entry : ScheduleEntry) (outcome : FireOutcome) (nowMs : UInt64) : Option (ScheduleEntry × FireDecision) :=
  let entry := {entry with lastFiredAtMs := some nowMs.toNat}
  let completed := {entry with firesCompleted := min (entry.firesCompleted+1) u32Max,retryAttemptsMade := 0}
  match outcome with
  | .success => completed.onTrigger build nowMs "trigger exhausted"
  | .successWithNote _ => completed.onTrigger build nowMs "trigger exhausted"
  | .skipped _ => {entry with retryAttemptsMade := 0}.onTrigger build nowMs "trigger exhausted after skip"
  | .failed error retryable =>
    if retryable then
      let attempts := min (entry.retryAttemptsMade+1) u32Max
      let entry := {entry with retryAttemptsMade := attempts}
      (nextRetryAfterFailure build entry.spec.retryPolicy attempts nowMs).map fun
        | some n => ({entry with nextFireAtMs := some n,state := .pending},.retry error)
        | none => ({entry with nextFireAtMs := none,state := .terminal},
            .terminal s!"retry policy exhausted after {attempts} attempts: {error}")
    else some ({entry with nextFireAtMs := none,state := .terminal},.terminal s!"non-retryable failure: {error}")

end

abbrev ScheduleKey := String × String

-- The row of scheduled_tasks without its JSON texts; rows are written in the pending state only.
structure PersistedScheduledTask where
  nextFireAtMs : Option Nat
  lastFiredAtMs : Option Nat
  firesCompleted : Nat
  updatedAtMs : Nat
deriving DecidableEq,Repr

-- `rows` is the store where one is wired; what it answers is not looked at.
structure SchedulerRuntime where
  entries : Table ScheduleKey ScheduleEntry
  rows : Option (Table ScheduleKey PersistedScheduledTask)

-- ScheduleLedger::schedule.
def SchedulerRuntime.schedule (s : SchedulerRuntime) (creator : String) (spec : ScheduleSpec) (nextFireAtMs nowMs : UInt64) : SchedulerRuntime :=
  let key := (creator,spec.taskId)
  {s with entries := s.entries.insert key ⟨creator,spec,.pending,some nextFireAtMs.toNat,none,0,0,
    ((get s.entries key).map (·.createdAtMs)).getD nowMs.toNat⟩}

-- `writes` says whether the store's call succeeds.
def SchedulerRuntime.writeThrough (s : SchedulerRuntime) (key : ScheduleKey) (entry : ScheduleEntry) (nowMs : UInt64) (writes : Bool) :
    SchedulerRuntime :=
  if writes then
    {s with rows := s.rows.map fun rows => modify rows key fun row => {row with
      nextFireAtMs := entry.nextFireAtMs
      lastFiredAtMs := some (entry.lastFiredAtMs.getD nowMs.toNat)
      firesCompleted := entry.firesCompleted
      updatedAtMs := nowMs.toNat}}
  else s

def SchedulerRuntime.forget (s : SchedulerRuntime) (key : ScheduleKey) (writes : Bool) : SchedulerRuntime :=
  {s with entries := s.entries.erase key,rows := if writes then s.rows.map fun rows => rows.erase key else s.rows}

def SchedulerRuntime.applyFireOutcome (build : Build) (s : SchedulerRuntime) (key : ScheduleKey) (outcome : FireOutcome) (nowMs : UInt64)
    (writes : Bool) : Option (SchedulerRuntime × FireDecision) :=
  match get s.entries key with
  | none => some (s,.terminal "task removed before outcome applied")
  | some entry =>
    (entry.fired build outcome nowMs).map fun (after,decision) =>
      let marked := {s with entries := s.entries.insert key after}
      match decision with
      | .terminal _ => (marked.forget key writes,decision)
      | _ => (marked.writeThrough key after nowMs writes,decision)

section
variable {build : Build} {a b : Nat}

theorem mul_debug : build.mul a b = none ↔ build = .debug ∧ u64Max < a*b := by
  unfold Build.mul
  split
  · simp
    omega
  · cases build <;> simp
    omega

theorem mul_fits (fits : a*b ≤ u64Max) (build : Build) : build.mul a b = some (a*b) := by
  unfold Build.mul
  rw [if_pos fits]

theorem saturatingAdd_ge (nowMs : UInt64) (n : Nat) : nowMs.toNat ≤ saturatingAdd nowMs.toNat n := by
  have bound := nowMs.toNat_lt
  unfold saturatingAdd u64Max
  omega

-- The shift and the saturating product together come to the power, up to the cap.
theorem backoffSeconds_eq (initial cap : UInt64) (attempts : Nat) : backoffSeconds initial cap attempts = min (initial.toNat*2^attempts) cap.toNat := by
  have bound := cap.toNat_lt
  unfold backoffSeconds saturatingMul checkedShl u64Max
  split
  · rw [Option.getD_some]
    omega
  · rename_i far
    rw [Option.getD_none]
    rcases Nat.eq_zero_or_pos initial.toNat with zero | some_
    · rw [zero]
      omega
    · have power : 2^64 ≤ 2^attempts := Nat.pow_le_pow_right (by omega) (by omega)
      have product : 2^64 ≤ initial.toNat*2^attempts := power.trans (Nat.le_mul_of_pos_left _ some_)
      have full : 2^64-1 ≤ initial.toNat*(2^64-1) := Nat.le_mul_of_pos_left _ some_
      omega

theorem backoffSeconds_mono (initial cap : UInt64) {fewer more : Nat} (later : fewer ≤ more) :
    backoffSeconds initial cap fewer ≤ backoffSeconds initial cap more := by
  rw [backoffSeconds_eq,backoffSeconds_eq]
  exact min_le_min_right _ (Nat.mul_le_mul_left _ (Nat.pow_le_pow_right (by omega) later))

end

end EvoCore.Schedules
