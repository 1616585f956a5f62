import EvoCore.Runs
import EvoCore.Schedules

namespace EvoCore.Schedules
open Runs Tables
open HappeningBus (u64Max)
open Appointments (saturatingAdd)

-- The fires of one task. `streak` counts its retryable failures since the last success, skip or schedule;
-- no code reads it. The runtime is gone once it has panicked.
structure Retrying where
  runtime : Option SchedulerRuntime
  streak : Nat

structure Fire where
  outcome : FireOutcome
  nowMs : UInt64
  writes : Bool
deriving DecidableEq,Repr

def FireOutcome.retries : FireOutcome → Bool
  | .failed _ retryable => retryable
  | _ => false

variable (build : Build) (key : ScheduleKey)

def Retrying.step (s : Retrying) (fire : Fire) : Retrying where
  runtime := s.runtime.bind fun runtime => (runtime.applyFireOutcome build key fire.outcome fire.nowMs fire.writes).map (·.1)
  streak := if fire.outcome.retries then s.streak+1 else 0

def FiresIn (nowMs : UInt64) (seconds : Nat) (left : Option ScheduleEntry) : Prop :=
  ∃ entry,left = some entry ∧ entry.nextFireAtMs = some (nowMs.toNat+seconds*1000)

-- What the policies promise for a retryable failure that follows so many others.
def Retried (spec : ScheduleSpec) (streak : Nat) (nowMs : UInt64) (left : Option ScheduleEntry) (decision : FireDecision) : Prop :=
  match spec.retryPolicy with
  | .exponential maxAttempts initial cap =>
    if streak < maxAttempts.toNat then (∃ reason,decision = .retry reason) ∧ FiresIn nowMs (min (initial.toNat*2^streak) cap.toNat) left
    else ∃ reason,decision = .terminal reason
  | .linear maxAttempts _ => if streak < maxAttempts.toNat then ∃ reason,decision = .retry reason else ∃ reason,decision = .terminal reason
  | .none => ∀ intervalSeconds firstFire,spec.trigger = .periodic intervalSeconds firstFire →
      decision = .advance ∧ FiresIn nowMs intervalSeconds.toNat left
  | .pluginManaged => True

-- A success or a skip resets the count.
def Decided (spec : ScheduleSpec) (streak : Nat) (fire : Fire) (left : Option ScheduleEntry) (decision : FireDecision) : Prop :=
  match fire.outcome with
  | .failed _ true => Retried spec streak fire.nowMs left decision
  | .failed _ false => True
  | _ => ∀ entry,left = some entry → entry.retryAttemptsMade = 0

def AsDocumented (s : Retrying) (fire : Fire) : Prop :=
  ∃ runtime,s.runtime = some runtime ∧ ∀ entry,get runtime.entries key = some entry →
    ∃ after decision,runtime.applyFireOutcome build key fire.outcome fire.nowMs fire.writes = some (after,decision) ∧
      Decided entry.spec s.streak fire (get after.entries key) decision

def Build.Fits (build : Build) (seconds : Nat) : Prop := build = .debug → seconds*1000 ≤ u64Max

-- No retry is left to a streak or more than the one in hand are; and the delay of the next attempt, which the
-- code takes, comes to the same instant as that of this one. Without a policy no periodic task fails.
def Forgiving (spec : ScheduleSpec) (streak : Nat) (nowMs : UInt64) : Prop :=
  match spec.retryPolicy with
  | .exponential maxAttempts initial cap => maxAttempts.toNat ≤ streak ∨ (streak+1 < maxAttempts.toNat ∧
      min (initial.toNat*2^(streak+1)) cap.toNat*1000 ≤ u64Max ∧
      saturatingAdd nowMs.toNat (min (initial.toNat*2^(streak+1)) cap.toNat*1000) = nowMs.toNat+min (initial.toNat*2^streak) cap.toNat*1000)
  | .linear maxAttempts between => maxAttempts.toNat ≤ streak ∨ (streak+1 < maxAttempts.toNat ∧ build.Fits between.toNat)
  | .none => ∀ intervalSeconds firstFire,spec.trigger ≠ .periodic intervalSeconds firstFire
  | .pluginManaged => True

def Endured (spec : ScheduleSpec) (streak : Nat) (fire : Fire) : Prop :=
  match fire.outcome with
  | .failed _ true => Forgiving build spec streak fire.nowMs
  | .failed _ false => True
  | _ => ∀ intervalSeconds firstFire,spec.trigger = .periodic intervalSeconds firstFire → build.Fits intervalSeconds.toNat

def Undisturbed (s : Retrying) (fire : Fire) : Prop :=
  ∀ runtime entry,s.runtime = some runtime → get runtime.entries key = some entry → Endured build entry.spec s.streak fire

def Counted (s : Retrying) : Prop :=
  ∃ runtime,s.runtime = some runtime ∧ ∀ entry,get runtime.entries key = some entry → entry.retryAttemptsMade = min s.streak u32Max

variable {build key} {runtime after : SchedulerRuntime} {entry after_ : ScheduleEntry} {decision : FireDecision} {nowMs : UInt64} {s : Retrying}
  {fire : Fire} {seconds : Nat}

theorem mul_fits_iff : build.mul seconds 1000 ≠ none ↔ build.Fits seconds := by
  rw [ne_eq,mul_debug,Build.Fits]
  constructor
  · intro calm debug
    by_contra large
    exact calm ⟨debug,not_le.mp large⟩
  · rintro fits ⟨debug,large⟩
    exact absurd (fits debug) (not_le.mpr large)

theorem trigger_calm : nextFireAfterSuccess build trigger nowMs ≠ none ↔
    ∀ intervalSeconds firstFire,trigger = .periodic intervalSeconds firstFire → build.Fits intervalSeconds.toNat := by
  cases trigger with
  | periodic intervalSeconds firstFire =>
    simp only [nextFireAfterSuccess,ne_eq,Option.map_eq_none_iff,ScheduleTrigger.periodic.injEq]
    rw [← ne_eq,mul_fits_iff]
    exact ⟨fun fits _ _ same => same.1 ▸ fits,fun fits => fits _ _ ⟨rfl,rfl⟩⟩
  | oneShot atMs => simp [nextFireAfterSuccess]
  | cron expression => simp [nextFireAfterSuccess]
  | eventTriggered eventFilter => simp [nextFireAfterSuccess]

def FireDecision.ends : FireDecision → Bool
  | .terminal _ => true
  | _ => false

def FireDecision.left (decision : FireDecision) (entry : ScheduleEntry) : Option ScheduleEntry := if decision.ends then none else some entry

theorem apply_present (there : get runtime.entries key = some entry) (outcome : FireOutcome) (writes : Bool) :
    (runtime.applyFireOutcome build key outcome nowMs writes).map (fun result => (get result.1.entries key,result.2)) =
      (entry.fired build outcome nowMs).map fun result => (result.2.left result.1,result.2) := by
  unfold SchedulerRuntime.applyFireOutcome
  rw [there]
  simp only [Option.map_map]
  apply congrArg (Option.map · _)
  funext result
  obtain ⟨after,decision⟩ := result
  cases decision with
  | terminal reason => simp [SchedulerRuntime.forget,FireDecision.left,FireDecision.ends]
  | advance => cases writes <;> simp [SchedulerRuntime.writeThrough,FireDecision.left,FireDecision.ends]
  | retry reason => cases writes <;> simp [SchedulerRuntime.writeThrough,FireDecision.left,FireDecision.ends]

theorem apply_iff (there : get runtime.entries key = some entry) (outcome : FireOutcome) (writes : Bool)
    (wanted : Option ScheduleEntry → FireDecision → Prop) :
    (∃ after decision,runtime.applyFireOutcome build key outcome nowMs writes = some (after,decision) ∧ wanted (get after.entries key) decision) ↔
      ∃ after decision,entry.fired build outcome nowMs = some (after,decision) ∧ wanted (decision.left after) decision := by
  have same := @apply_present build _ _ _ nowMs there outcome writes
  constructor
  · rintro ⟨after,decision,applied,held⟩
    rw [applied] at same
    obtain ⟨⟨after_,decision_⟩,fired,equal⟩ := Option.map_eq_some_iff.mp same.symm
    simp only [Prod.mk.injEq] at equal
    obtain ⟨entries,rfl⟩ := equal
    exact ⟨after_,decision_,fired,entries ▸ held⟩
  · rintro ⟨after_,decision,fired,held⟩
    rw [fired] at same
    obtain ⟨⟨after,decision_⟩,applied,equal⟩ := Option.map_eq_some_iff.mp same
    simp only [Prod.mk.injEq] at equal
    obtain ⟨entries,rfl⟩ := equal
    exact ⟨after,decision_,applied,entries ▸ held⟩

theorem onTrigger_iff (entry : ScheduleEntry) (exhausted : String) (reset : entry.retryAttemptsMade = 0) :
    (∃ after decision,entry.onTrigger build nowMs exhausted = some (after,decision) ∧
        ∀ entry_,decision.left after = some entry_ → entry_.retryAttemptsMade = 0) ↔
      ∀ intervalSeconds firstFire,entry.spec.trigger = .periodic intervalSeconds firstFire → build.Fits intervalSeconds.toNat := by
  rw [← @trigger_calm _ nowMs _,ScheduleEntry.onTrigger]
  cases next : nextFireAfterSuccess build entry.spec.trigger nowMs with
  | none => simp
  | some n =>
    cases n with
    | none => simp [FireDecision.left,FireDecision.ends]
    | some n => simp [FireDecision.left,FireDecision.ends,reset]

-- The product of a delay that is at most doubled never wraps around to the documented instant.
theorem wrapped_apart {now more less top : Nat} (half : more ≤ 2*less) (large : top < more*1000) :
    min (now+more*1000 % (top+1)) top ≠ now+less*1000 := by
  intro same
  have bound : now+less*1000 ≤ top := same ▸ min_le_right _ _
  have once : more*1000 % (top+1) = more*1000-(top+1) := by
    rw [Nat.mod_eq_sub_mod large,Nat.mod_eq_of_lt (by omega)]
  have short : min (now+more*1000 % (top+1)) top < now+less*1000 := by
    apply (min_le_left _ _).trans_lt
    rw [once]
    omega
  exact absurd same short.ne

theorem doubled_delay {initial cap : UInt64} {streak : Nat} :
    (∃ ms,build.mul (backoffSeconds initial cap (streak+1)) 1000 = some ms ∧
        saturatingAdd nowMs.toNat ms = nowMs.toNat+min (initial.toNat*2^streak) cap.toNat*1000) ↔
      min (initial.toNat*2^(streak+1)) cap.toNat*1000 ≤ u64Max ∧
        saturatingAdd nowMs.toNat (min (initial.toNat*2^(streak+1)) cap.toNat*1000) = nowMs.toNat+min (initial.toNat*2^streak) cap.toNat*1000 := by
  rw [backoffSeconds_eq]
  have doubled : initial.toNat*2^(streak+1) = 2*(initial.toNat*2^streak) := by rw [Nat.pow_succ]; ring
  rw [doubled]
  generalize initial.toNat*2^streak = delay
  by_cases fits : min (2*delay) cap.toNat*1000 ≤ u64Max
  · simp only [mul_fits fits,Option.some.injEq,exists_eq_left',fits,true_and]
  · constructor
    · rintro ⟨ms,product,same⟩
      cases build with
      | debug =>
        rw [mul_debug.mpr ⟨rfl,not_le.mp fits⟩] at product
        cases product
      | release =>
        unfold Build.mul at product
        rw [if_neg fits] at product
        have wrapped := Option.some.inj product
        rw [← wrapped] at same
        have half : min (2*delay) cap.toNat ≤ 2*min delay cap.toNat := by omega
        exact absurd same (wrapped_apart half (not_le.mp fits))
    · rintro ⟨fits_,_⟩
      exact absurd fits_ fits

theorem left_some (entry : ScheduleEntry) (calm : decision.ends = false) : decision.left entry = some entry := by
  simp [FireDecision.left,calm]

theorem retried_iff (counted : entry.retryAttemptsMade = min streak u32Max) (error : String) :
    (∃ after decision,entry.fired build (.failed error true) nowMs = some (after,decision) ∧
        Retried entry.spec streak nowMs (decision.left after) decision) ↔ Forgiving build entry.spec streak nowMs := by
  have attempts : min (entry.retryAttemptsMade+1) u32Max = min (streak+1) u32Max := by omega
  unfold ScheduleEntry.fired Retried Forgiving
  simp only [attempts,if_true]
  cases policy : entry.spec.retryPolicy with
  | none =>
    simp only [nextRetryAfterFailure,Option.map_some,Option.some.injEq,Prod.mk.injEq]
    constructor
    · rintro ⟨_,_,⟨rfl,rfl⟩,held⟩ intervalSeconds firstFire periodic
      cases (held intervalSeconds firstFire periodic).1
    · intro once
      refine ⟨_,_,⟨rfl,rfl⟩,?_⟩
      intro intervalSeconds firstFire periodic
      exact absurd periodic (once intervalSeconds firstFire)
  | pluginManaged => simp [nextRetryAfterFailure]
  | linear maxAttempts between =>
    have small := maxAttempts.toNat_lt
    simp only [nextRetryAfterFailure]
    by_cases left : maxAttempts.toNat ≤ streak+1
    · have used : maxAttempts.toNat ≤ min (streak+1) u32Max := by unfold u32Max; omega
      rw [if_pos used]
      simp only [Option.map_some,Option.some.injEq,Prod.mk.injEq]
      constructor
      · rintro ⟨_,_,⟨rfl,rfl⟩,held⟩
        split at held
        · obtain ⟨reason,retry⟩ := held
          cases retry
        · omega
      · intro forgiving
        refine ⟨_,_,⟨rfl,rfl⟩,?_⟩
        rw [if_neg (by omega)]
        exact ⟨_,rfl⟩
    · have open_ : ¬ maxAttempts.toNat ≤ min (streak+1) u32Max := by unfold u32Max; omega
      have early : streak < maxAttempts.toNat := by omega
      simp only [if_neg open_,if_pos early]
      have rest : maxAttempts.toNat ≤ streak ∨ (streak+1 < maxAttempts.toNat ∧ build.Fits between.toNat) ↔ build.Fits between.toNat := by
        constructor
        · rintro (over_ | ⟨_,fits⟩)
          · omega
          · exact fits
        · intro fits
          exact .inr ⟨by omega,fits⟩
      rw [rest,← mul_fits_iff]
      cases product : build.mul between.toNat 1000 with
      | none => simp
      | some ms => simp
  | exponential maxAttempts initial cap =>
    have small := maxAttempts.toNat_lt
    simp only [nextRetryAfterFailure]
    by_cases left : maxAttempts.toNat ≤ streak+1
    · have used : maxAttempts.toNat ≤ min (streak+1) u32Max := by unfold u32Max; omega
      rw [if_pos used]
      simp only [Option.map_some,Option.some.injEq,Prod.mk.injEq]
      constructor
      · rintro ⟨_,_,⟨rfl,rfl⟩,held⟩
        split at held
        · obtain ⟨⟨reason,retry⟩,_⟩ := held
          cases retry
        · omega
      · intro forgiving
        refine ⟨_,_,⟨rfl,rfl⟩,?_⟩
        rw [if_neg (by omega)]
        exact ⟨_,rfl⟩
    · have exact_ : min (streak+1) u32Max = streak+1 := by unfold u32Max; omega
      have early : streak < maxAttempts.toNat := by omega
      simp only [if_pos early,exact_,if_neg left]
      have rest : (maxAttempts.toNat ≤ streak ∨ (streak+1 < maxAttempts.toNat ∧
          min (initial.toNat*2^(streak+1)) cap.toNat*1000 ≤ u64Max ∧
          saturatingAdd nowMs.toNat (min (initial.toNat*2^(streak+1)) cap.toNat*1000) =
            nowMs.toNat+min (initial.toNat*2^streak) cap.toNat*1000)) ↔
          min (initial.toNat*2^(streak+1)) cap.toNat*1000 ≤ u64Max ∧
          saturatingAdd nowMs.toNat (min (initial.toNat*2^(streak+1)) cap.toNat*1000) =
            nowMs.toNat+min (initial.toNat*2^streak) cap.toNat*1000 := by
        constructor
        · rintro (over_ | ⟨_,held⟩)
          · omega
          · exact held
        · intro held
          exact .inr ⟨by omega,held⟩
      rw [rest,← @doubled_delay build _ _ _ _]
      cases product : build.mul (backoffSeconds initial cap (streak+1)) 1000 with
      | none => simp
      | some ms => simp [FireDecision.left,FireDecision.ends,FiresIn]

theorem fired_count {outcome : FireOutcome} (fired : entry.fired build outcome nowMs = some (after_,decision)) (stays : decision.ends = false) :
    after_.retryAttemptsMade = if outcome.retries then min (entry.retryAttemptsMade+1) u32Max else 0 := by
  have trigger : ∀ (entry : ScheduleEntry) (exhausted : String),entry.onTrigger build nowMs exhausted = some (after_,decision) →
      after_.retryAttemptsMade = entry.retryAttemptsMade := by
    intro entry exhausted moved
    unfold ScheduleEntry.onTrigger at moved
    obtain ⟨next,_,same⟩ := Option.map_eq_some_iff.mp moved
    cases next with
    | none =>
      cases same
      rfl
    | some n =>
      cases same
      rfl
  unfold ScheduleEntry.fired at fired
  cases outcome with
  | success => exact trigger _ _ fired
  | successWithNote note => exact trigger _ _ fired
  | skipped reason => exact trigger _ _ fired
  | failed error retryable =>
    cases retryable with
    | false =>
      cases fired
      cases stays
    | true =>
      simp only [if_true] at fired
      obtain ⟨next,_,same⟩ := Option.map_eq_some_iff.mp fired
      cases next with
      | none =>
        cases same
        rfl
      | some n =>
        cases same
        rfl

theorem decided_iff (counted : entry.retryAttemptsMade = min streak u32Max) (fire : Fire) :
    (∃ after decision,entry.fired build fire.outcome fire.nowMs = some (after,decision) ∧
        Decided entry.spec streak fire (decision.left after) decision) ↔ Endured build entry.spec streak fire := by
  unfold Decided Endured
  cases outcome : fire.outcome with
  | success => exact onTrigger_iff _ _ rfl
  | successWithNote note => exact onTrigger_iff _ _ rfl
  | skipped reason => exact onTrigger_iff _ _ rfl
  | failed error retryable =>
    cases retryable with
    | true => exact retried_iff counted error
    | false => simp [ScheduleEntry.fired]

theorem documented_exact (counted : Counted key s) : AsDocumented build key s fire ↔ Undisturbed build key s fire := by
  obtain ⟨runtime,alive,count⟩ := counted
  constructor
  · rintro ⟨runtime_,alive_,good⟩ runtime__ entry alive__ there
    cases alive.symm.trans alive_
    cases alive.symm.trans alive__
    rw [← decided_iff (count entry there) fire]
    exact (apply_iff there fire.outcome fire.writes (Decided entry.spec s.streak fire)).mp (good entry there)
  · intro calm
    refine ⟨runtime,alive,?_⟩
    intro entry there
    have endured := calm runtime entry alive there
    rw [← decided_iff (count entry there) fire] at endured
    exact (apply_iff there fire.outcome fire.writes (Decided entry.spec s.streak fire)).mpr endured

theorem documented_counted (counted : Counted key s) (good : AsDocumented build key s fire) : Counted key (s.step build key fire) := by
  obtain ⟨runtime,alive,count⟩ := counted
  obtain ⟨runtime_,alive_,decided⟩ := good
  cases Option.some.inj (alive.symm.trans alive_)
  cases there : get runtime.entries key with
  | none =>
    have idle : runtime.applyFireOutcome build key fire.outcome fire.nowMs fire.writes =
        some (runtime,.terminal "task removed before outcome applied") := by
      simp [SchedulerRuntime.applyFireOutcome,there]
    refine ⟨runtime,by simp [Retrying.step,alive,idle],?_⟩
    intro entry found
    rw [there] at found
    cases found
  | some entry =>
    obtain ⟨after,decision,applied,_⟩ := decided entry there
    refine ⟨after,by simp [Retrying.step,alive,applied],?_⟩
    have same := @apply_present build _ _ _ fire.nowMs there fire.outcome fire.writes
    rw [applied] at same
    obtain ⟨⟨after_,decision_⟩,fired,equal⟩ := Option.map_eq_some_iff.mp same.symm
    simp only [Prod.mk.injEq] at equal
    obtain ⟨left,rfl⟩ := equal
    intro entry_ found
    rw [← left] at found
    cases ends : decision_.ends with
    | true => simp [FireDecision.left,ends] at found
    | false =>
      rw [left_some after_ ends] at found
      cases found
      rw [fired_count fired ends,count entry there,Retrying.step]
      split <;> simp only <;> omega

-- Every decision of every run is the documented one exactly where no failure meets the last retry, a delay
-- that is not yet at its plateau, or a policy of none.
theorem retry_policy_exact (build : Build) (runtime : SchedulerRuntime) (creator : String) (spec : ScheduleSpec) (nextFireAtMs nowMs : UInt64)
    (fires : List Fire) :
    Guarded (Retrying.step build (creator,spec.taskId)) (AsDocumented build (creator,spec.taskId))
        ⟨some (runtime.schedule creator spec nextFireAtMs nowMs),0⟩ fires ↔
      Guarded (Retrying.step build (creator,spec.taskId)) (Undisturbed build (creator,spec.taskId))
        ⟨some (runtime.schedule creator spec nextFireAtMs nowMs),0⟩ fires := by
  apply guarded_iff (Counted (creator,spec.taskId))
  · exact fun s fire counted => documented_exact counted
  · exact fun s fire counted good => documented_counted counted good
  · refine ⟨_,rfl,?_⟩
    intro entry there
    simp only [SchedulerRuntime.schedule,get_insert,if_true,Option.some.injEq] at there
    rw [← there]
    simp

-- One retry is allowed and none is made; three are, and the first waits twice the initial backoff; and a
-- periodic task that is not to be retried never fires again.
def pollOnce : ScheduleSpec := ⟨"poll",.periodic 3600 .immediate,.exponential 1 10 600⟩

def lost (nowMs : UInt64) : Fire := ⟨.failed "unreachable" true,nowMs,true⟩

def polling (policy : RetryPolicy) : Retrying := ⟨some ((SchedulerRuntime.mk ∅ none).schedule "org.example.poll" {pollOnce with retryPolicy := policy} 0 0),0⟩

def decisionOf (s : Retrying) (fire : Fire) : Option (Option Nat × FireDecision) := do
  let runtime ← s.runtime
  let (after,decision) ← runtime.applyFireOutcome .release ("org.example.poll","poll") fire.outcome fire.nowMs fire.writes
  return ((get after.entries ("org.example.poll","poll")).bind (·.nextFireAtMs),decision)

theorem last_retry_lost :
    decisionOf (polling (.exponential 1 10 600)) (lost 5000) = some (none,.terminal "retry policy exhausted after 1 attempts: unreachable") ∧
    decisionOf (polling (.exponential 3 10 600)) (lost 5000) = some (some 25000,.retry "unreachable") ∧
    decisionOf (polling .none) (lost 5000) = some (none,.terminal "retry policy exhausted after 1 attempts: unreachable") ∧
    ¬ Guarded (Retrying.step .release ("org.example.poll","poll")) (AsDocumented .release ("org.example.poll","poll"))
      (polling (.exponential 1 10 600)) [lost 5000] := by
  refine ⟨by decide,by decide,by decide,?_⟩
  rintro ⟨⟨runtime,alive,decided⟩,_⟩
  cases alive
  obtain ⟨after,decision,applied,⟨reason,retry⟩,_⟩ := decided _ rfl
  cases retry
  have terminal : (decisionOf (polling (.exponential 1 10 600)) (lost 5000)).map (·.2) =
      some (.terminal "retry policy exhausted after 1 attempts: unreachable") := by decide
  have found : (decisionOf (polling (.exponential 1 10 600)) (lost 5000)).map (·.2) = some (.retry reason) := by
    simp only [decisionOf,polling,Option.bind_eq_bind,Option.bind_some]
    rw [applied]
    rfl
  rw [found] at terminal
  cases terminal

end EvoCore.Schedules
