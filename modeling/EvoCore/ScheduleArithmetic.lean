import EvoCore.Schedules

namespace EvoCore.Schedules
open HappeningBus (u64Max)
open Appointments (saturatingAdd)

structure Exact (f : Build → Option α) : Prop where
  calm : f .debug ≠ none
  same : ∀ build,f build = f .debug

-- The three instants of a schedule: computed without an overflow, none before now but a one-shot's first,
-- and the exponential ones later for every attempt more.
structure TimeTotal (spec : ScheduleSpec) (attempts : Nat) (nowMs : UInt64) : Prop where
  initial : Exact fun build => validateAndInitialFire build spec nowMs
  success : Exact fun build => nextFireAfterSuccess build spec.trigger nowMs
  retry : Exact fun build => nextRetryAfterFailure build spec.retryPolicy attempts nowMs
  initialLater : (∀ atMs,spec.trigger ≠ .oneShot atMs) →
    ∀ build at_,validateAndInitialFire build spec nowMs = some (.ok at_) → nowMs.toNat ≤ at_
  successLater : ∀ build at_,nextFireAfterSuccess build spec.trigger nowMs = some (some at_) → nowMs.toNat ≤ at_
  retryLater : ∀ build at_,nextRetryAfterFailure build spec.retryPolicy attempts nowMs = some (some at_) → nowMs.toNat ≤ at_
  growing : ∀ maxAttempts initial cap,spec.retryPolicy = .exponential maxAttempts initial cap → ∀ build fewer,fewer ≤ attempts →
    ∀ first then_,nextRetryAfterFailure build spec.retryPolicy fewer nowMs = some (some first) →
      nextRetryAfterFailure build spec.retryPolicy attempts nowMs = some (some then_) → first ≤ then_

-- The seconds that are multiplied fit into a u64 as milliseconds.
structure SecondsFit (spec : ScheduleSpec) (attempts : Nat) : Prop where
  interval : ∀ intervalSeconds firstFire,spec.trigger = .periodic intervalSeconds firstFire → intervalSeconds.toNat*1000 ≤ u64Max
  exponential : ∀ maxAttempts initial cap,spec.retryPolicy = .exponential maxAttempts initial cap → attempts < maxAttempts.toNat →
    min (initial.toNat*2^attempts) cap.toNat*1000 ≤ u64Max
  linear : ∀ maxAttempts between,spec.retryPolicy = .linear maxAttempts between → attempts < maxAttempts.toNat →
    between.toNat*1000 ≤ u64Max

variable {spec : ScheduleSpec} {attempts : Nat} {nowMs : UInt64} {a b : Nat}

theorem exact_const (x : α) : Exact fun _ : Build => some x := ⟨by simp,fun _ => rfl⟩

theorem exact_mul (f : Nat → α) : (Exact fun build => (Build.mul build a b).map f) ↔ a*b ≤ u64Max := by
  constructor
  · intro exact_
    by_contra large
    exact exact_.calm (by simp [mul_debug.mpr ⟨rfl,not_le.mp large⟩])
  · intro fits
    refine ⟨by simp [mul_fits fits],?_⟩
    intro build
    simp only [mul_fits fits]

theorem success_exact : (Exact fun build => nextFireAfterSuccess build spec.trigger nowMs) ↔
    ∀ intervalSeconds firstFire,spec.trigger = .periodic intervalSeconds firstFire → intervalSeconds.toNat*1000 ≤ u64Max := by
  cases trigger : spec.trigger with
  | periodic intervalSeconds firstFire =>
    simp only [nextFireAfterSuccess,exact_mul,ScheduleTrigger.periodic.injEq]
    exact ⟨fun fits _ _ same => same.1 ▸ fits,fun fits => fits _ _ ⟨rfl,rfl⟩⟩
  | oneShot atMs => simp [nextFireAfterSuccess,exact_const]
  | cron expression => simp [nextFireAfterSuccess,exact_const]
  | eventTriggered eventFilter => simp [nextFireAfterSuccess,exact_const]

theorem initial_exact (fits : ∀ intervalSeconds firstFire,spec.trigger = .periodic intervalSeconds firstFire →
    intervalSeconds.toNat*1000 ≤ u64Max) : Exact fun build => validateAndInitialFire build spec nowMs := by
  unfold validateAndInitialFire
  split
  · exact exact_const _
  · cases trigger : spec.trigger with
    | periodic intervalSeconds firstFire =>
      simp only
      split
      · exact exact_const _
      · cases firstFire with
        | immediate => exact exact_const _
        | afterInterval => exact (exact_mul _).mpr (fits _ _ trigger)
    | oneShot atMs => exact exact_const _
    | cron expression => exact exact_const _
    | eventTriggered eventFilter => exact exact_const _

theorem retry_exact : (Exact fun build => nextRetryAfterFailure build spec.retryPolicy attempts nowMs) ↔
    (∀ maxAttempts initial cap,spec.retryPolicy = .exponential maxAttempts initial cap → attempts < maxAttempts.toNat →
      min (initial.toNat*2^attempts) cap.toNat*1000 ≤ u64Max) ∧
    ∀ maxAttempts between,spec.retryPolicy = .linear maxAttempts between → attempts < maxAttempts.toNat → between.toNat*1000 ≤ u64Max := by
  cases policy : spec.retryPolicy with
  | none => simp [nextRetryAfterFailure,exact_const]
  | exponential maxAttempts initial cap =>
    by_cases left : maxAttempts.toNat ≤ attempts
    · simp only [nextRetryAfterFailure,if_pos left,exact_const,true_iff]
      refine ⟨?_,fun _ _ same => by cases same⟩
      intro n i c same some_
      cases same
      omega
    · simp only [nextRetryAfterFailure,if_neg left,exact_mul,backoffSeconds_eq]
      constructor
      · intro fits
        refine ⟨?_,fun _ _ same => by cases same⟩
        intro n i c same _
        cases same
        exact fits
      · intro fits
        exact fits.1 _ _ _ rfl (not_le.mp left)
  | linear maxAttempts between =>
    by_cases left : maxAttempts.toNat ≤ attempts
    · simp only [nextRetryAfterFailure,if_pos left,exact_const,true_iff]
      refine ⟨fun _ _ _ same => (by cases same),?_⟩
      intro n p same some_
      cases same
      omega
    · simp only [nextRetryAfterFailure,if_neg left,exact_mul]
      constructor
      · intro fits
        refine ⟨fun _ _ _ same => (by cases same),?_⟩
        intro n p same _
        cases same
        exact fits
      · intro fits
        exact fits.2 _ _ rfl (not_le.mp left)
  | pluginManaged => simp [nextRetryAfterFailure,exact_const]

theorem map_later {at_ : Nat} {product : Option Nat} (found : (product.map fun ms => some (saturatingAdd nowMs.toNat ms)) = some (some at_)) :
    ∃ ms,product = some ms ∧ at_ = saturatingAdd nowMs.toNat ms := by
  obtain ⟨ms,there,same⟩ := Option.map_eq_some_iff.mp found
  exact ⟨ms,there,(Option.some.inj same).symm⟩

theorem success_later {at_ : Nat} (found : nextFireAfterSuccess build spec.trigger nowMs = some (some at_)) : nowMs.toNat ≤ at_ := by
  unfold nextFireAfterSuccess at found
  split at found
  · obtain ⟨ms,_,rfl⟩ := map_later found
    exact saturatingAdd_ge nowMs ms
  · cases found
  · cases found
  · cases found

theorem initial_later {at_ : Nat} (recurring : ∀ atMs,spec.trigger ≠ .oneShot atMs)
    (found : validateAndInitialFire build spec nowMs = some (.ok at_)) : nowMs.toNat ≤ at_ := by
  unfold validateAndInitialFire at found
  split at found
  · cases found
  · split at found
    · split at found
      · cases found
      · split at found
        · cases found
          exact le_refl _
        · obtain ⟨ms,_,same⟩ := Option.map_eq_some_iff.mp found
          cases Except.ok.inj same
          exact saturatingAdd_ge nowMs ms
    · rename_i atMs once
      exact absurd once (recurring atMs)
    · cases found
    · cases found

theorem retry_later {at_ : Nat} (found : nextRetryAfterFailure build spec.retryPolicy attempts nowMs = some (some at_)) : nowMs.toNat ≤ at_ := by
  unfold nextRetryAfterFailure at found
  split at found
  · cases found
  · split at found
    · cases found
    · obtain ⟨ms,_,rfl⟩ := map_later found
      exact saturatingAdd_ge nowMs ms
  · split at found
    · cases found
    · obtain ⟨ms,_,rfl⟩ := map_later found
      exact saturatingAdd_ge nowMs ms
  · cases found

theorem retry_growing {fewer first then_ : Nat} {maxAttempts : UInt32} {initial cap : UInt64} (earlier : fewer ≤ attempts)
    (fits : attempts < maxAttempts.toNat → min (initial.toNat*2^attempts) cap.toNat*1000 ≤ u64Max)
    (before : nextRetryAfterFailure build (.exponential maxAttempts initial cap) fewer nowMs = some (some first))
    (after : nextRetryAfterFailure build (.exponential maxAttempts initial cap) attempts nowMs = some (some then_)) : first ≤ then_ := by
  simp only [nextRetryAfterFailure] at before after
  split at before
  · cases before
  · split at after
    · cases after
    · rename_i left
      have late := fits (not_le.mp left)
      rw [← backoffSeconds_eq] at late
      have grows := Nat.mul_le_mul_right 1000 (backoffSeconds_mono initial cap earlier)
      obtain ⟨ms,early,rfl⟩ := map_later before
      obtain ⟨ms_,late_,rfl⟩ := map_later after
      rw [mul_fits (grows.trans late)] at early
      rw [mul_fits late] at late_
      cases early
      cases late_
      unfold saturatingAdd
      omega

-- The arithmetic is total exactly where the seconds fit.
theorem time_total_exact (spec : ScheduleSpec) (attempts : Nat) (nowMs : UInt64) :
    TimeTotal spec attempts nowMs ↔ SecondsFit spec attempts := by
  constructor
  · intro total
    obtain ⟨exponential,linear⟩ := retry_exact.mp total.retry
    exact ⟨success_exact.mp total.success,exponential,linear⟩
  · intro fit
    refine ⟨initial_exact fit.interval,success_exact.mpr fit.interval,retry_exact.mpr ⟨fit.exponential,fit.linear⟩,?_,?_,?_,?_⟩
    · exact fun recurring build at_ found => initial_later recurring found
    · exact fun build at_ found => success_later found
    · exact fun build at_ found => retry_later found
    · intro maxAttempts initial cap policy build fewer earlier first then_ before after
      rw [policy] at before after
      exact retry_growing earlier (fit.exponential maxAttempts initial cap policy) before after

-- The least interval that does not fit: a debug build panics on it, a release build fires after 384 ms.
def farAway : ScheduleSpec := ⟨"far-away",.periodic 18446744073709552 .afterInterval,.none⟩

theorem interval_overflows : ¬ TimeTotal farAway 0 1700000000000 ∧
    validateAndInitialFire .debug farAway 1700000000000 = none ∧
    validateAndInitialFire .release farAway 1700000000000 = some (.ok 1700000000384) ∧
    nextFireAfterSuccess .debug farAway.trigger 1700000000000 = none := by
  have panics : validateAndInitialFire .debug farAway 1700000000000 = none := by
    simp [validateAndInitialFire,farAway,Build.mul,u64Max]
  refine ⟨fun total => total.initial.calm panics,panics,?_,?_⟩
  · simp [validateAndInitialFire,farAway,Build.mul,u64Max,saturatingAdd]
  · simp [nextFireAfterSuccess,farAway,Build.mul,u64Max]

end EvoCore.Schedules
