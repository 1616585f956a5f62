import EvoCore.Watches

namespace EvoCore.Watches
open Runs
open HappeningBus (u64Max)

-- The calls of account_for_evaluation for one watch. `admitted` and `refused` count those of the window in
-- hand, its first included; `rolled` says that the window took another's place. No code reads the three.
structure Throttling where
  eval : WatchEvaluatorState
  admitted : Nat
  refused : Nat
  rolled : Bool

def Throttling.start : Throttling := ⟨.default,0,0,false⟩

-- A second or more after its start a window rolls.
def Throttling.rolls (s : Throttling) (now : Nat) : Bool := nanosPerSecond ≤ now-s.eval.throttleWindowStarted.getD now

variable (maxPerSecond : UInt64)

def Throttling.step (s : Throttling) (now : Nat) : Throttling :=
  match accountForEvaluation maxPerSecond.toNat s.eval now with
  | (admitted,_,eval) =>
    if s.rolls now then ⟨eval,if admitted then 1 else 0,if admitted then 0 else 1,true⟩
    else ⟨eval,if admitted then s.admitted+1 else s.admitted,if admitted then s.refused else s.refused+1,s.rolled⟩

def Throttling.emitted (s : Throttling) (now : Nat) : Nat := (accountForEvaluation maxPerSecond.toNat s.eval now).2.1

-- A call that leaves no more admitted than the cap allows, and that reports what was refused when it rolls.
structure Throttled (s : Throttling) (now : Nat) : Prop where
  capped : (s.step maxPerSecond now).admitted ≤ maxPerSecond.toNat
  told : s.rolls now → s.emitted maxPerSecond now = s.refused

-- A call that stays within a rolled window is not the last one that the cap allows beside the window's first;
-- and no window refuses more calls than a u64 counts.
structure Spared (s : Throttling) (now : Nat) : Prop where
  room : ¬ s.rolls now → s.rolled = true → s.admitted < maxPerSecond.toNat
  counted : s.rolls now → s.refused ≤ u64Max

-- The window's counters beside what they stand for: the call that rolls a window is admitted and not seen.
structure Tallied (s : Throttling) : Prop where
  dropped : s.eval.throttleWindowDropped = min s.refused u64Max
  seen : s.admitted = if s.rolled then s.eval.throttleWindowSeen+1 else s.eval.throttleWindowSeen
  within : s.eval.throttleWindowSeen ≤ maxPerSecond.toNat
  started : s.eval.throttleWindowStarted ≠ none → 0 < maxPerSecond.toNat

variable {maxPerSecond} {s : Throttling} {now : Nat}

theorem step_rolls (rolls : s.rolls now = true) : s.step maxPerSecond now =
    ⟨{s.eval with throttleWindowStarted := some now,throttleWindowSeen := 0,throttleWindowDropped := 0},1,0,true⟩ ∧
      s.emitted maxPerSecond now = s.eval.throttleWindowDropped := by
  have late := of_decide_eq_true rolls
  simp only [Throttling.step,Throttling.emitted,accountForEvaluation,rolls,if_pos late]
  simp

theorem step_refuses (stays : s.rolls now = false) (full : maxPerSecond.toNat ≤ s.eval.throttleWindowSeen) : s.step maxPerSecond now =
    ⟨{s.eval with throttleWindowDropped := min (s.eval.throttleWindowDropped+1) u64Max},s.admitted,s.refused+1,s.rolled⟩ := by
  have early := of_decide_eq_false stays
  simp only [Throttling.step,accountForEvaluation,stays,if_neg early,if_pos full]
  rfl

theorem step_admits (stays : s.rolls now = false) (open_ : ¬ maxPerSecond.toNat ≤ s.eval.throttleWindowSeen) : s.step maxPerSecond now =
    ⟨{s.eval with
      throttleWindowStarted := some (s.eval.throttleWindowStarted.getD now)
      throttleWindowSeen := min (s.eval.throttleWindowSeen+1) u64Max},s.admitted+1,s.refused,s.rolled⟩ := by
  have early := of_decide_eq_false stays
  simp only [Throttling.step,accountForEvaluation,stays,if_neg early,if_neg open_]
  rfl

theorem rolls_started (rolls : s.rolls now = true) : s.eval.throttleWindowStarted ≠ none := by
  intro fresh
  have late := of_decide_eq_true rolls
  rw [fresh,Option.getD_none,Nat.sub_self] at late
  exact absurd late (by decide)

theorem throttled_exact (tallied : Tallied maxPerSecond s) : Throttled maxPerSecond s now ↔ Spared maxPerSecond s now := by
  have seen := tallied.seen
  have within_ := tallied.within
  cases rolls : s.rolls now with
  | true =>
    obtain ⟨after,emitted⟩ := @step_rolls maxPerSecond _ _ rolls
    constructor
    · intro throttled
      refine ⟨fun stays => absurd rolls stays,fun _ => ?_⟩
      have told := throttled.told rolls
      rw [emitted,tallied.dropped] at told
      omega
    · intro spared
      refine ⟨?_,fun _ => ?_⟩
      · rw [after]
        exact tallied.started (rolls_started rolls)
      · rw [emitted,tallied.dropped]
        exact Nat.min_eq_left (spared.counted rolls)
  | false =>
    have stays : ¬ s.rolls now = true := by simp [rolls]
    by_cases full : maxPerSecond.toNat ≤ s.eval.throttleWindowSeen
    · have after := step_refuses rolls full
      constructor
      · intro throttled
        refine ⟨fun _ rolled => ?_,fun rolls_ => absurd rolls_ stays⟩
        have capped := throttled.capped
        rw [after] at capped
        rw [rolled,if_pos rfl] at seen
        simp only at capped
        omega
      · intro spared
        refine ⟨?_,fun rolls_ => absurd rolls_ stays⟩
        rw [after]
        simp only
        cases rolled : s.rolled with
        | true => exact (spared.room stays rolled).le
        | false =>
          rw [rolled] at seen
          simp only [Bool.false_eq_true,if_false] at seen
          omega
    · have after := step_admits rolls full
      constructor
      · intro throttled
        refine ⟨fun _ _ => ?_,fun rolls_ => absurd rolls_ stays⟩
        have capped := throttled.capped
        rw [after] at capped
        exact capped
      · intro spared
        refine ⟨?_,fun rolls_ => absurd rolls_ stays⟩
        rw [after]
        cases rolled : s.rolled with
        | true => exact spared.room stays rolled
        | false =>
          rw [rolled] at seen
          simp only [Bool.false_eq_true,if_false] at seen
          simp only
          omega

theorem step_tallied (tallied : Tallied maxPerSecond s) (now : Nat) : Tallied maxPerSecond (s.step maxPerSecond now) := by
  have dropped := tallied.dropped
  have seen := tallied.seen
  have within_ := tallied.within
  have small := maxPerSecond.toNat_lt
  cases rolls : s.rolls now with
  | true =>
    rw [(step_rolls rolls).1]
    exact ⟨rfl,rfl,Nat.zero_le _,fun _ => tallied.started (rolls_started rolls)⟩
  | false =>
    by_cases full : maxPerSecond.toNat ≤ s.eval.throttleWindowSeen
    · rw [step_refuses rolls full]
      refine ⟨?_,seen,within_,tallied.started⟩
      simp only [dropped]
      omega
    · have kept : min (s.eval.throttleWindowSeen+1) u64Max = s.eval.throttleWindowSeen+1 := by unfold u64Max; omega
      rw [step_admits rolls full,kept]
      refine ⟨dropped,?_,by simp only; omega,fun _ => by omega⟩
      simp only [seen]
      split <;> rfl

-- Every call of every sequence is accounted for exactly where no rolled window takes as many calls more as
-- the cap allows.
theorem throttle_exact (maxPerSecond : UInt64) (calls : List Nat) :
    Guarded (Throttling.step maxPerSecond) (Throttled maxPerSecond) .start calls ↔
      Guarded (Throttling.step maxPerSecond) (Spared maxPerSecond) .start calls := by
  apply guarded_iff (Tallied maxPerSecond)
  · exact fun s now tallied => throttled_exact tallied
  · exact fun s now tallied _ => step_tallied tallied now
  · exact ⟨rfl,rfl,Nat.zero_le _,fun started => absurd rfl started⟩

-- A cap of one a second admits two evaluations in a second: the call that rolls the window is not counted.
theorem rolled_window_admits_two :
    (run (Throttling.step 1) .start [0,1000000000,1000000001]).admitted = 2 ∧
    ¬ Guarded (Throttling.step 1) (Throttled 1) .start [0,1000000000,1000000001] := by
  have two : (run (Throttling.step 1) .start [0,1000000000,1000000001]).admitted = 2 := by decide
  refine ⟨two,?_⟩
  rintro ⟨_,_,⟨capped,_⟩,_⟩
  change (run (Throttling.step 1) .start [0,1000000000,1000000001]).admitted ≤ 1 at capped
  omega

end EvoCore.Watches
