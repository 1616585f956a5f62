import EvoCore.TimeTrust

namespace EvoCore.Time

variable {limit : Nat} {tracker : Tracker} {poll next : Poll} {seconds : Int64} {a b : Nat}

-- What the platform delivers: an instant holds its seconds in 63 bits, the wall clock has left the epoch behind.
structure Readable (poll : Poll) : Prop where
  monotonic : poll.nowMonotonic < 2^63*10^9
  started : 0 ≤ poll.kernelNow
  wall : poll.kernelNow < 2^63*10^9

def monoElapsed (poll next : Poll) : Int := next.nowMonotonic-poll.nowMonotonic
def wallElapsed (poll next : Poll) : Int := next.kernelNow-poll.kernelNow

-- The tick takes the gap for a step of the clock, with all that comes with it.
structure Reports (limit : Nat) (tracker : Tracker) (poll : Poll) (seconds : Int64) : Prop where
  detected : clockJumpDeltaSecs tracker.lastSample poll = some seconds
  recorded : ((tick limit tracker poll).lastStep.map (·.deltaSeconds)) = some seconds
  emitted : poll.jumpEmitted = true → (tick limit tracker poll).happenings.getLast? = some (.clockAdjusted seconds poll.jumpAt)
  state : (tick limit tracker poll).shared = .untrusted ∨ ∃ at_,(tick limit tracker poll).shared = .adjusting at_

structure Silent (limit : Nat) (tracker : Tracker) (poll : Poll) : Prop where
  undetected : clockJumpDeltaSecs tracker.lastSample poll = none
  unrecorded : (tick limit tracker poll).lastStep = tracker.lastStep
  unemitted : ∀ delta at_,.clockAdjusted delta at_ ∈ (tick limit tracker poll).happenings →
    .clockAdjusted delta at_ ∈ tracker.happenings
  state : ∀ at_,(tick limit tracker poll).shared ≠ .adjusting at_

-- The whole seconds that each branch compares, without a bound on their size.
def driftSecs (m w : Int) : Int := if 0 ≤ w then w/10^9-m/10^9 else -(-w/10^9)

structure Measured (limit : Nat) (tracker : Tracker) (next : Poll) (m w : Int) : Prop where
  caught : (clockJumpThresholdSecs.toInt+2)*10^9 ≤ |w-m| → ∃ seconds,Reports limit tracker next seconds
  calm : |w-m| < 2*10^9 → Silent limit tracker next
  close : ∀ seconds,Reports limit tracker next seconds → |seconds.toInt*10^9-(w-m)| ≤ 10^9
  bounded : ∀ sample ∈ tracker.lastSample,(drift sample.1 sample.2 next).toInt = driftSecs m w ∧
    (drift sample.1 sample.2 next).abs.toInt = |driftSecs m w|

-- The clock did not go back behind the last reading; or by so little that no step was due;
-- or what passed meanwhile, and the part of a second that is cut off, is at most a second.
def Followed (m w : Int) : Prop :=
  0 ≤ w ∨ -w < 3*10^9 ∧ m-w < 4*10^9 ∨ 3*10^9 ≤ -w ∧ m+-w%10^9 ≤ 10^9

instance : Decidable (Followed m w) := inferInstanceAs (Decidable (_ ∨ _))

theorem asSecs_toInt (small : a < 2^63*10^9) : (asSecs a).toInt = (a : Int)/10^9 := by
  rw [asSecs,Int64.toInt_ofNat_of_lt (by omega)]
  push_cast
  rfl

theorem abs_toInt {x : Int64} (above : -2^63 < x.toInt) : x.abs.toInt = |x.toInt| := by
  have notMin : x.toBitVec ≠ BitVec.intMin 64 := by
    intro equal
    have least : x.toInt = (BitVec.intMin 64).toInt := congrArg BitVec.toInt equal
    rw [show (BitVec.intMin 64).toInt = -2^63 by decide] at least
    omega
  have magnitude : x.toBitVec.abs.toInt = _ := BitVec.toInt_abs_eq_natAbs
  rw [if_neg notMin] at magnitude
  exact magnitude.trans (Int.abs_eq_natAbs _).symm

theorem drift_toInt (now : Readable poll) (later : Readable next) (forward : poll.nowMonotonic ≤ next.nowMonotonic) :
    (drift poll.nowMonotonic poll.kernelNow next).toInt = driftSecs (monoElapsed poll next) (wallElapsed poll next) := by
  obtain ⟨mono,started,wall⟩ := now
  obtain ⟨nextMono,nextStarted,nextWall⟩ := later
  have mSecs : (asSecs (next.nowMonotonic-poll.nowMonotonic)).toInt = monoElapsed poll next/10^9 := by
    rw [asSecs_toInt (by omega),monoElapsed,Int.ofNat_sub forward]
  simp only [drift,driftSecs]
  split
  next ahead =>
    have wSecs : (asSecs (next.kernelNow-poll.kernelNow).toNat).toInt = wallElapsed poll next/10^9 := by
      rw [asSecs_toInt (by omega),wallElapsed,Int.toNat_of_nonneg (by omega)]
    rw [if_pos (by simp only [wallElapsed]; omega),Int64.toInt_sub,mSecs,wSecs]
    apply Int.bmod_eq_of_le <;> simp only [monoElapsed,wallElapsed] <;> omega
  next behind =>
    have rSecs : (asSecs (poll.kernelNow-next.kernelNow).toNat).toInt = -wallElapsed poll next/10^9 := by
      rw [asSecs_toInt (by omega),wallElapsed,Int.toNat_of_nonneg (by omega)]
      congr 1
      omega
    rw [if_neg (by simp only [wallElapsed]; omega),Int64.toInt_neg,rSecs]
    apply Int.bmod_eq_of_le <;> simp only [wallElapsed] <;> omega

theorem computeState_jumped : computeState synced at? limit true now = .untrusted ∨
    ∃ at_,computeState synced at? limit true now = .adjusting at_ := by
  cases at? with
  | none => exact .inl (by cases synced <;> rfl)
  | some at_ => exact .inr ⟨at_,by cases synced <;> rfl⟩

theorem computeState_calm : computeState synced at? limit false now ≠ .adjusting at_ := by
  cases at? <;> cases synced <;> simp [computeState]
  split <;> simp

theorem reports_iff : Reports limit tracker poll seconds ↔ clockJumpDeltaSecs tracker.lastSample poll = some seconds := by
  refine ⟨Reports.detected,?_⟩
  intro detected
  constructor
  case detected => exact detected
  case recorded => simp [tick,detected]
  case emitted => intro taken; simp [tick,detected,emitJump,taken]
  case state =>
    simp only [tick,newState,detected,Option.isSome_some]
    exact computeState_jumped

theorem silent_iff : Silent limit tracker poll ↔ clockJumpDeltaSecs tracker.lastSample poll = none := by
  refine ⟨Silent.undetected,?_⟩
  intro undetected
  constructor
  case undetected => exact undetected
  case unrecorded => simp [tick,undetected]
  case unemitted =>
    intro delta at_ present
    simp only [tick,undetected,emitJump,List.append_nil,List.mem_append] at present
    rcases present with before | change
    · exact before
    · rw [emitChange] at change
      split at change <;> simp at change
  case state =>
    intro at_
    simp only [tick,newState,undetected,Option.isSome_none]
    exact computeState_calm

theorem detected_iff : clockJumpDeltaSecs (some (poll.nowMonotonic,poll.kernelNow)) next = some seconds ↔
    clockJumpThresholdSecs < (drift poll.nowMonotonic poll.kernelNow next).abs ∧
      drift poll.nowMonotonic poll.kernelNow next = seconds := by
  simp only [clockJumpDeltaSecs]
  split <;> simp_all

theorem undetected_iff : clockJumpDeltaSecs (some (poll.nowMonotonic,poll.kernelNow)) next = none ↔
    ¬clockJumpThresholdSecs < (drift poll.nowMonotonic poll.kernelNow next).abs := by
  simp only [clockJumpDeltaSecs]
  split <;> simp_all

-- Ahead, cutting both elapsed times to seconds costs less than one; behind, the elapsed time is left out.
theorem followed_iff {m w : Int} (onward : 0 ≤ m) : Followed m w ↔
    (4*10^9 ≤ |w-m| → 2 < |driftSecs m w|) ∧ (|w-m| < 2*10^9 → ¬2 < |driftSecs m w|) ∧
      (2 < |driftSecs m w| → |driftSecs m w*10^9-(w-m)| ≤ 10^9) := by
  simp only [Followed,driftSecs,lt_abs,abs_lt,le_abs,abs_le]
  split <;> omega

theorem clock_steps_measured (limit : Nat) (tracker : Tracker) (poll next : Poll) (now : Readable poll) (later : Readable next)
    (forward : poll.nowMonotonic ≤ next.nowMonotonic) :
    Measured limit (tick limit tracker poll) next (monoElapsed poll next) (wallElapsed poll next) ↔
      Followed (monoElapsed poll next) (wallElapsed poll next) := by
  have measured := drift_toInt now later forward
  have above : -2^63 < (drift poll.nowMonotonic poll.kernelNow next).toInt := by
    obtain ⟨mono,started,wall⟩ := now
    obtain ⟨nextMono,nextStarted,nextWall⟩ := later
    rw [measured,driftSecs]
    split <;> simp only [monoElapsed,wallElapsed] at * <;> omega
  have magnitude := (abs_toInt above).trans (congrArg abs measured)
  have sample : (tick limit tracker poll).lastSample = some (poll.nowMonotonic,poll.kernelNow) := rfl
  have far : clockJumpThresholdSecs < (drift poll.nowMonotonic poll.kernelNow next).abs ↔
      2 < |driftSecs (monoElapsed poll next) (wallElapsed poll next)| := by
    rw [Int64.lt_iff_toInt_lt,magnitude]
    rfl
  have onward : 0 ≤ monoElapsed poll next := by simp only [monoElapsed]; omega
  rw [followed_iff onward]
  constructor
  · intro kept
    refine ⟨?_,?_,?_⟩
    · intro step
      obtain ⟨seconds,reported⟩ := kept.caught step
      exact far.mp (detected_iff.mp (sample ▸ reported.detected)).1
    · intro steady
      exact far.not.mp (undetected_iff.mp (sample ▸ (kept.calm steady).undetected))
    · intro reported
      rw [← measured]
      exact kept.close _ (reports_iff.mpr (sample ▸ detected_iff.mpr ⟨far.mpr reported,rfl⟩))
  · intro fits
    obtain ⟨caught,calm,close⟩ := fits
    constructor
    case caught =>
      intro step
      exact ⟨_,reports_iff.mpr (sample ▸ detected_iff.mpr ⟨far.mpr (caught step),rfl⟩)⟩
    case calm =>
      intro steady
      exact silent_iff.mpr (sample ▸ undetected_iff.mpr (far.not.mpr (calm steady)))
    case close =>
      intro seconds reported
      obtain ⟨past,rfl⟩ := detected_iff.mp (sample ▸ reported.detected)
      rw [measured]
      exact close (far.mp past)
    case bounded =>
      intro pair last
      cases Option.some.inj last
      exact ⟨measured,magnitude⟩

def beforeStep : Poll := kernelPoll true (10*10^9) (hours 1000)

-- A clock set forward by an hour between two polls.
def setForward : Poll := kernelPoll true (15*10^9) (hours 1001+5*10^9)

theorem setForward_measured : Measured (hours 24) (tick (hours 24) boot beforeStep) setForward (5*10^9) (hours 1+5*10^9) :=
  (clock_steps_measured (hours 24) boot beforeStep setForward ⟨by decide,by decide,by decide⟩ ⟨by decide,by decide,by decide⟩
    (by decide)).mpr (by decide)

-- The clock goes back by seven seconds, two of them behind the last poll: nobody reports it.
-- It goes back by fifteen, ten of them behind the last poll: ten are reported.
def setBack (seconds : Int) : Poll := kernelPoll true (15*10^9) (hours 1000-seconds*10^9)

theorem setBack_missed : ¬Measured (hours 24) (tick (hours 24) boot beforeStep) (setBack 2) (5*10^9) (-2*10^9) ∧
    Reports (hours 24) (tick (hours 24) boot beforeStep) (setBack 10) (-10) ∧
    ¬Measured (hours 24) (tick (hours 24) boot beforeStep) (setBack 10) (5*10^9) (-10*10^9) := by
  have silent : clockJumpDeltaSecs (tick (hours 24) boot beforeStep).lastSample (setBack 2) = none := by decide
  have short : clockJumpDeltaSecs (tick (hours 24) boot beforeStep).lastSample (setBack 10) = some (-10) := by decide
  refine ⟨?_,reports_iff.mpr short,?_⟩
  · intro kept
    obtain ⟨seconds,reported⟩ := kept.caught (by decide)
    have detected := reported.detected
    rw [silent] at detected
    cases detected
  · intro kept
    exact absurd (kept.close _ (reports_iff.mpr short)) (by decide)

end EvoCore.Time
