import EvoCore.Runs

namespace EvoCore.Time
open Runs

-- Wall-clock readings are nanoseconds since the epoch, monotonic readings and durations nanoseconds.
inductive TimeTrust where
  | untrusted
  | trusted (lastSyncAt : Int)
  | stale (lastSyncAt : Int)
  | adjusting (lastSyncAt : Int)
  deriving DecidableEq,Repr

def TimeTrust.asStr : TimeTrust → String
  | .untrusted => "untrusted"
  | .trusted _ => "trusted"
  | .stale _ => "stale"
  | .adjusting _ => "adjusting"

def TimeTrust.isStrict : TimeTrust → Bool
  | .trusted _ => true
  | _ => false

structure KernelClockStatus where
  now : Int
  synced : Bool
  deriving DecidableEq,Repr

-- What one tick reads from outside, in the order in which it reads it, and whether the bus took its happenings.
structure Poll where
  status : Option KernelClockStatus
  nowMonotonic : Nat
  wallNow : Int
  overrideFile : Option Bool
  forceUnsynced : Bool
  forceSynced : Bool
  computedAt : Int
  changedAt : Int
  changeEmitted : Bool
  jumpAt : Int
  jumpEmitted : Bool
  deriving DecidableEq,Repr

structure LastClockStep where
  deltaSeconds : Int64
  atMs : Nat
  deriving DecidableEq,Repr

inductive Happening where
  | clockTrustChanged (source target : String) (at_ : Int)
  | clockAdjusted (deltaSeconds : Int64) (at_ : Int)
  deriving DecidableEq,Repr

structure Tracker where
  shared : TimeTrust
  lastStep : Option LastClockStep
  happenings : List Happening
  lastObservedSyncedAt : Option Int
  lastSample : Option (Nat × Int)
  deriving DecidableEq,Repr

def clockJumpThresholdSecs : Int64 := 2

def asSecs (duration : Nat) : Int64 := Int64.ofNat (duration/10^9)

def Poll.kernelNow (poll : Poll) : Int := (poll.status.map (·.now)).getD poll.wallNow

def drift (prevMono : Nat) (prevWall : Int) (poll : Poll) : Int64 :=
  if prevWall ≤ poll.kernelNow then
    asSecs (poll.kernelNow-prevWall).toNat-asSecs (poll.nowMonotonic-prevMono)
  else
    -asSecs (prevWall-poll.kernelNow).toNat

def clockJumpDeltaSecs (lastSample : Option (Nat × Int)) (poll : Poll) : Option Int64 :=
  match lastSample with
  | none => none
  | some (prevMono,prevWall) =>
    if clockJumpThresholdSecs < (drift prevMono prevWall poll).abs then some (drift prevMono prevWall poll) else none

def Poll.syncedNow (poll : Poll) : Bool :=
  match poll.overrideFile with
  | some directive => directive
  | none =>
    if poll.forceUnsynced then false
    else if poll.forceSynced then true
    else (poll.status.map (·.synced)).getD false

-- A wall clock behind the last synced observation counts as no time at all.
def elapsed (now at_ : Int) : Nat := (now-at_).toNat

def computeState (syncedNow : Bool) (lastObservedSyncedAt : Option Int) (maxAcceptableStaleness : Nat)
    (clockJumpDetected : Bool) (now : Int) : TimeTrust :=
  match syncedNow,lastObservedSyncedAt,clockJumpDetected with
  | _,some at_,true => .adjusting at_
  | _,none,true => .untrusted
  | true,some at_,false => .trusted at_
  | false,some at_,false => if maxAcceptableStaleness < elapsed now at_ then .stale at_ else .trusted at_
  | _,none,false => .untrusted

def observed (tracker : Tracker) (poll : Poll) : Option Int :=
  if poll.syncedNow then some poll.wallNow else tracker.lastObservedSyncedAt

def newState (maxAcceptableStaleness : Nat) (tracker : Tracker) (poll : Poll) : TimeTrust :=
  computeState poll.syncedNow (observed tracker poll) maxAcceptableStaleness
    (clockJumpDeltaSecs tracker.lastSample poll).isSome poll.computedAt

def emitChange (prev new : TimeTrust) (poll : Poll) : List Happening :=
  if prev.asStr ≠ new.asStr ∧ poll.changeEmitted then [.clockTrustChanged prev.asStr new.asStr poll.changedAt] else []

def emitJump (delta : Option Int64) (poll : Poll) : List Happening :=
  match delta with
  | none => []
  | some seconds => if poll.jumpEmitted then [.clockAdjusted seconds poll.jumpAt] else []

def tick (maxAcceptableStaleness : Nat) (tracker : Tracker) (poll : Poll) : Tracker :=
  let delta := clockJumpDeltaSecs tracker.lastSample poll
  let new := newState maxAcceptableStaleness tracker poll
  { shared := new
    lastStep := (delta.map fun seconds => ⟨seconds,poll.jumpAt.toNat/10^6 % 2^64⟩).or tracker.lastStep
    happenings := tracker.happenings++emitChange tracker.shared new poll++emitJump delta poll
    lastObservedSyncedAt := observed tracker poll
    lastSample := some (poll.nowMonotonic,poll.kernelNow) }

def boot : Tracker := ⟨.untrusted,none,[],none,none⟩

-- The tracker beside what it does not keep: the monotonic time of its last tick and of
-- every tick that observed synced, newest first.
structure Timeline where
  tracker : Tracker
  clock : Nat
  syncedTicks : List Nat
  deriving DecidableEq,Repr

def start : Timeline := ⟨boot,0,[]⟩

def step (maxAcceptableStaleness : Nat) (s : Timeline) (poll : Poll) : Timeline :=
  { tracker := tick maxAcceptableStaleness s.tracker poll
    clock := poll.nowMonotonic
    syncedTicks := if poll.syncedNow then poll.nowMonotonic::s.syncedTicks else s.syncedTicks }

def Recent (maxAcceptableStaleness : Nat) (s : Timeline) : Prop :=
  s.tracker.shared.isStrict = true → ∃ m ∈ s.syncedTicks,m ≤ s.clock ∧ s.clock-m ≤ maxAcceptableStaleness

-- The readings of `Instant::now` never decrease.
def Monotonic (s : Timeline) (poll : Poll) : Prop := s.clock ≤ poll.nowMonotonic

-- Once the tolerance has passed since the last synced tick, so it has on the wall clock.
def WallKeepsUp (maxAcceptableStaleness : Nat) (s : Timeline) (poll : Poll) : Prop :=
  poll.syncedNow = true ∨ (clockJumpDeltaSecs s.tracker.lastSample poll).isSome = true ∨
    ∀ m ∈ s.syncedTicks.head?,∀ at_ ∈ s.tracker.lastObservedSyncedAt,
      maxAcceptableStaleness < poll.nowMonotonic-m → maxAcceptableStaleness < elapsed poll.computedAt at_

instance : Decidable (Monotonic s poll) := inferInstanceAs (Decidable (_ ≤ _))
instance : Decidable (WallKeepsUp limit s poll) := inferInstanceAs (Decidable (_ ∨ _))
instance : Decidable (Recent limit s) := inferInstanceAs (Decidable (_ → _))

-- The newest synced tick is the first of the list, and the tracker remembers one exactly when there is one.
structure Kept (limit : Nat) (s : Timeline) : Prop where
  recent : Recent limit s
  past : ∀ m ∈ s.syncedTicks,m ≤ s.clock
  ordered : s.syncedTicks.Pairwise (fun newer older => older ≤ newer)
  remembered : s.tracker.lastObservedSyncedAt.isSome = s.syncedTicks.head?.isSome

theorem start_kept : Kept limit start := by
  constructor
  case recent => intro strict; cases strict
  case past => intro m present; cases present
  case ordered => exact .nil
  case remembered => rfl

theorem computeState_strict : (computeState synced at? limit jumped now).isStrict = true ↔
    jumped = false ∧ ∃ at_,at? = some at_ ∧ (synced = true ∨ elapsed now at_ ≤ limit) := by
  cases jumped <;> cases at? <;> cases synced <;> simp [computeState,TimeTrust.isStrict]
  rename_i at_
  by_cases late : limit < elapsed now at_
  · simp [late]
  · simp [late,Nat.le_of_not_lt late]

theorem recent_newest {newest clock limit : Nat} (ordered : (newest::older).Pairwise (fun newer older => older ≤ newer)) (past : newest ≤ clock) :
    (∃ m ∈ newest::older,m ≤ clock ∧ clock-m ≤ limit) ↔ clock-newest ≤ limit := by
  constructor
  · intro recent
    obtain ⟨m,present,_,within⟩ := recent
    have bound : m ≤ newest := by
      cases present with
      | head => exact Nat.le_refl _
      | tail _ earlier => exact List.rel_of_pairwise_cons ordered earlier
    omega
  · intro within
    exact ⟨newest,List.mem_cons_self,past,within⟩

theorem step_synced (synced : poll.syncedNow = true) : Recent limit (step limit s poll) := by
  intro _
  refine ⟨poll.nowMonotonic,?_,Nat.le_refl _,?_⟩
  · simp [step,synced]
  · simp [step]

theorem step_jumped (jumped : (clockJumpDeltaSecs s.tracker.lastSample poll).isSome = true) : Recent limit (step limit s poll) := by
  intro strict
  have unjumped := (computeState_strict.mp strict).1
  rw [jumped] at unjumped
  cases unjumped

theorem step_exact (kept : Kept limit s) (forward : Monotonic s poll) :
    Recent limit (step limit s poll) ↔ WallKeepsUp limit s poll := by
  by_cases synced : poll.syncedNow = true
  · exact iff_of_true (step_synced synced) (.inl synced)
  by_cases jumped : (clockJumpDeltaSecs s.tracker.lastSample poll).isSome = true
  · exact iff_of_true (step_jumped jumped) (.inr (.inl jumped))
  have unsynced := Bool.not_eq_true _ ▸ synced
  have calm := Bool.not_eq_true _ ▸ jumped
  have remembered := kept.remembered
  have ordered := kept.ordered
  have past := kept.past
  have strict : (step limit s poll).tracker.shared.isStrict = true ↔
      ∃ at_,s.tracker.lastObservedSyncedAt = some at_ ∧ elapsed poll.computedAt at_ ≤ limit := by
    simp [step,tick,newState,computeState_strict,observed,unsynced,calm]
  simp only [Recent,strict,WallKeepsUp,unsynced,calm,Bool.false_eq_true,false_or]
  simp only [step,unsynced,Bool.false_eq_true,if_false]
  cases there : s.syncedTicks with
  | nil =>
    rw [there] at remembered
    have forgotten := Option.not_isSome_iff_eq_none.mp (by rw [remembered]; decide)
    simp [forgotten]
  | cons newest older =>
    rw [there] at remembered ordered past
    obtain ⟨at_,known⟩ := Option.isSome_iff_exists.mp remembered
    have reached : newest ≤ poll.nowMonotonic := Nat.le_trans (past newest List.mem_cons_self) forward
    rw [recent_newest ordered reached]
    simp only [known,Option.some.injEq,List.head?_cons,Option.mem_def,forall_eq',exists_eq_left']
    omega

theorem step_kept (kept : Kept limit s) (forward : Monotonic s poll) (recent : Recent limit (step limit s poll)) :
    Kept limit (step limit s poll) := by
  have past : ∀ m ∈ s.syncedTicks,m ≤ poll.nowMonotonic :=
    fun m present => Nat.le_trans (kept.past m present) forward
  constructor
  case recent => exact recent
  case past =>
    intro m present
    simp only [step] at present ⊢
    split at present
    · cases present with
      | head => exact Nat.le_refl _
      | tail _ earlier => exact past m earlier
    · exact past m present
  case ordered =>
    simp only [step]
    split
    · exact .cons past kept.ordered
    · exact kept.ordered
  case remembered =>
    simp only [step,tick,observed]
    split
    · rfl
    · exact kept.remembered

theorem trusted_recent (limit : Nat) (polls : List Poll) (forward : Guarded (step limit) Monotonic start polls) :
    Throughout (step limit) (Recent limit) start polls ↔ Guarded (step limit) (WallKeepsUp limit) start polls := by
  apply throughout_within Monotonic (Kept limit) (fun _ kept => kept.recent)
  · exact fun s poll kept onward met => step_kept kept onward ((step_exact kept onward).mpr met)
  · exact fun s poll kept onward recent => (step_exact kept onward).mp recent
  · exact start_kept
  · exact forward

def hours (n : Nat) : Nat := n*3600*10^9

def kernelPoll (synced : Bool) (nowMonotonic : Nat) (wall : Int) : Poll :=
  ⟨some ⟨wall,synced⟩,nowMonotonic,wall,none,false,false,wall,wall,true,wall,true⟩

-- An undisturbed clock that loses its source: trusted for a day, then stale.
def unsyncedDay : List Poll :=
  [kernelPoll true 0 (hours 1000),kernelPoll false (hours 20) (hours 1020),kernelPoll false (hours 30) (hours 1030)]

theorem unsyncedDay_recent : (run (step (hours 24)) start (unsyncedDay.take 2)).tracker.shared = .trusted (hours 1000) ∧
    (run (step (hours 24)) start unsyncedDay).tracker.shared = .stale (hours 1000) ∧
    Throughout (step (hours 24)) (Recent (hours 24)) start unsyncedDay :=
  ⟨by decide,by decide,(trusted_recent _ _ (by decide)).mpr (by decide)⟩

-- The clock steps back two days; the transient passes and the last sync lies in the future.
def steppedBack : List Poll :=
  [kernelPoll true 0 (hours 1000),kernelPoll false (hours 1) (hours 953),kernelPoll false (hours 30) (hours 982)]

theorem steppedBack_trusted : Guarded (step (hours 24)) Monotonic start steppedBack ∧
    (run (step (hours 24)) start steppedBack).tracker.shared = .trusted (hours 1000) ∧
    ¬Recent (hours 24) (run (step (hours 24)) start steppedBack) :=
  ⟨by decide,by decide,by decide⟩

end EvoCore.Time
