import EvoCore.PlanEngine
import EvoCore.PlanSchema

namespace EvoCore.SegmentWaiters
open Runs Tables Plans
open PlanEngine (ExecutionState otherRunning shouldExitExecution)
open PlanSchema (rsplitOnce rsplitOnce_last)

-- The waits of crates/evo/src/plans/engine.rs for the end of a segment: execution tasks, stops, watches
-- and the wake-ups under way beside each other, each of them one lock at a time.
def segmentEndWatchId (planId : PlanId) (segmentIdx : Nat) : String := planId ++ "." ++ segmentIdx.repr

def parseUsize (text : List Char) : Option Nat :=
  let digits := if text.head? = some '+' then text.tail else text
  if digits = [] then none
  else if digits.all Char.isDigit then
    let value := Nat.ofDigitChars 10 digits 0
    if value < 2^64 then some value else none
  else none

def parseSegmentEndWatchId (watchId : String) : Option (PlanId × Nat) :=
  match rsplitOnce '.' watchId.toList with
  | none => none
  | some (planId,idx) =>
    match PlanSchema.PlanId.new (String.ofList planId) with
    | .error _ => none
    | .ok planId => (parseUsize idx).map fun segmentIdx => (planId.value,segmentIdx)

-- The Notify that the task of this number made; no code reads the number.
structure Notify where
  serial : Nat
  run : Nat
deriving DecidableEq,Repr

-- Why a permit was given: a stop, or the watch of the task of this number.
inductive Cause where
  | stop
  | signal (run : Nat)
deriving DecidableEq,Repr

-- Wake-ups under way: wake_all_segment_end_waiters_for and signal_segment_end before their lookup, and
-- what either has found.
inductive Wake where
  | all (planId : PlanId)
  | signal (watchId : String) (run : Nat)
  | one (notify : Notify) (cause : Cause)
deriving DecidableEq,Repr

inductive Phase where
  | entering (idx : Nat)
  | dispatching (idx : Nat)
  | inserting (idx : Nat)
  | scheduling (idx : Nat) (notify : Notify)
  | awaiting (idx : Nat) (notify : Notify)
  | removing (idx : Nat) (notify : Notify) (watched : Bool)
  | unwatching (idx : Nat)
  | sleeping (idx : Nat)
  | checking (idx : Nat)
  | leaving
  | cancelling
  | completing
  | ended
deriving DecidableEq,Repr

-- No code reads whether the task has entered a segment.
structure Task where
  plan : Plan
  phase : Phase
  entered : Bool
deriving DecidableEq,Repr

inductive Fire where
  | checking (plan : Plan) (firedAtMs : Nat)
  | stamping (plan : Plan) (firedAtMs : Nat) (victim : PlanId) (segmentIdx : Nat)
  | spawning (plan : Plan)
  | returned
deriving DecidableEq,Repr

-- `watches` are the live segment-end watches with the task that scheduled them.
structure Engine where
  executionStates : Table PlanId ExecutionState
  fires : List Fire
  tasks : List Task
  waiters : Table (PlanId × Nat) Notify
  watches : Table String Nat
  permits : Table Notify Cause
  wakes : List Wake
  nextSerial : Nat

def Engine.start : Engine := ⟨∅,[],[],∅,∅,∅,[],0⟩

-- Where the task goes when the segments before `idx` are done. What a completion fires comes as a fire
-- like any other.
def planPhase (plan : Plan) (idx : Nat) : Phase :=
  if idx < plan.segments.length then .entering idx
  else match plan.onComplete with
    | .loop => .entering 0
    | _ => .completing

-- How wait_for_segment_end begins; `dispatched` says whether a source plugin took the segment.
def waitPhase (duration : SegmentDuration) (idx : Nat) (dispatched : Bool) : Phase :=
  match duration with
  | .duration _ => .sleeping idx
  | .untilTime _ => .sleeping idx
  | .untilEvent _ => .inserting idx
  | .untilCompletion => if dispatched then .inserting idx else .checking idx
  | .untilUserStop => if dispatched then .inserting idx else .checking idx

namespace Engine
variable (s : Engine)

def stopped (id : PlanId) : Bool := shouldExitExecution (get s.executionStates id)

def moveTo (j : Nat) (phase : Phase) : Engine := {s with tasks := s.tasks.modify j ({· with phase := phase})}

def setState (id : PlanId) (state : ExecutionState) : Engine := {s with executionStates := s.executionStates.insert id state}

-- A stop marks the plan, and its wake-up is on its way; here the fire that stops may go on before that.
def stop (id : PlanId) (state : ExecutionState) : Engine := {s.setState id state with wakes := s.wakes ++ [Wake.all id]}

def cancelPlan (id : PlanId) : Engine :=
  if (get s.executionStates id).any (·.isRunning) then s.stop id .cancelled else s

def firePlanInner (i : Nat) (first : PlanId) : Engine :=
  match s.fires[i]? with
  | some (.checking plan firedAtMs) =>
    if (get s.executionStates plan.id).any (·.isRunning) then {s with fires := s.fires.set i .returned}
    else match otherRunning s.executionStates plan.id first with
      | none => {s with fires := s.fires.set i (.spawning plan)}
      | some (victim,segmentIdx) =>
        if plan.preempt then {s with fires := s.fires.set i (.stamping plan firedAtMs victim segmentIdx)}
        else {s with fires := s.fires.set i .returned}
  | some (.stamping plan firedAtMs victim segmentIdx) =>
    {s.stop victim (.preempted segmentIdx plan.id firedAtMs) with fires := s.fires.set i (.spawning plan)}
  | some (.spawning plan) => {s with fires := s.fires.set i .returned,tasks := s.tasks ++ [⟨plan,planPhase plan 0,false⟩]}
  | _ => s

def enterSegment (j : Nat) (plan : Plan) (idx nowMs : Nat) (segment : PlanSegment) : Engine :=
  if get s.executionStates plan.id = some .cancelled then s.moveTo j .ended
  else {s.setState plan.id (.running idx nowMs (segment.duration.deadline nowMs)) with
    tasks := s.tasks.modify j fun task => {task with phase := .dispatching idx,entered := true}}

def insertWaiter (j : Nat) (planId : PlanId) (idx : Nat) : Engine :=
  {s.moveTo j (.scheduling idx ⟨s.nextSerial,j⟩) with
    waiters := s.waiters.insert (planId,idx) ⟨s.nextSerial,j⟩
    nextSerial := s.nextSerial + 1}

-- `outcome` says whether the dispatch found a plugin, and whether the watch could be scheduled.
def executePlan (j nowMs : Nat) (outcome : Bool) : Engine :=
  match s.tasks[j]? with
  | none => s
  | some task =>
    let id := task.plan.id
    match task.phase with
    | .entering idx =>
      match task.plan.segments[idx]? with
      | some segment => s.enterSegment j task.plan idx nowMs segment
      | none => s
    | .dispatching idx =>
      match task.plan.segments[idx]? with
      | some segment => s.moveTo j (waitPhase segment.duration idx outcome)
      | none => s
    | .inserting idx => s.insertWaiter j id idx
    | .scheduling idx notify =>
      if outcome then {s.moveTo j (.awaiting idx notify) with watches := s.watches.insert (segmentEndWatchId id idx) j}
      else s.moveTo j (.removing idx notify false)
    | .awaiting idx notify =>
      match get s.permits notify with
      | some _ => {s.moveTo j (.removing idx notify true) with permits := s.permits.erase notify}
      | none => s
    | .removing idx _ watched =>
      {s.moveTo j (if watched then .unwatching idx else .checking idx) with waiters := s.waiters.erase (id,idx)}
    | .unwatching idx => {s.moveTo j (.checking idx) with watches := s.watches.erase (segmentEndWatchId id idx)}
    | .sleeping idx => s.moveTo j (.checking idx)
    | .checking idx => if s.stopped id then s.moveTo j .leaving else s.moveTo j (planPhase task.plan (idx+1))
    | .leaving => if (get s.executionStates id).any (·.isPreempted) then s.moveTo j .ended else s.moveTo j .cancelling
    | .cancelling => (s.setState id .cancelled).moveTo j .ended
    | .completing => (s.setState id .completed).moveTo j .ended
    | .ended => s

-- notify_one: one permit at most is stored.
def notifyOne (notify : Notify) (cause : Cause) : Engine :=
  match get s.permits notify with
  | some _ => s
  | none => {s with permits := s.permits.insert notify cause}

def waitersOf (id : PlanId) : List Notify := (s.waiters.entries.filter fun e => e.1.1 = id).map (·.2)

def signalled (watchId : String) : Option Notify := (parseSegmentEndWatchId watchId).bind (get s.waiters ·)

def wakeOne (k : Nat) : Engine :=
  match s.wakes[k]? with
  | none => s
  | some (.all id) => {s with wakes := s.wakes.eraseIdx k ++ (s.waitersOf id).map (.one · .stop)}
  | some (.signal watchId run) => {s with wakes := s.wakes.eraseIdx k ++ (s.signalled watchId).toList.map (.one · (.signal run))}
  | some (.one notify cause) => {s with wakes := s.wakes.eraseIdx k}.notifyOne notify cause

end Engine

inductive EngineEvent where
  | firePlan (plan : Plan) (firedAtMs : Nat)
  | fireStep (i : Nat) (first : PlanId)
  | taskStep (j nowMs : Nat) (outcome : Bool)
  | cancelPlan (id : PlanId)
  | watchFires (watchId : String)
  | wakeStep (k : Nat)
deriving DecidableEq,Repr

def Engine.step (s : Engine) : EngineEvent → Engine
  | .firePlan plan firedAtMs => {s with fires := s.fires ++ [Fire.checking plan firedAtMs]}
  | .fireStep i first => s.firePlanInner i first
  | .taskStep j nowMs outcome => s.executePlan j nowMs outcome
  | .cancelPlan id => s.cancelPlan id
  | .watchFires watchId =>
    match get s.watches watchId with
    | some run => {s with wakes := s.wakes ++ [Wake.signal watchId run]}
    | none => s
  | .wakeStep k => s.wakeOne k

-- A task that awaits while its plan is stopped has a permit, or a wake-up that will give it one.
def NoneLost (s : Engine) : Prop := ∀ (j : Nat) (task : Task) (idx : Nat) (notify : Notify),s.tasks[j]? = some task →
  task.phase = .awaiting idx notify → s.stopped task.plan.id →
    (get s.permits notify).isSome ∨ (∃ cause,.one notify cause ∈ s.wakes) ∨
      (.all task.plan.id ∈ s.wakes ∧ get s.waiters (task.plan.id,idx) = some notify)

-- A segment that a signal ends is ended by the signal of its own run.
def OwnSignal (s : Engine) : EngineEvent → Prop
  | .taskStep j _ _ => ∀ (task : Task) (idx : Nat) (notify : Notify) (run : Nat),s.tasks[j]? = some task →
      task.phase = .awaiting idx notify → get s.permits notify = some (.signal run) → run = j
  | _ => True

def Phase.unlisted : Phase → Bool
  | .dispatching _ => true
  | .inserting _ => true
  | _ => false

-- The wake-up of a stop finds no stopped task between enter_segment and its waiter; a run starts when
-- the runs of its plan before it are over; and a waiter is inserted when no other run's signal for the
-- segment is under way.
def Orderly (s : Engine) : EngineEvent → Prop
  | .wakeStep k => ∀ id,s.wakes[k]? = some (.all id) → ∀ task ∈ s.tasks,task.plan.id = id → task.phase.unlisted → s.stopped id = false
  | .taskStep j _ _ => ∀ task,s.tasks[j]? = some task →
      match task.phase with
      | .entering _ => task.entered = false → get s.executionStates task.plan.id ≠ some .cancelled →
          ∀ other ∈ s.tasks,other.plan.id = task.plan.id → other.entered → other.phase = .ended
      | .inserting idx => ∀ run,.signal (segmentEndWatchId task.plan.id idx) run ∈ s.wakes → run = j
      | _ => True
  | _ => True

end EvoCore.SegmentWaiters
