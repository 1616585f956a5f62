import EvoCore.DomainProjection
import EvoCore.Runs
import EvoCore.Tables

namespace EvoCore.Presence
open DomainProjection Runs Tables

-- crates/evo/src/domain_witness/presence.rs. Durations and instants are numbers of milliseconds.
inductive PresenceState where
  | live
  | quiet
  | stalled
  | absent
  | discarded
deriving DecidableEq,Repr

def PresenceState.asStr : PresenceState → String
  | .live => "live"
  | .quiet => "quiet"
  | .stalled => "stalled"
  | .absent => "absent"
  | .discarded => "discarded"

structure PeerPresence where
  deviceId : String
  state : PresenceState
  lastAnnounceAtMs : Option Nat
  lastTransitionAtMs : Nat
deriving DecidableEq,Repr

structure PresenceCorrelatorConfig where
  quietThreshold : Nat
  stalledThreshold : Nat
  absentThreshold : Nat
  massEventWindow : Nat
  massEventTrigger : Nat
deriving DecidableEq,Repr

def PresenceCorrelatorConfig.default : PresenceCorrelatorConfig := ⟨2000,5000,30000,5000,3⟩

inductive Happening where
  | peerPresenceChanged (peerDeviceId oldState newState : String)
  | presenceMassEventDetected (affectedPeerIds : List String) (eventKindHint : String)
deriving DecidableEq,Repr

structure Transition where
  deviceId : String
  old : PresenceState
  new : PresenceState
deriving DecidableEq,Repr

-- A call of evaluate_transitions that has left its lock, with what it has not emitted yet.
structure Evaluation where
  transitions : List Transition
  newlyAbsent : List String
deriving DecidableEq,Repr

-- The calls of evaluate_transitions stand in the order of their locks; a call of reconcile_with_chain waits
-- for the lock with the projection it has read. No code reads whether one was called since the chain changed.
structure Correlator where
  config : PresenceCorrelatorConfig
  projection : DomainStateView
  peers : Table String PeerPresence
  recentAbsentTransitions : List (String × Nat)
  reconciling : List DomainStateView
  evaluations : List Evaluation
  happenings : List Happening
  behind : Bool

def Correlator.new (config : PresenceCorrelatorConfig) (projection : DomainStateView) : Correlator :=
  ⟨config,projection,∅,[],[],[],[],true⟩

-- as_millis() as u64
def asU64 (ms : Nat) : Nat := ms % 2^64

def PresenceCorrelatorConfig.stateAfter (config : PresenceCorrelatorConfig) (nowMs : Nat) (presence : PeerPresence) : PresenceState :=
  let lastSeenMs := presence.lastAnnounceAtMs.getD 0
  let elapsedMs := nowMs - lastSeenMs
  if lastSeenMs = 0 ∨ asU64 config.absentThreshold < elapsedMs then .absent
  else if asU64 config.stalledThreshold < elapsedMs then .stalled
  else if asU64 config.quietThreshold < elapsedMs then .quiet
  else .live

-- The state the timer gives a peer; a discarded one is passed over.
def PresenceCorrelatorConfig.evaluated (config : PresenceCorrelatorConfig) (nowMs : Nat) (presence : PeerPresence) : PresenceState :=
  if presence.state = .discarded then .discarded else config.stateAfter nowMs presence

namespace Correlator
variable (w : Correlator)

def emitPresenceChanged (deviceId old new : String) : Correlator :=
  {w with happenings := w.happenings ++ [Happening.peerPresenceChanged deviceId old new]}

-- Shared by both writers that emit under the lock.
def setPresence (deviceId : String) (presence : PeerPresence) : Correlator :=
  let prevState := (get w.peers deviceId).map (·.state)
  let inserted := {w with peers := w.peers.insert deviceId presence}
  if prevState = some presence.state then inserted
  else inserted.emitPresenceChanged deviceId ((prevState.map (·.asStr)).getD "absent") presence.state.asStr

end Correlator

def reconciled (existing : Option PeerPresence) (deviceId : String) (trust : TrustState) (nowMs : Nat) : PeerPresence :=
  let newState :=
    match trust with
    | .discarded => .discarded
    | .admitted => (existing.map (·.state)).getD .absent
  ⟨deviceId,newState,existing.bind (·.lastAnnounceAtMs),nowMs⟩

def announced (trust : TrustState) (deviceId : String) (nowMs : Nat) : PeerPresence :=
  ⟨deviceId,if trust = .discarded then .discarded else .live,some nowMs,nowMs⟩

namespace Correlator
variable (w : Correlator)

def reconcileRow (nowMs : String → Nat) (row : String × TrustProjection) : Correlator :=
  w.setPresence row.1 (reconciled (get w.peers row.1) row.1 row.2.state (nowMs row.1))

-- The loop under the lock; every row reads the clock.
def reconcileWithChain (view : DomainStateView) (nowMs : String → Nat) : Correlator :=
  view.trust.toList.foldl (fun w row => w.reconcileRow nowMs row) w

def trustOf (deviceId : String) : TrustState := ((w.projection.trust[deviceId]?).map (·.state)).getD .admitted

def observeAnnounce (deviceId : String) (nowMs : Nat) : Correlator :=
  w.setPresence deviceId (announced (w.trustOf deviceId) deviceId nowMs)

def transitionsAt (nowMs : Nat) : List Transition :=
  w.peers.entries.filterMap fun e =>
    if w.config.evaluated nowMs e.2 = e.2.state then none else some ⟨e.1,e.2.state,w.config.evaluated nowMs e.2⟩

def evaluateTransitions (nowMs nowInstant : Nat) : Correlator :=
  let transitions := w.transitionsAt nowMs
  let newlyAbsent := (transitions.filter fun t => t.new = .absent).map (·.deviceId)
  {w with
    peers := mapValues w.peers fun p =>
      if w.config.evaluated nowMs p = p.state then p
      else {p with state := w.config.evaluated nowMs p,lastTransitionAtMs := nowMs}
    recentAbsentTransitions :=
      w.recentAbsentTransitions.filter (fun e => nowInstant - e.2 ≤ w.config.massEventWindow) ++ newlyAbsent.map (·,nowInstant)
    evaluations := w.evaluations ++ [⟨transitions,newlyAbsent⟩]}

def checkMassEvent (newlyAbsent : List String) : Correlator :=
  if newlyAbsent = [] then w
  else if w.config.massEventTrigger ≤ w.recentAbsentTransitions.length then
    {w with happenings := w.happenings ++ [Happening.presenceMassEventDetected (w.recentAbsentTransitions.map (·.1)) "unknown"]}
  else w

-- The next emission of a call of evaluate_transitions, and the check at its end.
def publish (i : Nat) : Correlator :=
  match w.evaluations[i]? with
  | none => w
  | some ⟨[],newlyAbsent⟩ => {w with evaluations := w.evaluations.eraseIdx i}.checkMassEvent newlyAbsent
  | some ⟨t::rest,newlyAbsent⟩ =>
    {w with evaluations := w.evaluations.set i ⟨rest,newlyAbsent⟩}.emitPresenceChanged t.deviceId t.old.asStr t.new.asStr

end Correlator

-- The chain's projection becomes another one; a reconcile reads it and takes the lock later.
inductive Event where
  | chain (projection : DomainStateView)
  | reconcile
  | reconcileLock (i : Nat) (nowMs : String → Nat)
  | announce (deviceId : String) (nowMs : Nat)
  | evaluate (nowMs nowInstant : Nat)
  | publish (i : Nat)

def Correlator.step (w : Correlator) : Event → Correlator
  | .chain projection => {w with projection := projection,behind := true}
  | .reconcile => {w with reconciling := w.reconciling ++ [w.projection],behind := false}
  | .reconcileLock i nowMs =>
    match w.reconciling[i]? with
    | none => w
    | some view => {w with reconciling := w.reconciling.eraseIdx i}.reconcileWithChain view nowMs
  | .announce deviceId nowMs => w.observeAnnounce deviceId nowMs
  | .evaluate nowMs nowInstant => w.evaluateTransitions nowMs nowInstant
  | .publish i => w.publish i

def Discarded (view : DomainStateView) (deviceId : String) : Prop := (view.trust[deviceId]?).map (·.state) = some .discarded

instance discardedDecidable (view : DomainStateView) (deviceId : String) : Decidable (Discarded view deviceId) :=
  inferInstanceAs (Decidable ((view.trust[deviceId]?).map (·.state) = some .discarded))

def Correlator.shown (w : Correlator) (deviceId : String) : Option PresenceState := (get w.peers deviceId).map (·.state)
def Correlator.current (w : Correlator) (deviceId : String) : String := ((w.shown deviceId).map (·.asStr)).getD "absent"

def Happening.changeOf (deviceId : String) : Happening → Option (String × String)
  | .peerPresenceChanged peer old new => if peer = deviceId then some (old,new) else none
  | .presenceMassEventDetected .. => none

def Correlator.changes (w : Correlator) (deviceId : String) : List (String × String) := w.happenings.filterMap (·.changeOf deviceId)

def Transition.changeOf (deviceId : String) (t : Transition) : Option (String × String) :=
  if t.deviceId = deviceId then some (t.old.asStr,t.new.asStr) else none

def changesIn (evaluations : List Evaluation) (deviceId : String) : List (String × String) :=
  (evaluations.flatMap (·.transitions)).filterMap (·.changeOf deviceId)

def Correlator.unpublished (w : Correlator) (deviceId : String) : List (String × String) := changesIn w.evaluations deviceId

-- Each change begins where the one before it ends.
def Trail : String → List (String × String) → String → Prop
  | origin,[],final => origin = final
  | origin,change::rest,final => change.1 = origin ∧ Trail change.2 rest final

-- With the chain's changes reconciled and no call under way.
def Agrees (w : Correlator) : Prop := w.behind = false → w.reconciling = [] →
  ∀ deviceId,w.shown deviceId = some .discarded ↔ Discarded w.projection deviceId

def Chained (w : Correlator) : Prop := ∀ deviceId,(∃ final,Trail "absent" (w.changes deviceId) final) ∧
  (w.unpublished deviceId = [] → Trail "absent" (w.changes deviceId) (w.current deviceId))

def Stamped (w : Correlator) (event : Event) : Prop := ∀ (deviceId : String) (before after : PeerPresence),
  get w.peers deviceId = some before → get (w.step event).peers deviceId = some after →
    before.lastTransitionAtMs ≠ after.lastTransitionAtMs → before.state ≠ after.state

-- The rows a reconcile applies discard nobody who is not discarded now, and meet nobody shown as discarded who is not.
def UpToDate (w : Correlator) : Event → Prop
  | .reconcileLock i _ => ∀ view,w.reconciling[i]? = some view → ∀ deviceId,¬ Discarded w.projection deviceId →
      ¬ Discarded view deviceId ∧ w.shown deviceId ≠ some .discarded
  | _ => True

-- A change is emitted when none of the same peer seen before it waits to be.
def InOrder (w : Correlator) : Event → Prop
  | .reconcileLock i _ => ∀ view,w.reconciling[i]? = some view → ∀ (deviceId : String) (row : TrustProjection),view.trust[deviceId]? = some row →
      w.shown deviceId ≠ some (reconciled (get w.peers deviceId) deviceId row.state 0).state → w.unpublished deviceId = []
  | .announce deviceId _ => w.shown deviceId ≠ some (announced (w.trustOf deviceId) deviceId 0).state → w.unpublished deviceId = []
  | .publish i => ∀ (t : Transition) (rest : List Transition) (newlyAbsent : List String),w.evaluations[i]? = some ⟨t::rest,newlyAbsent⟩ →
      changesIn (w.evaluations.take i) t.deviceId = []
  | _ => True

-- A row that is written again is of another state or of the same millisecond.
def Anew (w : Correlator) : Event → Prop
  | .reconcileLock i nowMs => ∀ view,w.reconciling[i]? = some view → ∀ (deviceId : String) (row : TrustProjection) (p : PeerPresence),
      view.trust[deviceId]? = some row → get w.peers deviceId = some p →
        (row.state = .discarded ∧ p.state ≠ .discarded) ∨ p.lastTransitionAtMs = nowMs deviceId
  | .announce deviceId nowMs => ∀ p,get w.peers deviceId = some p →
      p.state ≠ (if w.trustOf deviceId = .discarded then .discarded else .live) ∨ p.lastTransitionAtMs = nowMs
  | _ => True

end EvoCore.Presence
