import EvoCore.GroupStore
import EvoCore.PlanEngine

namespace EvoCore.Wizard
open Runs Plans
open Groups (trim)
open PlanEngine (PlanTerminalOutcome)

-- The runtime of crates/evo/src/plans/wizard.rs: its calls beside each other, each of them one lock, one
-- read or one write of the state row at a time.
inductive ConsentDecision where
  | accepted
  | declined
  | withdrawn
deriving DecidableEq,Repr

structure ConsentEntry where
  consentId : String
  documentHash : String
  decision : ConsentDecision
  decidedAtMs : Nat
  userId : Option String
deriving DecidableEq,Repr

inductive WizardConsentError where
  | missingField (field : String)
  | ledger
deriving DecidableEq,Repr

inductive WizardRuntimeError where
  | persistence
  | consent (error : WizardConsentError)
deriving DecidableEq,Repr

-- `appended` says whether the ledger takes the entry.
def recordWizardConsent (ledger : List ConsentEntry) (consentId documentHash : String) (decision : ConsentDecision)
    (decidedAtMs : Nat) (userId : Option String) (appended : Bool) : Except WizardConsentError (List ConsentEntry) :=
  if trim consentId = "" then .error (.missingField "consent_id")
  else if trim documentHash = "" then .error (.missingField "document_hash")
  else if appended then .ok (ledger ++ [⟨trim consentId,trim documentHash,decision,decidedAtMs,userId⟩])
  else .error .ledger

structure PersistedWizardState where
  firstBootComplete : Bool
  lastCompletedStepId : Option String
  wizardPlanId : Option PlanId
  startedAtMs : Option Nat
  completedAtMs : Option Nat
  updatedAtMs : Nat
deriving DecidableEq,Repr

structure WizardRuntimeState where
  activePlan : Option PlanId
  startedAtMs : Option Nat
  lastCompletedStepId : Option String
deriving DecidableEq,Repr

inductive WizardStepCompletion where
  | plainStep
  | consent (consentId documentHash : String) (decision : ConsentDecision) (userId : Option String)
deriving DecidableEq,Repr

inductive Request where
  | start (planId : PlanId)
  | recordStepCompletion (stepId : String) (completion : WizardStepCompletion)
  | onTerminal (planId : PlanId) (outcome : PlanTerminalOutcome)
deriving DecidableEq,Repr

-- Where a call stands: `loaded` and `consented` wait for the lock, the three after them are the task that
-- a terminal spawns. No code reads the turn, the number of the update that made the row.
inductive Phase where
  | called
  | loaded (prior : Option PersistedWizardState)
  | consented
  | observing
  | reading
  | completing
  | writing (row : PersistedWizardState) (turn : Nat)
  | returned (result : Except WizardRuntimeError Unit)
deriving DecidableEq

structure Call where
  request : Request
  phase : Phase
deriving DecidableEq

-- The rows of the store in the order in which they were written, after the one of the boot before, and the
-- rows in the order in which the updates made them; either with the call it is from.
structure World where
  state : WizardRuntimeState
  boot : Option PersistedWizardState
  written : List (Nat × PersistedWizardState)
  made : List (Nat × PersistedWizardState)
  ledger : List ConsentEntry
  calls : List Call

def World.fresh (planId : PlanId) (boot : Option PersistedWizardState) : World :=
  ⟨⟨none,none,none⟩,boot,[],[],[],[⟨.start planId,.called⟩]⟩

namespace World
variable (w : World)

def loadWizardState : Option PersistedWizardState := (w.written.getLast?.map (·.2)).or w.boot

def moveTo (j : Nat) (phase : Phase) : World := {w with calls := w.calls.modify j ({· with phase := phase})}

-- What the lock is held for: the new state, and the row that is written when it is free again.
def update (j : Nat) (state : WizardRuntimeState) (row : PersistedWizardState) : World :=
  {w.moveTo j (.writing row w.made.length) with state := state,made := w.made ++ [(j,row)]}

def start (j nowMs : Nat) (planId : PlanId) (prior : Option PersistedWizardState) : World :=
  let startedAtMs := (prior.bind (·.startedAtMs)).getD nowMs
  let lastCompletedStepId := prior.bind (·.lastCompletedStepId)
  w.update j ⟨some planId,some startedAtMs,lastCompletedStepId⟩
    ⟨false,lastCompletedStepId,some planId,some startedAtMs,none,nowMs⟩

def recordStepCompletion (j nowMs : Nat) (stepId : String) : World :=
  w.update j {w.state with lastCompletedStepId := some stepId}
    ⟨false,some stepId,w.state.activePlan,w.state.startedAtMs,none,nowMs⟩

def isActivePlan (planId : PlanId) : Bool := w.state.activePlan = some planId

def complete (j nowMs : Nat) : World :=
  w.update j {w.state with activePlan := none}
    ⟨true,w.state.lastCompletedStepId,w.state.activePlan,w.state.startedAtMs,some nowMs,nowMs⟩

-- `ok` is the outcome of a read of the row and of an append to the ledger; a failed read of a terminal's
-- task does not keep it from completing.
def enter (j nowMs : Nat) (ok : Bool) : Request → World
  | .start _ => w.moveTo j (if ok then .loaded w.loadWizardState else .returned (.error .persistence))
  | .recordStepCompletion _ .plainStep => w.moveTo j .consented
  | .recordStepCompletion _ (.consent consentId documentHash decision userId) =>
    match recordWizardConsent w.ledger consentId documentHash decision nowMs userId ok with
    | .error e => w.moveTo j (.returned (.error (.consent e)))
    | .ok ledger => {w.moveTo j .consented with ledger := ledger}
  | .onTerminal _ outcome => w.moveTo j (if outcome = .completed then .observing else .returned (.ok ()))

def advance (j nowMs : Nat) (ok : Bool) : World :=
  match w.calls[j]? with
  | none => w
  | some call =>
    match call.phase with
    | .called => w.enter j nowMs ok call.request
    | .loaded prior =>
      match call.request with
      | .start planId => w.start j nowMs planId prior
      | _ => w
    | .consented =>
      match call.request with
      | .recordStepCompletion stepId _ => w.recordStepCompletion j nowMs stepId
      | _ => w
    | .observing =>
      match call.request with
      | .onTerminal planId _ => w.moveTo j (if w.isActivePlan planId then .reading else .returned (.ok ()))
      | _ => w
    | .reading =>
      w.moveTo j (if ok && w.loadWizardState.any (·.firstBootComplete) then .returned (.ok ()) else .completing)
    | .completing => w.complete j nowMs
    | .writing row _ => {w.moveTo j (.returned (.ok ())) with written := w.written ++ [(j,row)]}
    | .returned _ => w

end World

-- One start, as many step completions and terminals as there are.
inductive Event where
  | recordStepCompletion (stepId : String) (completion : WizardStepCompletion)
  | onTerminal (planId : PlanId) (outcome : PlanTerminalOutcome)
  | advance (j nowMs : Nat) (ok : Bool)
deriving DecidableEq

def World.step (w : World) : Event → World
  | .recordStepCompletion stepId completion => {w with calls := w.calls ++ [⟨.recordStepCompletion stepId completion,.called⟩]}
  | .onTerminal planId outcome => {w with calls := w.calls ++ [⟨.onTerminal planId outcome,.called⟩]}
  | .advance j nowMs ok => w.advance j nowMs ok

def Phase.finished : Phase → Bool
  | .returned _ => true
  | _ => false

def World.started (w : World) : Bool := (w.calls[0]?).any fun call =>
  match call.phase with
  | .writing .. => true
  | .returned (.ok ()) => true
  | _ => false

-- No row behind a complete one is incomplete; a complete row is from a completed terminal of the plan that
-- the start made the active one; and when no call is under way the row has the step that the state has.
structure Finished (planId : PlanId) (w : World) : Prop where
  stays : (w.boot.toList ++ w.written.map (·.2)).Pairwise fun earlier later => earlier.firstBootComplete → later.firstBootComplete
  earned : ∀ (j : Nat) (row : PersistedWizardState),(j,row) ∈ w.written → row.firstBootComplete →
    w.started ∧ ∃ call,w.calls[j]? = some call ∧ call.request = .onTerminal planId .completed
  mirrored : (∀ call ∈ w.calls,call.phase.finished) →
    w.loadWizardState.bind (·.lastCompletedStepId) = w.state.lastCompletedStepId

def World.finishing (w : World) : Bool := w.loadWizardState.any (·.firstBootComplete) || w.calls.any fun call =>
  match call.phase with
  | .writing row _ => row.firstBootComplete
  | _ => false

def World.turnOf (call : Call) : Option Nat :=
  match call.phase with
  | .writing _ turn => some turn
  | _ => none

-- A row is written when no row of an earlier update waits to be; no step is recorded, and nothing started,
-- once the wizard finishes; and the start can read the row.
def World.orderly (w : World) : Event → Bool
  | .advance j _ ok => (w.calls[j]?).all fun call =>
    match call.phase with
    | .called =>
      match call.request with
      | .start _ => ok
      | _ => true
    | .loaded _ => !w.finishing
    | .consented => !w.finishing
    | .writing _ turn => w.calls.all fun other => (turnOf other).all (turn ≤ ·)
    | _ => true
  | _ => true

end EvoCore.Wizard
