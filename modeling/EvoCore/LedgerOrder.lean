import EvoCore.LedgerLinks

namespace EvoCore.Ledger.Order
open EvoCore.Ledger Runs Tables

-- Where a call stands. From the lock to the store's answer the floor is its own.
inductive Phase where
  | minting
  | seeding
  | seeded (last : UInt64)
  | writing (record : PersistedLedgerEntry)
  | linking
  | returned (result : Except LedgerError String)
  | dropped

-- `appended` once the row of the call is in the store.
structure Task where
  draft : Draft
  original : Option String
  phase : Phase
  appended : Bool

-- The entries outlive the process; the rest is the primitive's and its callers'.
structure Steward where
  entries : Entries
  floor : Floor
  lock : Option Nat
  tasks : List Task

structure Env where
  now : UInt64
  fails : Option PersistenceError

section
variable (backend : Backend) (crypto : CryptographicServices) (toJson : WithdrawalEntry → String)

def Steward.picks (s : Steward) (task : Task) (last now : UInt64) : Steward × Task :=
  let picked := pick s.floor task.draft.ledgerId last now
  ({ s with floor := picked.1,lock := none },{ task with phase := .writing (task.draft.record crypto picked.2) })

def Task.returns (task : Task) (result : Except LedgerError String) : Task := { task with phase := .returned result }

def advanceTask (s : Steward) (i : Nat) (task : Task) (env : Env) : Steward × Task :=
  match task.phase with
  | .minting =>
    if s.lock.isSome then (s,task)
    else
      match get s.floor task.draft.ledgerId with
      | some last => s.picks crypto task last env.now
      | none => ({ s with lock := some i },{ task with phase := .seeding })
  | .seeding =>
    match env.fails with
    | some error => ({ s with lock := none },task.returns (.error (.persistence error)))
    | none => (s,{ task with phase := .seeded (queryMaxCreatedAtMsForLedger backend s.entries task.draft.ledgerId) })
  | .seeded last => s.picks crypto task last env.now
  | .writing record =>
    match env.fails with
    | some error => (s,task.returns (.error (.persistence error)))
    | none =>
      match appendLedgerEntry backend s.entries record with
      | .error error => (s,task.returns (.error (.persistence error)))
      | .ok entries =>
        ({ s with entries },
          { task with phase := if task.original.isSome then .linking else .returned (.ok record.entryId),appended := true })
  | .linking =>
    match env.fails with
    | some error => (s,task.returns (.error (.persistence error)))
    | none =>
      match linkLedgerWithdrawal s.entries (task.original.getD "") task.draft.entryId with
      | .error error => (s,task.returns (.error (.persistence error)))
      | .ok entries => ({ s with entries },task.returns (.ok task.draft.entryId))
  | .returned _ | .dropped => (s,task)

def advance (s : Steward) (i : Nat) (env : Env) : Steward :=
  match s.tasks[i]? with
  | none => s
  | some task =>
    { (advanceTask backend crypto s i task env).1 with
      tasks := s.tasks.modify i fun _ => (advanceTask backend crypto s i task env).2 }

def begin (entryId ledgerId : String) (schemaVersion : UInt32) (payload subjectPlugin original : Option String) : Task :=
  let task (payloadJson : String) (phase : Phase) : Task :=
    ⟨⟨entryId,ledgerId,schemaVersion,payloadJson,subjectPlugin⟩,original,phase,false⟩
  if !isKnownLedgerId ledgerId then task "" (.returned (.error (.unknownLedgerId ledgerId)))
  else
    match payload with
    | none => task "" (.returned (.error .serialise))
    | some payloadJson => task payloadJson .minting

def open_ (entryId : String) (withdrawnAtMs : UInt64) : Call → Task
  | .appendConsent payload subjectPlugin => begin entryId ledgerConsent consentSchemaV1 payload subjectPlugin none
  | .appendTrust payload subjectPlugin => begin entryId ledgerTrust trustSchemaV1 payload subjectPlugin none
  | .appendAction payload subjectPlugin => begin entryId ledgerAction actionSchemaV1 payload subjectPlugin none
  | .appendLifecycle payload sourcePlugin => begin entryId ledgerLifecycle lifecycleSchemaV1 payload (some sourcePlugin) none
  | .withdraw ledgerId originalEntryId reason subjectPlugin =>
    begin entryId ledgerId withdrawalSchemaV1 (some (toJson ⟨originalEntryId,reason,withdrawnAtMs⟩)) subjectPlugin (some originalEntryId)

def Phase.isReturned : Phase → Bool
  | .returned _ => true
  | _ => false

def drop (task : Task) : Task := if task.phase.isReturned then task else { task with phase := .dropped }

-- A call dropped at an await gives the lock back. One that a scheduler never returns to is a
-- call dropped while its row was on the way.
def dropCall (s : Steward) (i : Nat) : Steward :=
  if (s.tasks[i]?).isSome then { s with lock := if s.lock = some i then none else s.lock,tasks := s.tasks.modify i drop } else s

def restart (s : Steward) : Steward := ⟨s.entries,∅,none,s.tasks.map drop⟩

inductive Action where
  | call (entryId : String) (withdrawnAtMs : UInt64) (request : Call)
  | advance (i : Nat) (env : Env)
  | drop (i : Nat)
  | restart

def step (s : Steward) : Action → Steward
  | .call entryId withdrawnAtMs request => { s with tasks := s.tasks++[open_ toJson entryId withdrawnAtMs request] }
  | .advance i env => advance backend crypto s i env
  | .drop i => dropCall s i
  | .restart => restart s

end

def start : Steward := ⟨∅,∅,none,[]⟩

end EvoCore.Ledger.Order
