import EvoCore.Bytes
import EvoCore.Tables

namespace EvoCore.Ledger
open Bytes Tables

structure CryptographicServices where
  sign : List UInt8 → Option (List UInt8)
  verify : List UInt8 → Option (List UInt8) → Bool
  signatureAlgorithm : String

def noOpCryptographicServices : CryptographicServices := ⟨fun _ => none,fun _ signature => signature.isNone,"none"⟩

structure WithdrawalEntry where
  originalEntryId : String
  reason : String
  withdrawnAtMs : UInt64

structure PersistedLedgerEntry where
  entryId : String
  ledgerId : String
  schemaVersion : UInt32
  payloadJson : String
  signatureBytes : Option (List UInt8)
  signatureAlgorithm : String
  createdAtMs : UInt64
  subjectPlugin : Option String
  withdrawnByEntryId : Option String
  deriving DecidableEq,Repr

inductive PersistenceError where
  | invalid (message : String)
  | alreadyWithdrawn (originalEntryId existingWithdrawalId requestedWithdrawalId : String)
  | sqlite (context : String)
  deriving DecidableEq,Repr

inductive LedgerError where
  | unknownLedgerId (ledgerId : String)
  | serialise
  | persistence (error : PersistenceError)
  deriving DecidableEq,Repr

inductive Backend where
  | memory
  | sqlite
  deriving DecidableEq,Repr

abbrev Entries := Table String PersistedLedgerEntry

-- SQLite's message has the extended code of a primary-key violation where the id belongs.
def duplicateMessage (entryId : String) : Backend → String
  | .memory => s!"ledger entry {entryId} already exists; ledger is append-only"
  | .sqlite => "ledger entry 1555 already exists; ledger is append-only"

def appendLedgerEntry (backend : Backend) (entries : Entries) (record : PersistedLedgerEntry) : Except PersistenceError Entries :=
  match get entries record.entryId with
  | some _ => .error (.invalid (duplicateMessage record.entryId backend))
  | none => .ok (entries.insert record.entryId record)

def linkLedgerWithdrawal (entries : Entries) (originalEntryId withdrawalEntryId : String) : Except PersistenceError Entries :=
  match get entries withdrawalEntryId with
  | none => .error (.invalid s!"withdrawal entry {withdrawalEntryId} not found; append the withdrawal entry before linking")
  | some _ =>
    match get entries originalEntryId with
    | none => .error (.invalid s!"original entry {originalEntryId} not found")
    | some original =>
      match original.withdrawnByEntryId with
      | some existing =>
        if existing = withdrawalEntryId then .ok entries
        else .error (.alreadyWithdrawn originalEntryId existing withdrawalEntryId)
      | none => .ok (entries.insert originalEntryId { original with withdrawnByEntryId := some withdrawalEntryId })

-- The column of SQLite has the 64 bits of the timestamp and compares them as signed.
def signed (ms : UInt64) : Int := if ms.toNat < 2^63 then ms.toNat else ms.toNat-2^64

def Backend.order : Backend → UInt64 → Int
  | .memory,ms => ms.toNat
  | .sqlite,ms => signed ms

def timestamps (entries : Entries) (ledgerId : String) : List UInt64 :=
  ((entries.entries.map fun e => e.2).filter fun entry => entry.ledgerId = ledgerId).map (·.createdAtMs)

-- `MAX`, and 0 where the ledger is empty.
def queryMaxCreatedAtMsForLedger (backend : Backend) (entries : Entries) (ledgerId : String) : UInt64 :=
  match timestamps entries ledgerId with
  | [] => 0
  | first::rest => rest.foldl (fun top ms => if backend.order top < backend.order ms then ms else top) first

def ledgerConsent : String := "evo.consent"
def ledgerTrust : String := "evo.trust"
def ledgerAction : String := "evo.action"
def ledgerLifecycle : String := "evo.lifecycle"

def consentSchemaV1 : UInt32 := 1
def trustSchemaV1 : UInt32 := 1
def actionSchemaV1 : UInt32 := 1
def lifecycleSchemaV1 : UInt32 := 1
def withdrawalSchemaV1 : UInt32 := 1

def isKnownLedgerId (ledgerId : String) : Bool :=
  ledgerId = ledgerConsent || ledgerId = ledgerTrust || ledgerId = ledgerAction || ledgerId = ledgerLifecycle

def canonicalSigningMessage (entryId ledgerId : String) (schemaVersion : UInt32) (payloadJson : String) (createdAtMs : UInt64)
    (subjectPlugin : Option String) : List UInt8 :=
  utf8 entryId++[0]++utf8 ledgerId++[0]++beBytes32 schemaVersion++[0]++utf8 payloadJson++[0]++beBytes64 createdAtMs++[0]++
    utf8 (subjectPlugin.getD "")

def verifyEntry (crypto : CryptographicServices) (entry : PersistedLedgerEntry) : Bool :=
  crypto.verify
    (canonicalSigningMessage entry.entryId entry.ledgerId entry.schemaVersion entry.payloadJson entry.createdAtMs entry.subjectPlugin)
    entry.signatureBytes

-- What a call asks to have written, before its timestamp is known.
structure Draft where
  entryId : String
  ledgerId : String
  schemaVersion : UInt32
  payloadJson : String
  subjectPlugin : Option String
  deriving DecidableEq,Repr

def Draft.record (crypto : CryptographicServices) (draft : Draft) (nowMs : UInt64) : PersistedLedgerEntry :=
  ⟨draft.entryId,draft.ledgerId,draft.schemaVersion,draft.payloadJson,
    crypto.sign (canonicalSigningMessage draft.entryId draft.ledgerId draft.schemaVersion draft.payloadJson nowMs draft.subjectPlugin),
    crypto.signatureAlgorithm,nowMs,draft.subjectPlugin,none⟩

abbrev Floor := Table String UInt64

-- The end of `next_monotonic_ms`, from the last timestamp on; the addition wraps.
def pick (floor : Floor) (ledgerId : String) (last now : UInt64) : Floor × UInt64 :=
  (floor.insert ledgerId (max now (last+1)),max now (last+1))

structure LedgerPrimitive where
  backend : Backend
  crypto : CryptographicServices
  entries : Entries
  monotonicFloor : Floor

-- What one call meets: the id and the clocks it reads, and the failures of the store.
structure Env where
  entryId : String
  now : UInt64
  withdrawnAtMs : UInt64
  queryFails : Option PersistenceError
  appendFails : Option PersistenceError
  linkFails : Option PersistenceError

def nextMonotonicMs (ledger : LedgerPrimitive) (ledgerId : String) (env : Env) : Except PersistenceError (Floor × UInt64) :=
  match get ledger.monotonicFloor ledgerId with
  | some last => .ok (pick ledger.monotonicFloor ledgerId last env.now)
  | none =>
    match env.queryFails with
    | some error => .error error
    | none => .ok (pick ledger.monotonicFloor ledgerId (queryMaxCreatedAtMsForLedger ledger.backend ledger.entries ledgerId) env.now)

-- The payload is missing where its serialisation failed.
def append (ledger : LedgerPrimitive) (ledgerId : String) (schemaVersion : UInt32) (payload : Option String)
    (subjectPlugin : Option String) (env : Env) : LedgerPrimitive × Except LedgerError String :=
  if !isKnownLedgerId ledgerId then (ledger,.error (.unknownLedgerId ledgerId))
  else
    match payload with
    | none => (ledger,.error .serialise)
    | some payloadJson =>
      match nextMonotonicMs ledger ledgerId env with
      | .error error => (ledger,.error (.persistence error))
      | .ok (floor,nowMs) =>
        let record := Draft.record ledger.crypto ⟨env.entryId,ledgerId,schemaVersion,payloadJson,subjectPlugin⟩ nowMs
        match env.appendFails with
        | some error => ({ ledger with monotonicFloor := floor },.error (.persistence error))
        | none =>
          match appendLedgerEntry ledger.backend ledger.entries record with
          | .error error => ({ ledger with monotonicFloor := floor },.error (.persistence error))
          | .ok entries => ({ ledger with monotonicFloor := floor,entries },.ok env.entryId)

def appendConsent (ledger : LedgerPrimitive) (payload subjectPlugin : Option String) (env : Env) :=
  append ledger ledgerConsent consentSchemaV1 payload subjectPlugin env

def appendTrust (ledger : LedgerPrimitive) (payload subjectPlugin : Option String) (env : Env) :=
  append ledger ledgerTrust trustSchemaV1 payload subjectPlugin env

def appendAction (ledger : LedgerPrimitive) (payload subjectPlugin : Option String) (env : Env) :=
  append ledger ledgerAction actionSchemaV1 payload subjectPlugin env

def appendLifecycle (ledger : LedgerPrimitive) (payload : Option String) (sourcePlugin : String) (env : Env) :=
  append ledger ledgerLifecycle lifecycleSchemaV1 payload (some sourcePlugin) env

-- `toJson` is the serialisation of the payload.
def withdraw (toJson : WithdrawalEntry → String) (ledger : LedgerPrimitive) (ledgerId originalEntryId reason : String) (subjectPlugin : Option String)
    (env : Env) : LedgerPrimitive × Except LedgerError String :=
  if !isKnownLedgerId ledgerId then (ledger,.error (.unknownLedgerId ledgerId))
  else
    match append ledger ledgerId withdrawalSchemaV1 (some (toJson ⟨originalEntryId,reason,env.withdrawnAtMs⟩)) subjectPlugin env with
    | (after,.error error) => (after,.error error)
    | (after,.ok withdrawalId) =>
      match env.linkFails with
      | some error => (after,.error (.persistence error))
      | none =>
        match linkLedgerWithdrawal after.entries originalEntryId withdrawalId with
        | .error error => (after,.error (.persistence error))
        | .ok entries => ({ after with entries },.ok withdrawalId)

inductive Call where
  | appendConsent (payload subjectPlugin : Option String)
  | appendTrust (payload subjectPlugin : Option String)
  | appendAction (payload subjectPlugin : Option String)
  | appendLifecycle (payload : Option String) (sourcePlugin : String)
  | withdraw (ledgerId originalEntryId reason : String) (subjectPlugin : Option String)

def call (toJson : WithdrawalEntry → String) (ledger : LedgerPrimitive) (env : Env) : Call → LedgerPrimitive × Except LedgerError String
  | .appendConsent payload subjectPlugin => appendConsent ledger payload subjectPlugin env
  | .appendTrust payload subjectPlugin => appendTrust ledger payload subjectPlugin env
  | .appendAction payload subjectPlugin => appendAction ledger payload subjectPlugin env
  | .appendLifecycle payload sourcePlugin => appendLifecycle ledger payload sourcePlugin env
  | .withdraw ledgerId originalEntryId reason subjectPlugin => withdraw toJson ledger ledgerId originalEntryId reason subjectPlugin env

def new (backend : Backend) (crypto : CryptographicServices) : LedgerPrimitive := ⟨backend,crypto,∅,∅⟩

end EvoCore.Ledger
