import EvoCore.Runs
import EvoCore.Tables

namespace EvoCore.SourceVerbs
open Runs Tables

-- ItemUri::new lets no other string through.
structure ItemUri where
  raw : String
  nonempty : raw ≠ ""
  plain : '\x00' ∉ raw.toList
deriving DecidableEq,Repr

inductive VerbApprover where
  | user (uid : UInt32)
  | plan (planId : String)
  | system (reason : String)
deriving DecidableEq,Repr

def VerbApprover.text : VerbApprover → String
  | .user uid => "user:" ++ toString uid.toNat
  | .plan planId => "plan:" ++ planId
  | .system reason => "system:" ++ reason

inductive SourceVerb where
  | playNow
  | playNowCollection
  | stop
  | pause
  | resume
  | seek
  | next
  | previous
deriving DecidableEq,Repr

def SourceVerb.asStr : SourceVerb → String
  | .playNow => "play_now"
  | .playNowCollection => "play_now_collection"
  | .stop => "stop"
  | .pause => "pause"
  | .resume => "resume"
  | .seek => "seek"
  | .next => "next"
  | .previous => "previous"

inductive VerbCall where
  | playNow (uri : ItemUri)
  | playNowCollection (uris : List ItemUri)
  | stop
  | pause
  | resume
  | seek (positionMs : UInt64)
  | next
  | previous
deriving DecidableEq,Repr

def VerbCall.verb : VerbCall → SourceVerb
  | .playNow _ => .playNow
  | .playNowCollection _ => .playNowCollection
  | .stop => .stop
  | .pause => .pause
  | .resume => .resume
  | .seek _ => .seek
  | .next => .next
  | .previous => .previous

def VerbCall.acquiresCustody : VerbCall → Bool
  | .playNow _ | .playNowCollection _ => true
  | _ => false

def VerbCall.releasesCustody : VerbCall → Bool
  | .stop => true
  | _ => false

def VerbCall.primaryUri : VerbCall → Option ItemUri
  | .playNow uri => some uri
  | .playNowCollection uris => uris.head?
  | _ => none

def VerbCall.uriCount : VerbCall → Nat
  | .playNow _ => 1
  | .playNowCollection uris => uris.length
  | _ => 0

structure DispatchOutcome where
  handlerShelf : String
  acquiredCustody : Bool
deriving DecidableEq,Repr

inductive DispatchError where
  | invalidUri (uri : String)
  | uriSchemeNotRegistered (scheme : String)
  | emptyCollection
  | collectionSchemeMismatch (firstScheme otherScheme : String)
  | custodyArbitrationFailed (text : String)
  | routerError (text : String)
  | noActiveSource (verb : SourceVerb)
deriving DecidableEq,Repr

def splitOnce (separator : Char) (text : String) : Option (String × String) :=
  let chars := text.toList
  if separator ∈ chars then
    some (String.ofList (chars.takeWhile (· ≠ separator)),String.ofList ((chars.dropWhile (· ≠ separator)).drop 1))
  else none

def schemeOf (uri : String) : Except DispatchError String :=
  match splitOnce ':' uri with
  | some (scheme,_) => if scheme = "" then .error (.invalidUri uri) else .ok scheme
  | none => .error (.invalidUri uri)

-- The params of a claim, before they are written as JSON.
structure ClaimParams where
  verb : String
  approver : String
deriving DecidableEq,Repr

structure PersistedActiveSourceCustody where
  custodyId : String
  holderPlugin : Option String
  claimUri : Option String
  claimParams : Option ClaimParams
  claimedAtMs : Option UInt64
  updatedAtMs : UInt64
deriving DecidableEq,Repr

abbrev Custody := Table String PersistedActiveSourceCustody

def recordActiveSourceClaim (rows : Custody) (custodyId holderPlugin claimUri : String) (claimParams : ClaimParams)
    (claimedAtMs nowMs : UInt64) : Custody :=
  rows.insert custodyId ⟨custodyId,some holderPlugin,some claimUri,some claimParams,some claimedAtMs,nowMs⟩

def releaseActiveSource (rows : Custody) (custodyId : String) (nowMs : UInt64) : Custody :=
  rows.insert custodyId ⟨custodyId,none,none,none,none,nowMs⟩

inductive ActiveSourceError where
  | invalid (text : String)
  | persistence (text : String)
deriving DecidableEq,Repr

def ActiveSourceError.text : ActiveSourceError → String
  | .invalid text => "invalid active-source argument: " ++ text
  | .persistence text => "persistence: " ++ text

-- What the world answers at an await: the clock, the URI-scheme table, the store of the
-- custody rows, the router's table and the plugin.
structure Manifest where
  warden : Bool
  respondent : Bool
  custodyDomain : Option String
deriving DecidableEq,Repr

structure PluginEntry where
  shelf : String
  currentManifest : Option Manifest
deriving DecidableEq,Repr

structure Env where
  nowMs : UInt64
  registration : Except String (Option String)
  storeFails : Option String
  entry : Option PluginEntry
  answer : Except String Unit
  auditFails : Bool

def recordClaim (rows : Custody) (env : Env) (custodyId holderPlugin claimUri : String) (claimParams : ClaimParams) :
    Except ActiveSourceError Custody :=
  if custodyId = "" then .error (.invalid "custody_id is empty")
  else if holderPlugin = "" then .error (.invalid "holder_plugin is empty")
  else if claimUri = "" then .error (.invalid "claim_uri is empty")
  else
    match env.storeFails with
    | some error => .error (.persistence error)
    | none => .ok (recordActiveSourceClaim rows custodyId holderPlugin claimUri claimParams env.nowMs env.nowMs)

def release (rows : Custody) (env : Env) (custodyId : String) : Except ActiveSourceError Custody :=
  if custodyId = "" then .error (.invalid "custody_id is empty")
  else
    match env.storeFails with
    | some error => .error (.persistence error)
    | none => .ok (releaseActiveSource rows custodyId env.nowMs)

def current (rows : Custody) (env : Env) (custodyId : String) : Except ActiveSourceError (Option PersistedActiveSourceCustody) :=
  if custodyId = "" then .error (.invalid "custody_id is empty")
  else
    match env.storeFails with
    | some error => .error (.persistence error)
    | none => .ok (get rows custodyId)

def audioActiveSource : String := "audio.active_source"

def lookupForUri (env : Env) (uri : String) : Except String (Option String) :=
  if uri = "" then .error "invalid queue argument: uri is empty"
  else
    match splitOnce ':' uri with
    | none => .ok none
    | some _ => env.registration

-- Beside each of them the payload carries the envelope's v: 1.
inductive VerbPayload where
  | uri (uri : String)
  | uris (uris : List String)
  | bare
  | positionMs (positionMs : UInt64)
deriving DecidableEq,Repr

structure Request where
  requestType : String
  payload : VerbPayload
deriving DecidableEq,Repr

def VerbCall.payload : VerbCall → VerbPayload
  | .playNow uri => .uri uri.raw
  | .playNowCollection uris => .uris (uris.map ItemUri.raw)
  | .seek positionMs => .positionMs positionMs
  | _ => .bare

def VerbCall.request (call : VerbCall) : Request := ⟨call.verb.asStr,call.payload⟩

inductive LifecycleOutcome where
  | success
  | failed (reason : String)
deriving DecidableEq,Repr

structure VerbDispatchedPayload where
  verb : String
  primaryUri : Option String
  uriCount : Nat
  acquiredCustody : Bool
deriving DecidableEq,Repr

inductive Event where
  | claimed (plugin claimUri : String)
  | tookCustody (shelf custodyDomain : String)
  | routed (plugin shelf : String) (request : Request)
  | audioPlaybackEnded (sourcePlugin : String) (claimUri : Option String)
  | audited (approver handlerShelf : String) (payload : VerbDispatchedPayload) (outcome : LifecycleOutcome)
deriving DecidableEq,Repr

inductive Phase where
  | resolving
  | claiming (handler : String)
  | routing (handler : String)
  | bootstrapping (handler shelf : String)
  | waiting (handler : String)
  | releasing (handler : String)
  | auditing (handler : String) (result : Except String Unit)
  | finished (result : Except DispatchError DispatchOutcome)

structure Task where
  approver : VerbApprover
  call : VerbCall
  phase : Phase

structure Host where
  custody : Custody
  tasks : List Task
  log : List Event

structure Wiring where
  ledger : Bool
  bus : Bool

def validate : VerbCall → Option DispatchError
  | .playNowCollection uris =>
    match uris with
    | [] => some .emptyCollection
    | first::rest =>
      match schemeOf first.raw with
      | .error error => some error
      | .ok firstScheme =>
        rest.findSome? fun other =>
          match schemeOf other.raw with
          | .error error => some error
          | .ok otherScheme => if otherScheme = firstScheme then none else some (.collectionSchemeMismatch firstScheme otherScheme)
  | _ => none

def open_ (approver : VerbApprover) (call : VerbCall) : Task :=
  match validate call with
  | some error => ⟨approver,call,.finished (.error error)⟩
  | none => ⟨approver,call,.resolving⟩

def resolve (rows : Custody) (call : VerbCall) (env : Env) : Except DispatchError String :=
  match call.primaryUri with
  | some uri =>
    match lookupForUri env uri.raw with
    | .error error => .error (.routerError ("URI-scheme lookup failed: " ++ error))
    | .ok (some sourcePlugin) => .ok sourcePlugin
    | .ok none =>
      match schemeOf uri.raw with
      | .error error => .error error
      | .ok scheme => .error (.uriSchemeNotRegistered scheme)
  | none =>
    match current rows env audioActiveSource with
    | .error error => .error (.custodyArbitrationFailed ("current() failed: " ++ error.text))
    | .ok row =>
      match row.bind PersistedActiveSourceCustody.holderPlugin with
      | some holder => .ok holder
      | none => .error (.noActiveSource call.verb)

def Task.uri (task : Task) : Option String := task.call.primaryUri.map ItemUri.raw

def Task.claim (task : Task) (rows : Custody) (env : Env) (handler : String) : Except ActiveSourceError Custody :=
  recordClaim rows env audioActiveSource handler (task.uri.getD "") ⟨task.call.verb.asStr,task.approver.text⟩

-- A warden that also responds is given its custody first.
def bootstraps (call : VerbCall) (entry : PluginEntry) : Option String :=
  match entry.currentManifest with
  | some manifest =>
    if call.acquiresCustody && manifest.warden && manifest.respondent then some (manifest.custodyDomain.getD "") else none
  | none => none

def Task.audit (wiring : Wiring) (task : Task) (env : Env) (handler : String) (result : Except String Unit) : List Event :=
  if wiring.ledger && !env.auditFails then
    let outcome :=
      match result with
      | .ok _ => .success
      | .error error => .failed error
    [.audited task.approver.text handler ⟨task.call.verb.asStr,task.uri,task.call.uriCount,task.call.acquiresCustody⟩ outcome]
  else []

def Task.outcome (task : Task) (handler : String) : Except String Unit → Except DispatchError DispatchOutcome
  | .ok _ => .ok ⟨handler,task.call.acquiresCustody⟩
  | .error error => .error (.routerError error)

-- One await of a dispatch: the rows it leaves, what it does to the world, where it stands next.
def advanceTask (wiring : Wiring) (rows : Custody) (task : Task) (env : Env) : Custody × List Event × Phase :=
  match task.phase with
  | .resolving =>
    match resolve rows task.call env with
    | .error error => (rows,[],.finished (.error error))
    | .ok handler => (rows,[],if task.call.acquiresCustody then .claiming handler else .routing handler)
  | .claiming handler =>
    match task.claim rows env handler with
    | .error error => (rows,[],.finished (.error (.custodyArbitrationFailed error.text)))
    | .ok rows => (rows,[.claimed handler (task.uri.getD "")],.routing handler)
  | .routing handler =>
    match env.entry with
    | none => (rows,[],.auditing handler (.error ("dispatch error: no plugin on shelf: " ++ handler)))
    | some entry =>
      match bootstraps task.call entry with
      | some domain => (rows,[.tookCustody entry.shelf domain],.bootstrapping handler entry.shelf)
      | none => (rows,[.routed handler entry.shelf task.call.request],.waiting handler)
  -- Whatever the warden answers, the request follows.
  | .bootstrapping handler shelf => (rows,[.routed handler shelf task.call.request],.waiting handler)
  | .waiting handler =>
    match env.answer with
    | .ok _ => (rows,[],if task.call.releasesCustody then .releasing handler else .auditing handler (.ok ()))
    | .error error => (rows,[],.auditing handler (.error error))
  | .releasing handler =>
    let freed :=
      match release rows env audioActiveSource with
      | .ok freed => freed
      | .error _ => rows
    (freed,if wiring.bus then [.audioPlaybackEnded handler task.uri] else [],.auditing handler (.ok ()))
  | .auditing handler result => (rows,task.audit wiring env handler result,.finished (task.outcome handler result))
  | .finished result => (rows,[],.finished result)

def advance (wiring : Wiring) (s : Host) (i : Nat) (env : Env) : Host :=
  match s.tasks[i]? with
  | none => s
  | some task =>
    let (custody,sent,phase) := advanceTask wiring s.custody task env
    ⟨custody,s.tasks.modify i fun task => { task with phase },s.log++sent⟩

inductive Action where
  | dispatch (approver : VerbApprover) (call : VerbCall)
  | advance (i : Nat) (env : Env)

def step (wiring : Wiring) (s : Host) : Action → Host
  | .dispatch approver call => { s with tasks := s.tasks++[open_ approver call] }
  | .advance i env => advance wiring s i env

-- The rows may be left over from before.
def start (rows : Custody) : Host := ⟨rows,[],[]⟩

def holder (rows : Custody) : Option String := (get rows audioActiveSource).bind PersistedActiveSourceCustody.holderPlugin

end EvoCore.SourceVerbs
