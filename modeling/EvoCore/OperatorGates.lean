import EvoCore.BearerTokens
import EvoCore.PeerOrigin
import EvoCore.Tables

namespace EvoCore.OperatorGates
open BearerTokens PeerOrigin
open Tables (Table get)

def isValidWireOpId (s : String) : Bool :=
  match s.toList with
  | [] => false
  | first::rest => first.isLower && rest.all fun c => c.isLower || c.isDigit || c = '_'

structure WireOpId where
  text : String
  valid : isValidWireOpId text = true
deriving DecidableEq

inductive WireOpIdError where
  | empty
  | invalidShape (id : String)
deriving DecidableEq,Repr

def WireOpId.new (id : String) : Except WireOpIdError WireOpId :=
  if id.isEmpty then .error .empty
  else if valid : isValidWireOpId id = true then .ok ⟨id,valid⟩
  else .error (.invalidShape id)

structure WireOp where
  id : WireOpId
  capability : CapabilityRequirement
deriving DecidableEq

inductive FrameClass where
  | request | subscribe
deriving DecidableEq,Repr

def classifyOp (op : WireOp) : FrameClass :=
  if "subscribe_".toList.isPrefixOf op.id.text.toList then .subscribe else .request

-- No id occurs twice in the schema.
structure Schema where
  ops : List WireOp
  unique : (ops.map fun op => op.id.text).Nodup

inductive AuthTier where
  | open_ | secure | secureIndustrial
deriving DecidableEq,Repr

structure Principal where
  tokenId : String
  capabilities : CapabilitySet
deriving DecidableEq,Repr

def lanTrustTokenId : String := "lan-trust-operator"

-- What both surfaces hold while they serve one request: the routes are built from the same values.
structure Surface where
  schema : Schema
  validator : BearerTokenValidator
  tier : AuthTier
  lanTrustCaps : CapabilitySet
  lanPrivilegedCaps : Option CapabilitySet

inductive StatusCode where
  | unauthorized | forbidden
deriving DecidableEq,Repr

def stripNonEmpty (start text : List Char) : Option (List Char) :=
  if start.isPrefixOf text && text.drop start.length ≠ [] then some (text.drop start.length) else none

def bearerStart : List Char := "Bearer ".toList
def subprotocolBearerStart : List Char := "evo.bearer.".toList

-- HTTP.
structure AuthLayer where
  requirement : CapabilityRequirement
  validator : BearerTokenValidator
  tier : AuthTier
  lanTrustCaps : CapabilitySet
  lanPrivilegedCaps : Option CapabilitySet

structure HttpRequest where
  peer : Option IpAddr
  headers : HeaderMap

def HttpRequest.extractBearer (req : HttpRequest) : Option String :=
  ((req.headers.text "authorization").bind (stripNonEmpty bearerStart)).map String.ofList

def admitReason (tier : AuthTier) (lanOrigin : Bool) : Option String :=
  match tier,lanOrigin with
  | .open_,_ => some "lan_trust_open"
  | .secure,true | .secureIndustrial,true => some "lan_trust_secure"
  | .secure,false | .secureIndustrial,false => none

def AuthLayer.admittedCaps (layer : AuthLayer) (lanOrigin : Bool) : CapabilitySet :=
  if lanOrigin then layer.lanPrivilegedCaps.getD layer.lanTrustCaps else layer.lanTrustCaps

variable (crates : BearerCrates)

-- The principal the handler finds, none on an anonymous route.
def capabilityGate (layer : AuthLayer) (req : HttpRequest) (nowMs : UInt64) : Except StatusCode (Option Principal) :=
  if layer.requirement = .none then .ok none
  else match req.extractBearer with
    | none =>
      let lanOrigin := (req.peer.map fun ip => isLanOrigin (effectiveOrigin ip req.headers)).getD false
      match admitReason layer.tier lanOrigin with
      | some _ =>
        if (layer.admittedCaps lanOrigin).satisfies layer.requirement then
          .ok (some ⟨lanTrustTokenId,layer.admittedCaps lanOrigin⟩)
        else .error .forbidden
      | none => .error .unauthorized
    | some tokenStr =>
      match BearerToken.decode crates tokenStr with
      | .error _ => .error .unauthorized
      | .ok token =>
        match layer.validator.checkCapability crates token layer.requirement nowMs with
        | .ok () => .ok (some ⟨token.id,token.capabilities⟩)
        | .error (.capabilityMismatch _) => .error .forbidden
        | .error _ => .error .unauthorized

-- The layer build_router puts before an op's route.
def Surface.layer (s : Surface) (op : WireOp) : AuthLayer :=
  ⟨op.capability,s.validator,s.tier,s.lanTrustCaps,s.lanPrivilegedCaps⟩

-- WebSocket.
def splitOn (sep : Char) (text : List Char) : List (List Char) := text.splitOn sep

def extractBearer (headers : HeaderMap) : Option (String × Option String) :=
  let offered := ((headers.text "sec-websocket-protocol").map (splitOn ',')).getD []
  match offered.findSome? fun candidate =>
      (stripNonEmpty subprotocolBearerStart (trim candidate)).map fun rest => (rest,trim candidate) with
  | some (rest,candidate) => some (String.ofList rest,some (String.ofList candidate))
  | none =>
    match (headers.text "authorization").bind (stripNonEmpty bearerStart) with
    | some rest => some (String.ofList rest,none)
    | none => none

structure Upgrade where
  principal : Principal
  protocol : Option String
deriving DecidableEq,Repr

def wsHandler (s : Surface) (peer : IpAddr) (headers : HeaderMap) (nowMs : UInt64) : Except (StatusCode × String) Upgrade :=
  match extractBearer headers with
  | none =>
    let lanOrigin := isLanOrigin (effectiveOrigin peer headers)
    let allowed := match s.tier,lanOrigin with
      | .open_,_ | .secure,true | .secureIndustrial,true => true
      | _,_ => false
    if allowed then
      let admittedCaps := if lanOrigin then s.lanPrivilegedCaps.getD s.lanTrustCaps else s.lanTrustCaps
      .ok ⟨⟨lanTrustTokenId,admittedCaps⟩,none⟩
    else .error (.unauthorized,"missing bearer token")
  | some (tokenStr,acceptedSubprotocol) =>
    match BearerToken.decode crates tokenStr with
    | .error _ => .error (.unauthorized,"malformed bearer token")
    | .ok token =>
      match s.validator.verify crates token nowMs with
      | .error _ => .error (.unauthorized,"token verify failed")
      | .ok () => .ok ⟨⟨token.id,token.capabilities⟩,acceptedSubprotocol⟩

def Surface.schemaById (s : Surface) : Table String CapabilityRequirement :=
  s.schema.ops.foldl (fun t op => t.insert op.id.text op.capability) ∅

def Surface.dispatchTable (s : Surface) : Table String FrameClass :=
  s.schema.ops.foldl (fun t op => t.insert op.id.text (classifyOp op)) ∅

inductive FrameRefusal where
  | invalidOp (e : WireOpIdError)
  | unknownOp
  | wrongFrameClass (class_ : FrameClass)
  | permissionDenied (requirement : CapabilityRequirement)
deriving DecidableEq,Repr

-- The checks before a frame of the class is dispatched under the connection's principal.
def frameGate (s : Surface) (class_ : FrameClass) (principal : Principal) (opStr : String) : Except FrameRefusal WireOpId :=
  match WireOpId.new opStr with
  | .error e => .error (.invalidOp e)
  | .ok opId =>
    match get s.schemaById opId.text with
    | none => .error .unknownOp
    | some requirement =>
      match get s.dispatchTable opId.text with
      | some found =>
        if found ≠ class_ then .error (.wrongFrameClass found)
        else if principal.capabilities.satisfies requirement then .ok opId
        else .error (.permissionDenied requirement)
      | none => if principal.capabilities.satisfies requirement then .ok opId else .error (.permissionDenied requirement)

def handleRequest (s : Surface) (principal : Principal) (opStr : String) : Except FrameRefusal WireOpId :=
  frameGate s .request principal opStr

def handleSubscribe (s : Surface) (principal : Principal) (opStr : String) : Except FrameRefusal WireOpId :=
  frameGate s .subscribe principal opStr

variable {crates} {s : Surface} {op : WireOp} {principal : Principal}

theorem new_text (id : WireOpId) : WireOpId.new id.text = .ok id := by
  have shown : id.text.isEmpty = false := by
    rw [Bool.eq_false_iff]
    intro blank
    have valid := id.valid
    rw [String.isEmpty_iff.mp blank] at valid
    exact absurd valid (by decide)
  simp [WireOpId.new,shown,id.valid]

theorem schema_loads (value : WireOp → ν) : Tables.Loads (get (κ := String) (ν := ν)) (fun t (op : WireOp) => t.insert op.id.text (value op))
    (fun op => op.id.text) (fun op => some (value op)) := by
  intro t op k
  simp

theorem schemaById_op (member : op ∈ s.schema.ops) : get s.schemaById op.id.text = some op.capability :=
  Tables.load_present (schema_loads WireOp.capability) s.schema.unique member Tables.get_empty

theorem dispatchTable_op (member : op ∈ s.schema.ops) : get s.dispatchTable op.id.text = some (classifyOp op) :=
  Tables.load_present (schema_loads classifyOp) s.schema.unique member Tables.get_empty

-- A frame of the op's own class is let through exactly when the connection's set satisfies the op.
theorem frameGate_op (member : op ∈ s.schema.ops) : frameGate s (classifyOp op) principal op.id.text =
    if principal.capabilities.satisfies op.capability then .ok op.id else .error (.permissionDenied op.capability) := by
  simp [frameGate,new_text,schemaById_op member,dispatchTable_op member]

end EvoCore.OperatorGates
