import EvoCore.DomainProjection
import EvoCore.JsonText
import EvoCore.Runs
import EvoCore.Tables

namespace EvoCore.Heartbeats
open External Bytes DomainEntries DomainProjection
open Tables (Table get)

inductive EvoState where
  | booting | live | paused | shuttingDown
deriving DecidableEq,Repr

def EvoState.name : EvoState → String
  | .booting => "booting"
  | .live => "live"
  | .paused => "paused"
  | .shuttingDown => "shutting_down"

structure HeartbeatPayload where
  deviceId : String
  endpoints : List String
  evoState : EvoState
  signedAtMs : Nat
deriving DecidableEq,Repr

-- serde's fields in the order of the struct.
def HeartbeatPayload.toJson (p : HeartbeatPayload) : List Char :=
  '\x7b'::(JsonText.quoted "device_id" ++ ':'::(JsonText.quoted p.deviceId ++ ','::(JsonText.quoted "endpoints" ++
    ':'::(JsonText.array JsonText.quoted p.endpoints ++ ','::(JsonText.quoted "evo_state" ++ ':'::(JsonText.quoted p.evoState.name ++
    ','::(JsonText.quoted "signed_at_ms" ++ ':'::(p.signedAtMs.repr.toList ++ ['\x7d']))))))))

def HeartbeatPayload.toVec (p : HeartbeatPayload) : List UInt8 := utf8 (String.ofList p.toJson)

structure HeartbeatEnvelope where
  payload : HeartbeatPayload
  signature : List UInt8
deriving DecidableEq,Repr

-- serde_json's reader and writer of the envelope.
structure HeartbeatCrates extends Crates where
  envelopeToVec : HeartbeatEnvelope → List UInt8
  envelopeFromSlice : List UInt8 → Except String HeartbeatEnvelope

structure DomainMember where
  deviceId : String
  displayName : String
  publicKeyBytes : Option (List UInt8)
  admittedAtMs : Nat
  admittedByDeviceId : Option String
  revokedAtMs : Option Nat
deriving DecidableEq,Repr

structure PeerHeartbeat where
  deviceId : String
  lastHeartbeatAtMs : Nat
  endpoints : List String
  evoState : EvoState
deriving DecidableEq,Repr

structure HeartbeatReceived where
  deviceId : String
  atMs : Nat
  endpoints : List String
  evoState : EvoState
deriving DecidableEq,Repr

-- A packet as it went out: who signed it, and the receiver's clock at that instant.
structure Emission where
  key : SigningKey
  envelope : HeartbeatEnvelope
  atMs : Nat
deriving DecidableEq,Repr

-- The receiver: its clock, the projection of its witness runtime once that is bound, the peer rows, the
-- events sent on, and the payloads verified so far. Next to it what the emitters have sent.
structure World where
  nowMs : Nat
  localDeviceId : String
  projection : Option DomainStateView
  peers : Table String PeerHeartbeat
  received : List HeartbeatReceived
  verified : List HeartbeatPayload
  emissions : List Emission

inductive Action where
  | tick (ms : Nat)
  | chain (entries : List DomainWitness)
  | emit (key : SigningKey) (deviceId : String) (endpoints : List String) (evoState : EvoState) (clockMs : Nat)
  | packet (bytes : List UInt8)
deriving DecidableEq

def maxHeartbeatBytes : Nat := 1024
def publicKeyLength : Nat := 32
def replayWindowMs : Nat := 5 * 60 * 1000

variable (crates : HeartbeatCrates)

def projectionToMember (row : TrustProjection) : DomainMember :=
  ⟨row.deviceId,row.displayName,(crates.decode row.publicKeyB64).toOption,row.admittedAtNs.toNat / 1000000,none,
    row.discardedAtNs.map fun ns => ns.toNat / 1000000⟩

def list (projection : Option DomainStateView) : List DomainMember :=
  match projection with
  | none => []
  | some view => (view.trust.toList.map fun row => projectionToMember crates row.2).mergeSort fun left right => left.admittedAtMs ≤ right.admittedAtMs

-- The sender's key as the ledger has it, if that can be a key at all.
def keyOf (projection : Option DomainStateView) (deviceId : String) : Option VerifyingKey :=
  match ((list crates projection).find? fun r => r.deviceId = deviceId).bind (·.publicKeyBytes) with
  | none => none
  | some bytes => if bytes.length = publicKeyLength then (crates.verifyingKeyFromBytes bytes).toOption else none

-- The checks of on_packet up to the signature. What they drop, they only log.
def verifiedPacket (w : World) (bytes : List UInt8) : Option (HeartbeatPayload × VerifyingKey) :=
  if bytes.length > maxHeartbeatBytes then none
  else
    match crates.envelopeFromSlice bytes with
    | .error _ => none
    | .ok envelope =>
      if envelope.payload.deviceId = w.localDeviceId then none
      else if envelope.payload.signedAtMs < w.nowMs - replayWindowMs then none
      else
        match keyOf crates w.projection envelope.payload.deviceId with
        | none => none
        | some key => if crates.verify key envelope.payload.toVec envelope.signature then some (envelope.payload,key) else none

def onPacket (w : World) (bytes : List UInt8) : World :=
  match verifiedPacket crates w bytes with
  | none => w
  | some (payload,_) =>
    { w with
      peers := w.peers.insert payload.deviceId ⟨payload.deviceId,w.nowMs,payload.endpoints,payload.evoState⟩
      received := w.received ++ [⟨payload.deviceId,w.nowMs,payload.endpoints,payload.evoState⟩]
      verified := w.verified ++ [payload] }

-- The emitter signs the time of its own clock.
def emitOne (w : World) (key : SigningKey) (deviceId : String) (endpoints : List String) (evoState : EvoState) (clockMs : Nat) : World :=
  let payload : HeartbeatPayload := ⟨deviceId,endpoints,evoState,clockMs⟩
  let envelope : HeartbeatEnvelope := ⟨payload,crates.sign key payload.toVec⟩
  if (crates.envelopeToVec envelope).length > maxHeartbeatBytes then w
  else { w with emissions := w.emissions ++ [⟨key,envelope,w.nowMs⟩] }

def step (w : World) : Action → World
  | .tick ms => { w with nowMs := w.nowMs + ms }
  | .chain entries => { w with projection := some (applied entries) }
  | .emit key deviceId endpoints evoState clockMs => emitOne crates w key deviceId endpoints evoState clockMs
  | .packet bytes => onPacket crates w bytes

def World.fresh (nowMs : Nat) (localDeviceId : String) : World := ⟨nowMs,localDeviceId,none,∅,[],[],[]⟩

def World.state (w : World) (deviceId : String) : Option TrustState :=
  w.projection.bind fun view => (view.trust[deviceId]?).map TrustProjection.state

-- A packet whose device is not admitted in the domain leaves the rows and the events as they were.
def OnlyAdmitted (w : World) : Action → Prop
  | .packet bytes => ∀ envelope,crates.envelopeFromSlice bytes = .ok envelope → w.state envelope.payload.deviceId ≠ some .admitted →
      (onPacket crates w bytes).peers = w.peers ∧ (onPacket crates w bytes).received = w.received
  | _ => True

-- Every row says what the newest of its device's verified payloads says.
def Newest (w : World) : Prop := ∀ deviceId,
  match get w.peers deviceId with
  | none => ∀ p ∈ w.verified,p.deviceId ≠ deviceId
  | some row => ∃ p ∈ w.verified,p.deviceId = deviceId ∧ row.endpoints = p.endpoints ∧ row.evoState = p.evoState ∧
      ∀ q ∈ w.verified,q.deviceId = deviceId → q.signedAtMs ≤ p.signedAtMs

-- A packet that moves a row's time was sent by the holder of the key at most the window ago.
def Timely (w : World) : Action → Prop
  | .packet bytes => ∀ found ∈ verifiedPacket crates w bytes,∃ e ∈ w.emissions,e.envelope.payload = found.1 ∧
      crates.verifyingKey e.key = found.2 ∧ w.nowMs ≤ e.atMs + replayWindowMs
  | _ => True

-- Ideal signatures: what verifies under a key was signed with it and sent.
def Unforged (w : World) : Action → Prop
  | .packet bytes => ∀ found ∈ verifiedPacket crates w bytes,∃ e ∈ w.emissions,
      crates.verifyingKey e.key = found.2 ∧ e.envelope.payload.toVec = found.1.toVec
  | _ => True

-- No emitter's clock is ahead of the receiver's. Of what verifies, nothing comes from a device whose row
-- is discarded, and nothing older than a verified payload of its device, unless the row says the same.
def InOrder (w : World) : Action → Prop
  | .emit _ _ _ _ clockMs => clockMs ≤ w.nowMs
  | .packet bytes => ∀ found ∈ verifiedPacket crates w bytes,w.state found.1.deviceId ≠ some .discarded ∧
      ((∀ q ∈ w.verified,q.deviceId = found.1.deviceId → q.signedAtMs ≤ found.1.signedAtMs) ∨
        ∃ row ∈ get w.peers found.1.deviceId,row.endpoints = found.1.endpoints ∧ row.evoState = found.1.evoState)
  | _ => True

end EvoCore.Heartbeats
