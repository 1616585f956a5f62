import EvoCore.Bytes
import EvoCore.External
import EvoCore.HashLinks

namespace EvoCore.DomainEntries
open Bytes External

structure NetworkEndpoint where
  networkId : String
  address : String
  port : UInt16
deriving DecidableEq,Repr

inductive NetworkReach where
  | localL2
  | routedL3
deriving DecidableEq,Repr

structure NetworkDeclaration where
  networkId : String
  endpoint : NetworkEndpoint
  reach : NetworkReach
deriving DecidableEq,Repr

inductive RelayCapability where
  | chainForward
  | presenceCorrelate
  | endpointResolution
deriving DecidableEq,Repr

inductive DomainStateOp where
  | admitPeer (deviceId displayName publicKeyB64 : String) (endpoints : List NetworkEndpoint)
  | discardPeer (deviceId : String) (reason : Option String)
  | renamePeerDisplayName (deviceId newDisplayName : String)
  | updatePeerEndpoints (deviceId : String) (endpoints : List NetworkEndpoint)
  | createGroup (groupId displayName : String) (initialMembers : List String)
  | deleteGroup (groupId : String)
  | renameGroup (groupId newDisplayName : String)
  | addMemberToGroup (groupId deviceId : String)
  | removeMemberFromGroup (groupId deviceId : String)
  | moveMember (deviceId fromGroupId toGroupId : String)
  | setGroupLeader (groupId leaderDeviceId : String)
  | setGroupLeaderMs (groupId : String) (leaderMs : UInt32)
  | selectSuccessorOnLeaderRemoval (groupId successorDeviceId : String)
  | cancelSuccessorSelection (groupId : String)
  | pinSourceHost (groupId sourceHostDeviceId : String)
  | unpinSourceHost (groupId : String)
  | declareNetworkRelay (networks : List NetworkDeclaration) (capabilities : List RelayCapability)
deriving DecidableEq,Repr

def DomainStateOp.isAdmitPeer : DomainStateOp → Bool
  | .admitPeer .. => true
  | _ => false

structure WitnessId where
  value : String
deriving DecidableEq,Repr

structure DomainWitness where
  id : WitnessId
  prevHashB64 : String
  tsNs : UInt64
  originatorDeviceId : String
  originatorEndpoints : List NetworkEndpoint
  op : DomainStateOp
  signatureB64 : String
deriving DecidableEq,Repr

inductive WitnessError where
  | encoding (detail : String)
  | signatureDecode (detail : String)
  | badSignature (witnessId : String)
  | hashMismatch (witnessId declaredHex expectedHex : String)
  | emptyChain
deriving DecidableEq,Repr

-- serde_json on the domain types. Serialising these types cannot fail: there is
-- no map with a non-string key and no float in them.
structure DomainCrates extends Crates where
  endpointsToVec : List NetworkEndpoint → List UInt8
  opToVec : DomainStateOp → List UInt8
  witnessToString : DomainWitness → String
  witnessFromString : String → Except String DomainWitness

variable (crates : DomainCrates)

def canonicalSigningBytes (prevHashB64 : String) (tsNs : UInt64) (originatorDeviceId : String)
    (originatorEndpoints : List NetworkEndpoint) (op : DomainStateOp) : List UInt8 :=
  utf8 prevHashB64 ++ [0x1f] ++ beBytes64 tsNs ++ [0x1f] ++ utf8 originatorDeviceId ++ [0x1f] ++
    crates.endpointsToVec originatorEndpoints ++ [0x1f] ++ crates.opToVec op

def signingInput (w : DomainWitness) : List UInt8 :=
  canonicalSigningBytes crates w.prevHashB64 w.tsNs w.originatorDeviceId w.originatorEndpoints w.op

def canonicalHash (w : DomainWitness) : List UInt8 := crates.sha256 (utf8 (crates.witnessToString w))
def canonicalHashB64 (w : DomainWitness) : String := crates.encode (canonicalHash crates w)
def zeroPrevHashB64 : String := zeroHashB64 crates.toCrates

-- WitnessId::generate draws the id; here the drawn id is an argument.
def sign (signingKey : SigningKey) (id : WitnessId) (prevHashB64 : String) (tsNs : UInt64)
    (originatorDeviceId : String) (originatorEndpoints : List NetworkEndpoint) (op : DomainStateOp) : DomainWitness :=
  let input := canonicalSigningBytes crates prevHashB64 tsNs originatorDeviceId originatorEndpoints op
  ⟨id,prevHashB64,tsNs,originatorDeviceId,originatorEndpoints,op,crates.encode (crates.sign signingKey input)⟩

def verify (w : DomainWitness) (verifyingKey : VerifyingKey) : Except WitnessError Unit :=
  match crates.decode w.signatureB64 with
  | .error detail => .error (.signatureDecode detail)
  | .ok sigBytes =>
    match crates.signatureFromSlice sigBytes with
    | .error detail => .error (.signatureDecode detail)
    | .ok signature =>
      if crates.verify verifyingKey (signingInput crates w) signature then .ok ()
      else .error (.badSignature w.id.value)

-- Rust compares strings by their UTF-8 bytes, which orders them as their code
-- points do.
def linearisationCmp (w other : DomainWitness) : Ordering :=
  (compare w.tsNs other.tsNs).then (compare w.originatorDeviceId other.originatorDeviceId)

theorem linearisation_eq : linearisationCmp a b = .eq ↔
    a.tsNs = b.tsNs ∧ a.originatorDeviceId = b.originatorDeviceId := by
  simp [linearisationCmp,Ordering.then_eq_eq]

theorem linearisation_lex : linearisationCmp =
    compareLex (compareOn DomainWitness.tsNs) (compareOn DomainWitness.originatorDeviceId) := rfl

theorem linearisation_asymm : linearisationCmp a b = .gt ↔ linearisationCmp b a = .lt := by
  rw [linearisation_lex]
  exact Std.OrientedCmp.gt_iff_lt

theorem linearisation_trans (ab : linearisationCmp a b = .lt) (bc : linearisationCmp b c = .lt) :
    linearisationCmp a c = .lt := by
  rw [linearisation_lex] at ab bc ⊢
  exact Std.TransCmp.lt_trans ab bc

theorem earlier_first (earlier : a.tsNs < b.tsNs) : linearisationCmp a b = .lt := by
  simp [linearisationCmp,Std.compare_eq_lt.mpr earlier]

-- Serde as documented: a written witness reads back, and its text is an object,
-- so never a blank line.
structure SerdeDocumented (crates : DomainCrates) : Prop where
  read_back : ∀ w,crates.witnessFromString (crates.witnessToString w) = .ok w
  opens_object : ∀ w,(crates.witnessToString w).toList.head? = some '\x7b'

def CollisionFree (crates : DomainCrates) : Prop :=
  HashLinks.Free (canonicalHashB64 crates) (zeroPrevHashB64 crates)

theorem verify_sign (documented : Documented crates.toCrates) :
    verify crates (sign crates key identifier prev ts originator endpoints op) (crates.verifyingKey key) = .ok () := by
  simp [verify,sign,signingInput,documented.decode_encode,documented.signature_slice,documented.sign_verifies]

theorem verify_sign_other (documented : Documented crates.toCrates) (ideal : Ideal crates.toCrates)
    (different : other ≠ crates.verifyingKey key) :
    verify crates (sign crates key identifier prev ts originator endpoints op) other = .error (.badSignature identifier.value) := by
  have refused : crates.verify other (canonicalSigningBytes crates prev ts originator endpoints op)
      (crates.sign key (canonicalSigningBytes crates prev ts originator endpoints op)) = false := by
    rw [Bool.eq_false_iff]
    exact fun accepted => different (ideal key other _ accepted)
  simp [verify,sign,signingInput,documented.decode_encode,documented.signature_slice,refused]

end EvoCore.DomainEntries
