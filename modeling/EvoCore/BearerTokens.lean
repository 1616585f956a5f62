import EvoCore.External
import EvoCore.Bytes
import EvoCore.JsonText
import EvoCore.Runs

namespace EvoCore.BearerTokens
open External Bytes

inductive CapabilityRequirement where
  | none
  | read (scope : String)
  | write (scope : String)
  | stepUp (scope : String)
deriving DecidableEq,Repr

inductive Capability where
  | read (scope : String)
  | write (scope : String)
  | stepUp (scope : String)
deriving DecidableEq,Repr

def Capability.scope : Capability → String
  | .read scope | .write scope | .stepUp scope => scope

def Capability.satisfies (c : Capability) : CapabilityRequirement → Bool
  | .none => true
  | .read scope => c.scope == scope
  | .write scope => c.scope == scope && match c with
    | .write _ | .stepUp _ => true
    | .read _ => false
  | .stepUp scope => c.scope == scope && match c with
    | .stepUp _ => true
    | .read _ | .write _ => false

structure CapabilitySet where
  capabilities : List Capability
deriving DecidableEq,Repr

def CapabilitySet.satisfies (caps : CapabilitySet) (req : CapabilityRequirement) : Bool :=
  req = .none || caps.capabilities.any (·.satisfies req)

-- serde's text of a capability: the tag first, then the scope.
def Capability.kind : Capability → String
  | .read _ => "read"
  | .write _ => "write"
  | .stepUp _ => "step_up"

def Capability.toJson (c : Capability) : List Char :=
  '\x7b'::(JsonText.quoted "kind" ++ ':'::(JsonText.quoted c.kind ++ ','::(JsonText.quoted "scope" ++
    ':'::(JsonText.quoted c.scope ++ ['\x7d']))))

def CapabilitySet.toVec (caps : CapabilitySet) : List UInt8 :=
  utf8 (String.ofList (JsonText.array Capability.toJson caps.capabilities))

structure BearerToken where
  id : String
  capabilities : CapabilitySet
  issuedAtMs : UInt64
  expiresAtMs : UInt64
  signatureB64 : String
deriving DecidableEq,Repr

def canonicalSigningBytes (id : String) (capabilities : CapabilitySet) (issuedAtMs expiresAtMs : UInt64) : List UInt8 :=
  utf8 id ++ [0x1f] ++ capabilities.toVec ++ [0x1f] ++ beBytes64 issuedAtMs ++ [0x1f] ++ beBytes64 expiresAtMs

def BearerToken.signingInput (token : BearerToken) : List UInt8 :=
  canonicalSigningBytes token.id token.capabilities token.issuedAtMs token.expiresAtMs

inductive TokenError where
  | badSignature
  | expired (expiresAtMs nowMs : UInt64)
  | issuedInFuture (issuedAtMs nowMs : UInt64)
  | revoked (tokenId : String)
  | capabilityMismatch (requirement : CapabilityRequirement)
  | ttlExceedsCeiling (requestedTtlMs ceilingMs : UInt64)
  | decodeError (detail : String)
deriving DecidableEq,Repr

-- The crates a token passes through besides the signatures: base64's URL_SAFE_NO_PAD and
-- serde_json's reader and writer of the token.
structure BearerCrates extends Crates where
  urlEncode : List UInt8 → String
  urlDecode : String → Except String (List UInt8)
  tokenToVec : BearerToken → List UInt8
  tokenFromSlice : List UInt8 → Except String BearerToken

structure RoundTrips (crates : BearerCrates) : Prop where
  url : ∀ bytes,crates.urlDecode (crates.urlEncode bytes) = .ok bytes
  token : ∀ t,crates.tokenFromSlice (crates.tokenToVec t) = .ok t

def signatureLen : Nat := 64
def maxTokenTtlMs : UInt64 := 100 * 365 * 24 * 60 * 60 * 1000

def saturatingAdd (a b : UInt64) : UInt64 := if a.toNat + b.toNat < 2^64 then a + b else UInt64.ofNat (2^64 - 1)

variable (crates : BearerCrates)

def BearerToken.encode (token : BearerToken) : String := crates.urlEncode (crates.tokenToVec token)

def BearerToken.decode (encoded : String) : Except TokenError BearerToken :=
  match crates.urlDecode encoded with
  | .error e => .error (.decodeError e)
  | .ok bytes =>
    match crates.tokenFromSlice bytes with
    | .error e => .error (.decodeError e)
    | .ok token => .ok token

-- The id is what the operating system's generator gave.
def issue (key : SigningKey) (id : String) (capabilities : CapabilitySet) (ttlMs nowMs : UInt64) :
    Except TokenError BearerToken :=
  if ttlMs > maxTokenTtlMs then .error (.ttlExceedsCeiling ttlMs maxTokenTtlMs)
  else
    let expiresAtMs := saturatingAdd nowMs ttlMs
    let signature := crates.sign key (canonicalSigningBytes id capabilities nowMs expiresAtMs)
    .ok ⟨id,capabilities,nowMs,expiresAtMs,crates.encode signature⟩

structure RevocationList where
  revoked : List String
deriving DecidableEq,Repr

def RevocationList.revoke (list : RevocationList) (tokenId : String) : RevocationList := ⟨list.revoked.insert tokenId⟩
def RevocationList.isRevoked (list : RevocationList) (tokenId : String) : Bool := list.revoked.contains tokenId

structure BearerTokenValidator where
  verifyingKey : VerifyingKey
  revocations : RevocationList
deriving DecidableEq,Repr

def BearerTokenValidator.verify (validator : BearerTokenValidator) (token : BearerToken) (nowMs : UInt64) :
    Except TokenError Unit :=
  if validator.revocations.isRevoked token.id then .error (.revoked token.id)
  else if token.issuedAtMs > nowMs then .error (.issuedInFuture token.issuedAtMs nowMs)
  else if token.expiresAtMs ≤ nowMs then .error (.expired token.expiresAtMs nowMs)
  else
    match crates.decode token.signatureB64 with
    | .error e => .error (.decodeError e)
    | .ok signature =>
      if signature.length ≠ signatureLen then
        .error (.decodeError s!"signature must be {signatureLen} bytes, got {signature.length}")
      else if crates.verify validator.verifyingKey token.signingInput signature then .ok ()
      else .error .badSignature

def BearerTokenValidator.checkCapability (validator : BearerTokenValidator) (token : BearerToken)
    (requirement : CapabilityRequirement) (nowMs : UInt64) : Except TokenError Unit :=
  match validator.verify crates token nowMs with
  | .error e => .error e
  | .ok () => if token.capabilities.satisfies requirement then .ok () else .error (.capabilityMismatch requirement)

-- What a token in force is, by the clock and the revocations.
structure InForce (validator : BearerTokenValidator) (token : BearerToken) (nowMs : UInt64) : Prop where
  started : token.issuedAtMs ≤ nowMs
  current : nowMs < token.expiresAtMs
  unrevoked : validator.revocations.isRevoked token.id = false

-- Whose signature the token carries, read as the validator reads it.
def Signed (key : VerifyingKey) (token : BearerToken) : Prop :=
  ∃ signature,crates.decode token.signatureB64 = .ok signature ∧ signature.length = signatureLen ∧
    crates.verify key token.signingInput signature = true

variable {crates} {validator : BearerTokenValidator} {token : BearerToken} {req : CapabilityRequirement} {nowMs : UInt64}

theorem verify_ok : validator.verify crates token nowMs = .ok () ↔
    InForce validator token nowMs ∧ Signed crates validator.verifyingKey token := by
  unfold BearerTokenValidator.verify
  constructor
  · intro accepted
    split at accepted
    · cases accepted
    · rename_i unrevoked
      split at accepted
      · cases accepted
      · rename_i started
        split at accepted
        · cases accepted
        · rename_i current
          split at accepted
          · cases accepted
          · rename_i signature decoded
            split at accepted
            · cases accepted
            · rename_i sized
              split at accepted
              · rename_i verified
                exact ⟨⟨by simpa [UInt64.lt_iff_toNat_lt,UInt64.le_iff_toNat_le] using started,
                  by simpa [UInt64.lt_iff_toNat_lt,UInt64.le_iff_toNat_le] using current,by simpa using unrevoked⟩,
                  signature,decoded,not_not.mp sized,verified⟩
              · cases accepted
  · rintro ⟨⟨started,current,unrevoked⟩,signature,decoded,sized,verified⟩
    have started : ¬ token.issuedAtMs > nowMs := by
      simpa [UInt64.lt_iff_toNat_lt,UInt64.le_iff_toNat_le] using started
    have current : ¬ token.expiresAtMs ≤ nowMs := by
      simpa [UInt64.lt_iff_toNat_lt,UInt64.le_iff_toNat_le] using current
    simp [unrevoked,started,current,decoded,sized,verified]

theorem check_ok : validator.checkCapability crates token req nowMs = .ok () ↔
    validator.verify crates token nowMs = .ok () ∧ token.capabilities.satisfies req = true := by
  unfold BearerTokenValidator.checkCapability
  cases validator.verify crates token nowMs with
  | error e => simp
  | ok held => simp

theorem decode_encode (trips : RoundTrips crates) (token : BearerToken) :
    BearerToken.decode crates (token.encode crates) = .ok token := by
  simp [BearerToken.decode,BearerToken.encode,trips.url,trips.token]

@[simp] theorem isRevoked_revoke (list : RevocationList) (id other : String) :
    (list.revoke id).isRevoked other = true ↔ other = id ∨ list.isRevoked other = true := by
  simp [RevocationList.revoke,RevocationList.isRevoked]

end EvoCore.BearerTokens
