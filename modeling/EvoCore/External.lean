import Mathlib

namespace EvoCore.External

-- The external crates the witness code calls: base64 (STANDARD), sha2 and
-- ed25519_dalek. Their code is not part of the repository, so they are a
-- parameter of every function below, and what a result relies on is named.
structure VerifyingKey where
  bytes : List UInt8
deriving DecidableEq,Repr

structure SigningKey where
  seed : List UInt8
deriving DecidableEq,Repr

structure Crates where
  encode : List UInt8 → String
  decode : String → Except String (List UInt8)
  sha256 : List UInt8 → List UInt8
  verifyingKeyFromBytes : List UInt8 → Except String VerifyingKey
  signatureFromSlice : List UInt8 → Except String (List UInt8)
  verifyingKey : SigningKey → VerifyingKey
  sign : SigningKey → List UInt8 → List UInt8
  verify : VerifyingKey → List UInt8 → List UInt8 → Bool

-- What the crates document: padded base64 decodes what it encoded and accepts no
-- other spelling of it, keys and signatures have their fixed sizes, a produced key
-- parses back to itself and a produced signature verifies under its own key.
structure Documented (crates : Crates) : Prop where
  encode_empty : crates.encode [] = ""
  decode_encode : ∀ bytes,crates.decode (crates.encode bytes) = .ok bytes
  decode_canonical : ∀ text bytes,crates.decode text = .ok bytes → text = crates.encode bytes
  key_length : ∀ key,(crates.verifyingKey key).bytes.length = 32
  key_parses : ∀ key,crates.verifyingKeyFromBytes (crates.verifyingKey key).bytes = .ok (crates.verifyingKey key)
  signature_length : ∀ key message,(crates.sign key message).length = 64
  signature_slice : ∀ key message,crates.signatureFromSlice (crates.sign key message) = .ok (crates.sign key message)
  sign_verifies : ∀ key message,crates.verify (crates.verifyingKey key) message (crates.sign key message) = true

theorem Documented.encode_injective (documented : Documented crates) : Function.Injective crates.encode := by
  intro a b same
  have decoded := documented.decode_encode a
  rw [same,documented.decode_encode b] at decoded
  exact (Except.ok.inj decoded).symm

-- Ideal signatures: only the key that signed verifies.
def Ideal (crates : Crates) : Prop :=
  ∀ signer other message,crates.verify other message (crates.sign signer message) = true →
    other = crates.verifyingKey signer

def hashLength : Nat := 32
def zeroHashB64 (crates : Crates) : String := crates.encode (List.replicate hashLength 0)

theorem Documented.zero_hash_shown (documented : Documented crates) : zeroHashB64 crates ≠ "" := by
  intro blank
  have same := documented.encode_injective (blank.trans documented.encode_empty.symm)
  simp [hashLength] at same

end EvoCore.External
