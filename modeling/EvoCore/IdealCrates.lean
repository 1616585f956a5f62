import EvoCore.AuditRecords

namespace EvoCore.IdealCrates
open External DomainEntries
open AuditRecords (SpanId DispatchOutcome Witness AggregateCount WitnessRollUpSummary ChainRecord AuditCrates)

-- One concrete library with the documented and the ideal behaviour, so that no
-- assumption about the crates is vacuous. A serialised value is an opening brace
-- and then as many letters as the value's number in an enumeration of its type.
instance encodableString : Encodable String := Encodable.ofLeftInjection (fun s => s.toList.map Char.toNat)
  (fun codes => some (String.ofList (codes.map Char.ofNat))) (by intro s; simp [Function.comp_def])
instance encodableUInt64 : Encodable UInt64 := Encodable.ofLeftInjection UInt64.toNat (fun n => some (UInt64.ofNat n)) (by simp)
instance encodableUInt32 : Encodable UInt32 := Encodable.ofLeftInjection UInt32.toNat (fun n => some (UInt32.ofNat n)) (by simp)
instance encodableUInt16 : Encodable UInt16 := Encodable.ofLeftInjection UInt16.toNat (fun n => some (UInt16.ofNat n)) (by simp)

deriving instance Encodable for NetworkEndpoint
deriving instance Encodable for NetworkReach
deriving instance Encodable for NetworkDeclaration
deriving instance Encodable for RelayCapability
deriving instance Encodable for DomainStateOp
deriving instance Encodable for WitnessId
deriving instance Encodable for DomainWitness
deriving instance Encodable for SpanId
deriving instance Encodable for DispatchOutcome
deriving instance Encodable for Witness
deriving instance Encodable for AggregateCount
deriving instance Encodable for WitnessRollUpSummary
deriving instance Encodable for ChainRecord

def letter (byte : UInt8) : Char := Char.ofNat (byte.toNat + 65)

theorem letter_toNat (byte : UInt8) : (letter byte).toNat = byte.toNat + 65 := by
  have bound := byte.toNat_lt
  have valid : (byte.toNat + 65).isValidChar := .inl (by omega)
  simp only [letter,Char.ofNat,dif_pos valid]
  rfl

def encode (bytes : List UInt8) : String := String.ofList (bytes.map letter)

def decode (text : String) : Except String (List UInt8) :=
  if text.toList.all (fun c => 65 ≤ c.toNat && c.toNat < 321) then
    .ok (text.toList.map fun c => UInt8.ofNat (c.toNat - 65))
  else .error "Invalid byte"

theorem decode_encode (bytes : List UInt8) : decode (encode bytes) = .ok bytes := by
  have inRange : (bytes.map letter).all (fun c => 65 ≤ c.toNat && c.toNat < 321) = true := by
    simp only [List.all_eq_true,List.mem_map,Bool.and_eq_true,decide_eq_true_eq]
    rintro c ⟨byte,_,rfl⟩
    have bound := byte.toNat_lt
    rw [letter_toNat]
    omega
  have back : (fun c : Char => UInt8.ofNat (c.toNat - 65)) ∘ letter = id := by
    funext byte
    simp [letter_toNat]
  simp only [decode,encode,String.toList_ofList,inRange,if_true,List.map_map,back,List.map_id]

theorem decode_canonical (text : String) (bytes : List UInt8) (decoded : decode text = .ok bytes) :
    text = encode bytes := by
  unfold decode at decoded
  split at decoded
  · rename_i inRange
    cases Except.ok.inj decoded
    rw [encode,List.map_map]
    have same : text.toList.map (letter ∘ fun c => UInt8.ofNat (c.toNat - 65)) = text.toList := by
      refine (List.map_congr_left fun c member => ?_).trans (List.map_id _)
      have bounds := List.all_eq_true.mp inRange c member
      simp only [Bool.and_eq_true,decide_eq_true_eq] at bounds
      have code : (UInt8.ofNat (c.toNat - 65)).toNat + 65 = c.toNat := by
        rw [UInt8.toNat_ofNat']; omega
      simp only [Function.comp_apply,letter,code,Char.ofNat_toNat,id_eq]
    rw [same,String.ofList_toList]
  · cases decoded

def padded (length : Nat) (bytes : List UInt8) : List UInt8 := (bytes ++ List.replicate length 0).take length

theorem padded_length (length : Nat) (bytes : List UInt8) : (padded length bytes).length = length := by
  simp [padded]

def library : Crates where
  encode := encode
  decode := decode
  sha256 bytes := 1::bytes
  verifyingKeyFromBytes bytes := .ok ⟨bytes⟩
  signatureFromSlice bytes := if bytes.length = 64 then .ok bytes else .error "signature error"
  verifyingKey key := ⟨padded 32 key.seed⟩
  sign key message := padded 32 key.seed ++ padded 32 message
  verify key message signature := signature == key.bytes ++ padded 32 message

theorem library_documented : Documented library where
  encode_empty := rfl
  decode_encode := decode_encode
  decode_canonical := decode_canonical
  key_length _ := padded_length _ _
  key_parses _ := rfl
  signature_length _ _ := by simp [library,padded_length]
  signature_slice _ _ := by simp [library,padded_length]
  sign_verifies _ _ := by simp [library]

theorem library_ideal : Ideal library := by
  intro signer other message accepted
  have same : padded 32 signer.seed ++ padded 32 message = other.bytes ++ padded 32 message := by
    simpa [library] using accepted
  have keys := List.append_cancel_right same
  cases other
  simp only [library] at keys ⊢
  rw [keys]

def numbered [Encodable α] (value : α) : String :=
  String.ofList ('\x7b' :: List.replicate (Encodable.encode value) 'a')

theorem numbered_length [Encodable α] (value : α) : (numbered value).toList.length = Encodable.encode value + 1 := by
  simp [numbered]

def domainLibrary : DomainCrates where
  toCrates := library
  endpointsToVec endpoints := Bytes.utf8 (numbered endpoints)
  opToVec op := Bytes.utf8 (numbered op)
  witnessToString := numbered
  witnessFromString text :=
    match Encodable.decode (text.toList.length - 1) with
    | some w => .ok w
    | none => .error "expected value"

theorem domainLibrary_documented : Documented domainLibrary.toCrates := library_documented
theorem domainLibrary_ideal : Ideal domainLibrary.toCrates := library_ideal
theorem domainLibrary_key (key : SigningKey) : domainLibrary.verifyingKey key = ⟨padded 32 key.seed⟩ := rfl

theorem numbered_injective [Encodable α] : Function.Injective (numbered (α := α)) := by
  intro a b same
  have lengths := congrArg (fun text => text.toList.length) same
  simp only [numbered_length,Nat.add_right_cancel_iff] at lengths
  exact Encodable.encode_injective lengths

theorem domainLibrary_serde : SerdeDocumented domainLibrary where
  read_back w := by simp [domainLibrary,numbered_length]
  opens_object w := by simp [domainLibrary,numbered]

theorem domainLibrary_free : CollisionFree domainLibrary where
  injective a b same := by
    have digests := library_documented.encode_injective same
    exact numbered_injective (Bytes.utf8_injective (List.cons.inj digests).2)
  fresh w met := by
    have digests := library_documented.encode_injective met
    exact absurd (List.cons.inj digests).1 (by decide)

def auditLibrary : AuditCrates where
  toCrates := library
  witnessToVec w := Bytes.utf8 (numbered (ChainRecord.witness w))
  summaryToVec s := Bytes.utf8 (numbered (ChainRecord.rollUpSummary s))

theorem auditLibrary_documented : Documented auditLibrary.toCrates := library_documented

theorem auditLibrary_hash (r : ChainRecord) :
    AuditRecords.canonicalHash auditLibrary r = 1::Bytes.utf8 (numbered r) := by
  cases r <;> simp only [AuditRecords.canonicalHash,auditLibrary,library]

theorem auditLibrary_free :
    HashLinks.Free (AuditRecords.canonicalHashB64 auditLibrary) (AuditRecords.zeroPrevHashB64 auditLibrary) where
  injective a b same := by
    have digests := library_documented.encode_injective same
    rw [auditLibrary_hash,auditLibrary_hash] at digests
    exact numbered_injective (Bytes.utf8_injective (List.cons.inj digests).2)
  fresh r met := by
    have digests := library_documented.encode_injective met
    rw [auditLibrary_hash] at digests
    exact absurd (List.cons.inj digests).1 (by decide)

theorem auditLibrary_alphabet (bytes : List UInt8) : '\x1f' ∉ (auditLibrary.encode bytes).toList := by
  intro member
  simp only [auditLibrary,library,encode,String.toList_ofList,List.mem_map] at member
  obtain ⟨byte,_,control⟩ := member
  have code := letter_toNat byte
  rw [control] at code
  have small : ('\x1f' : Char).toNat = 31 := rfl
  omega

-- Nothing should ever evaluate the numbers behind the texts.
attribute [irreducible] domainLibrary auditLibrary

end EvoCore.IdealCrates
