import EvoCore.BearerTokens
import EvoCore.IdealCrates

namespace EvoCore.BearerTokens
open External Bytes JsonText Runs Fields

variable {crates : BearerCrates} {key : SigningKey} {token granted : BearerToken} {req : CapabilityRequirement}
  {nowMs : UInt64}

-- A capability covers a requirement when it stands at least as high on the same scope.
def Capability.rank : Capability → Nat
  | .read _ => 1
  | .write _ => 2
  | .stepUp _ => 3

def CapabilityRequirement.rank : CapabilityRequirement → Nat
  | .none => 0
  | .read _ => 1
  | .write _ => 2
  | .stepUp _ => 3

def CapabilityRequirement.scope : CapabilityRequirement → Option String
  | .none => Option.none
  | .read scope | .write scope | .stepUp scope => some scope

def Covers (c : Capability) (req : CapabilityRequirement) : Prop :=
  req.rank ≤ c.rank ∧ ∀ scope,req.scope = some scope → c.scope = scope

def Meets (caps : CapabilitySet) (req : CapabilityRequirement) : Prop :=
  req = .none ∨ ∃ c ∈ caps.capabilities,Covers c req

theorem satisfies_covers (c : Capability) (req : CapabilityRequirement) : c.satisfies req = true ↔ Covers c req := by
  cases req <;> cases c <;>
    simp [Capability.satisfies,Covers,Capability.scope,Capability.rank,CapabilityRequirement.rank,CapabilityRequirement.scope]

theorem satisfies_meets (caps : CapabilitySet) (req : CapabilityRequirement) : caps.satisfies req = true ↔ Meets caps req := by
  simp [CapabilitySet.satisfies,Meets,satisfies_covers]

theorem kind_scope {c d : Capability} (kinds : c.kind = d.kind) (scopes : c.scope = d.scope) : c = d := by
  cases c <;> cases d <;> simp_all [Capability.kind,Capability.scope]

theorem toJson_delimited : SelfDelimiting Capability.toJson := by
  intro c d x y same
  simp only [Capability.toJson,List.cons_append,List.append_assoc,List.cons.injEq,true_and,List.append_cancel_left_eq] at same
  obtain ⟨kinds,rest⟩ := quoted_delimited _ _ _ _ same
  simp only [List.cons.injEq,true_and,List.append_cancel_left_eq] at rest
  obtain ⟨scopes,last⟩ := quoted_delimited _ _ _ _ rest
  exact ⟨kind_scope kinds scopes,(List.cons.inj last).2⟩

theorem toJson_opens (c : Capability) (x y : List Char) : c.toJson ++ x ≠ ']'::y :=
  fun same => absurd (List.cons.inj same).1 (by decide)

theorem toJson_printed (c : Capability) : Printed c.toJson := by
  simp only [Capability.toJson,printed_cons,printed_append,quoted_printed,true_and]
  exact ⟨by decide,by decide,by decide,by decide,by decide,printed_nil⟩

theorem toVec_injective : Function.Injective CapabilitySet.toVec := by
  intro a b same
  have texts := String.ofList_injective (utf8_injective same)
  have lists := (array_delimited toJson_delimited toJson_opens).injective texts
  cases a
  cases b
  exact congrArg CapabilitySet.mk lists

-- The separator cannot stand in the JSON text, so that the last one before the times is found
-- again whatever the id holds.
theorem toVec_free (caps : CapabilitySet) : (0x1f : UInt8) ∉ caps.toVec := by
  intro member
  have ascii : ('\x1f' : Char).toNat < 128 := by decide
  have inText := ascii_mem_utf8 ascii member
  rw [String.toList_ofList] at inText
  exact absurd (array_printed toJson_printed _ _ inText) (by decide)

theorem signingInput_injective (same : granted.signingInput = token.signingInput) :
    granted.id = token.id ∧ granted.capabilities = token.capabilities ∧ granted.issuedAtMs = token.issuedAtMs ∧
      granted.expiresAtMs = token.expiresAtMs := by
  simp only [BearerToken.signingInput,canonicalSigningBytes,List.append_assoc] at same
  rw [← List.append_assoc (utf8 granted.id),← List.append_assoc (utf8 token.id),
    ← List.append_assoc _ granted.capabilities.toVec,← List.append_assoc _ token.capabilities.toVec] at same
  obtain ⟨front,times⟩ := List.append_inj' same (by simp)
  simp only [List.append_assoc,List.singleton_append] at front times
  obtain ⟨ids,caps⟩ := last_field_inj (toVec_free _) (toVec_free _) front
  obtain ⟨issued,expires⟩ := List.append_inj (List.cons.inj times).2 (by simp)
  exact ⟨utf8_injective ids,toVec_injective caps,beBytes64_injective issued,beBytes64_injective (List.cons.inj expires).2⟩

-- The operator's calls in any order. An issue leaves nothing behind but the token it returns.
inductive Call where
  | issue (id : String) (capabilities : CapabilitySet) (ttlMs nowMs : UInt64)
  | revoke (tokenId : String)
deriving DecidableEq,Repr

def take (list : RevocationList) : Call → RevocationList
  | .issue .. => list
  | .revoke tokenId => list.revoke tokenId

def validatorAfter (crates : BearerCrates) (key : SigningKey) (calls : List Call) : BearerTokenValidator :=
  ⟨crates.verifyingKey key,run take ⟨[]⟩ calls⟩

def Issued (crates : BearerCrates) (key : SigningKey) (calls : List Call) (token : BearerToken) : Prop :=
  ∃ id caps ttlMs nowMs,Call.issue id caps ttlMs nowMs ∈ calls ∧ issue crates key id caps ttlMs nowMs = .ok token

-- The ideal scheme: a signature that verifies under the device's key is on bytes the issuer signed.
def Unforged (crates : BearerCrates) (key : SigningKey) (calls : List Call) (token : BearerToken) : Prop :=
  Signed crates (crates.verifyingKey key) token → ∃ granted,Issued crates key calls granted ∧
    granted.signingInput = token.signingInput

theorem revoked_run (list : RevocationList) (calls : List Call) (id : String) :
    (run take list calls).isRevoked id = true ↔ Call.revoke id ∈ calls ∨ list.isRevoked id = true := by
  induction calls generalizing list with
  | nil => simp
  | cons call rest ih =>
    rw [run_cons,ih]
    cases call with
    | issue other caps ttlMs nowMs => simp [take]
    | revoke other => simp [take,or_assoc,or_left_comm]

theorem revoked_after (calls : List Call) (id : String) :
    (validatorAfter crates key calls).revocations.isRevoked id = true ↔ Call.revoke id ∈ calls := by
  have from_ := revoked_run ⟨[]⟩ calls id
  exact from_.trans (by simp [RevocationList.isRevoked])

theorem issue_ok {id : String} {caps : CapabilitySet} {ttlMs : UInt64} (issued : issue crates key id caps ttlMs nowMs = .ok token) :
    token = ⟨id,caps,nowMs,saturatingAdd nowMs ttlMs,
      crates.encode (crates.sign key (canonicalSigningBytes id caps nowMs (saturatingAdd nowMs ttlMs)))⟩ := by
  unfold issue at issued
  split at issued
  · cases issued
  · exact (Except.ok.inj issued).symm

theorem issued_signed (documented : Documented crates.toCrates) (issued : Issued crates key calls token) :
    Signed crates (crates.verifyingKey key) token := by
  obtain ⟨id,caps,ttlMs,nowMs,_,ok⟩ := issued
  rw [issue_ok ok]
  exact ⟨_,documented.decode_encode _,documented.signature_length _ _,documented.sign_verifies _ _⟩

-- A call in the run is the only way to a token the validator takes.
theorem accepted_issued (unforged : Unforged crates key calls token)
    (accepted : (validatorAfter crates key calls).checkCapability crates token req nowMs = .ok ()) :
    ∃ granted,Issued crates key calls granted ∧ granted.id = token.id ∧ granted.capabilities = token.capabilities ∧
      granted.issuedAtMs = token.issuedAtMs ∧ granted.expiresAtMs = token.expiresAtMs ∧
      granted.issuedAtMs ≤ nowMs ∧ nowMs < granted.expiresAtMs ∧ Call.revoke granted.id ∉ calls ∧
      Meets granted.capabilities req := by
  obtain ⟨verified,satisfied⟩ := check_ok.mp accepted
  obtain ⟨inForce,signed⟩ := verify_ok.mp verified
  obtain ⟨granted,issued,same⟩ := unforged signed
  obtain ⟨ids,caps,started,expires⟩ := signingInput_injective same
  refine ⟨granted,issued,ids,caps,started,expires,started ▸ inForce.started,expires ▸ inForce.current,?_,?_⟩
  · intro revoked
    rw [ids] at revoked
    exact absurd ((revoked_after calls token.id).mpr revoked) (by rw [inForce.unrevoked]; decide)
  · rw [caps]
    exact (satisfies_meets _ _).mp satisfied

theorem issued_accepted (documented : Documented crates.toCrates) (issued : Issued crates key calls token)
    (started : token.issuedAtMs ≤ nowMs) (current : nowMs < token.expiresAtMs) (kept : Call.revoke token.id ∉ calls)
    (meets : Meets token.capabilities req) :
    (validatorAfter crates key calls).checkCapability crates token req nowMs = .ok () := by
  have unrevoked : (validatorAfter crates key calls).revocations.isRevoked token.id = false := by
    rw [Bool.eq_false_iff]
    exact fun revoked => kept ((revoked_after calls token.id).mp revoked)
  exact check_ok.mpr ⟨verify_ok.mpr ⟨⟨started,current,unrevoked⟩,issued_signed documented issued⟩,(satisfies_meets _ _).mpr meets⟩

-- Both directions. A requirement of no capability is met by the empty set too, and a clock that
-- has gone back behind an issue does not read its token yet.
theorem integrity (documented : Documented crates.toCrates) (trips : RoundTrips crates) (key : SigningKey) (calls : List Call) :
    (∀ presented token req nowMs,BearerToken.decode crates presented = .ok token → Unforged crates key calls token →
      (validatorAfter crates key calls).checkCapability crates token req nowMs = .ok () →
      ∃ granted,Issued crates key calls granted ∧ granted.id = token.id ∧ granted.capabilities = token.capabilities ∧
        granted.issuedAtMs = token.issuedAtMs ∧ granted.expiresAtMs = token.expiresAtMs ∧
        granted.issuedAtMs ≤ nowMs ∧ nowMs < granted.expiresAtMs ∧ Call.revoke granted.id ∉ calls ∧
        Meets granted.capabilities req) ∧
    ∀ token req nowMs,Issued crates key calls token → token.issuedAtMs ≤ nowMs → nowMs < token.expiresAtMs →
      Call.revoke token.id ∉ calls → Meets token.capabilities req →
      BearerToken.decode crates (token.encode crates) = .ok token ∧
        (validatorAfter crates key calls).checkCapability crates token req nowMs = .ok () := by
  constructor
  · intro presented token req nowMs _ unforged accepted
    exact accepted_issued unforged accepted
  · intro token req nowMs issued started current kept meets
    exact ⟨decode_encode trips token,issued_accepted documented issued started current kept meets⟩

-- A concrete library. A serialised token is again a brace and as many letters as its number.
instance encodableCapability : Encodable Capability := Encodable.ofLeftInjection (fun c => (c.rank,c.scope))
  (fun p => some (match p.1 with | 1 => .read p.2 | 2 => .write p.2 | _ => .stepUp p.2)) (by intro c; cases c <;> rfl)

instance encodableToken : Encodable BearerToken := Encodable.ofLeftInjection
  (fun t => (t.id,t.capabilities.capabilities,t.issuedAtMs,t.expiresAtMs,t.signatureB64))
  (fun p => some ⟨p.1,⟨p.2.1⟩,p.2.2.1,p.2.2.2.1,p.2.2.2.2⟩) (by intro t; rfl)

def bearerLibrary : BearerCrates where
  toCrates := IdealCrates.library
  urlEncode := IdealCrates.encode
  urlDecode := IdealCrates.decode
  tokenToVec t := List.replicate (Encodable.encode t) 0
  tokenFromSlice bytes :=
    match Encodable.decode bytes.length with
    | some t => .ok t
    | none => .error "expected value"

theorem bearerLibrary_trips : RoundTrips bearerLibrary where
  url := IdealCrates.decode_encode
  token t := by simp [bearerLibrary]

def deviceKey : SigningKey := ⟨[7]⟩
def holder : CapabilitySet := ⟨[.write "plugins"]⟩

def granting (caps : CapabilitySet) : BearerToken :=
  ⟨"id",caps,1000,6000,bearerLibrary.encode (bearerLibrary.sign deviceKey (canonicalSigningBytes "id" caps 1000 6000))⟩

theorem granting_issued (caps : CapabilitySet) :
    Issued bearerLibrary deviceKey [.issue "id" caps 5000 1000] (granting caps) :=
  ⟨"id",caps,5000,1000,List.mem_singleton_self _,rfl⟩

-- The holder's token is accepted, and traced back to its issue.
theorem integrity_held :
    (validatorAfter bearerLibrary deviceKey [.issue "id" holder 5000 1000]).checkCapability bearerLibrary (granting holder)
      (.read "plugins") 1500 = .ok () ∧
    ∃ granted,Issued bearerLibrary deviceKey [.issue "id" holder 5000 1000] granted ∧ granted.capabilities = holder ∧
      (1500 : UInt64) < granted.expiresAtMs := by
  obtain ⟨taken,accepts⟩ := integrity IdealCrates.library_documented bearerLibrary_trips deviceKey [.issue "id" holder 5000 1000]
  obtain ⟨decoded,accepted⟩ := accepts (granting holder) (.read "plugins") 1500 (granting_issued holder) (by decide) (by decide) (by simp)
    (.inr ⟨.write "plugins",List.mem_singleton_self _,(satisfies_covers _ _).mp (by decide)⟩)
  have unforged : Unforged bearerLibrary deviceKey [.issue "id" holder 5000 1000] (granting holder) :=
    fun _ => ⟨granting holder,granting_issued holder,rfl⟩
  obtain ⟨granted,issued,_,caps,_,_,_,current,_⟩ := taken _ (granting holder) (.read "plugins") 1500 decoded unforged accepted
  exact ⟨accepted,granted,issued,caps,current⟩

-- An empty set is taken where nothing is required, and a token is refused before its issue.
theorem empty_taken :
    (Issued bearerLibrary deviceKey [.issue "id" ⟨[]⟩ 5000 1000] (granting ⟨[]⟩) ∧
      BearerToken.decode bearerLibrary ((granting ⟨[]⟩).encode bearerLibrary) = .ok (granting ⟨[]⟩) ∧
      (validatorAfter bearerLibrary deviceKey [.issue "id" ⟨[]⟩ 5000 1000]).checkCapability bearerLibrary (granting ⟨[]⟩)
        .none 1500 = .ok () ∧ ¬ ∃ c ∈ (granting ⟨[]⟩).capabilities.capabilities,Covers c .none) ∧
    (Issued bearerLibrary deviceKey [.issue "id" holder 5000 1000] (granting holder) ∧
      (500 : UInt64) < (granting holder).expiresAtMs ∧ Call.revoke (granting holder).id ∉ [.issue "id" holder 5000 1000] ∧
      Meets (granting holder).capabilities (.read "plugins") ∧
      (validatorAfter bearerLibrary deviceKey [.issue "id" holder 5000 1000]).checkCapability bearerLibrary (granting holder)
        (.read "plugins") 500 = .error (.issuedInFuture 1000 500)) := by
  refine ⟨⟨granting_issued _,decode_encode bearerLibrary_trips _,?_,by simp [granting]⟩,
    granting_issued _,by decide,by simp,.inr ⟨.write "plugins",List.mem_singleton_self _,(satisfies_covers _ _).mp (by decide)⟩,?_⟩
  · exact issued_accepted IdealCrates.library_documented (granting_issued _) (by decide) (by decide) (by simp) (.inl rfl)
  · simp [BearerTokenValidator.checkCapability,BearerTokenValidator.verify,validatorAfter,run,take,
      RevocationList.isRevoked,granting]

end EvoCore.BearerTokens
