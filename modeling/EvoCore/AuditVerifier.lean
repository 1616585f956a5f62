import EvoCore.AuditChain
import EvoCore.IdealCrates

namespace EvoCore.AuditVerifier
open External AuditRecords AuditChain HashLinks Runs Tilings IdealCrates
open DomainEntries (WitnessId WitnessError)

inductive WitnessVerification where
  | verified (witnessId : String)
  | badSignature (witnessId : String)
  | hashMismatch (witnessId declaredPrevHashB64 expectedPrevHashB64 : String)
  | signatureDecode (witnessId detail : String)
deriving DecidableEq,Repr

def WitnessVerification.ok : WitnessVerification → Bool
  | .verified _ => true
  | _ => false

structure ChainVerification where
  allVerified : Bool
  entries : List WitnessVerification
deriving DecidableEq,Repr

variable (crates : AuditCrates)

def decodeSignatureOrRecordFailure (witnessId signatureB64 : String) (entries : List WitnessVerification) :
    Option (List UInt8) × List WitnessVerification :=
  match crates.decode signatureB64 with
  | .error detail => (none,entries++[WitnessVerification.signatureDecode witnessId detail])
  | .ok bytes =>
    if bytes.length ≠ 64 then
      (none,entries++[WitnessVerification.signatureDecode witnessId ("signature must be 64 bytes, got " ++ bytes.length.repr)])
    else (some bytes,entries)

-- verify_witness_signature and verify_summary_signature differ in the signed
-- bytes only.
def verifySignature (record : ChainRecord) (verifyingKey : VerifyingKey) (entries : List WitnessVerification) :
    Bool × List WitnessVerification :=
  match decodeSignatureOrRecordFailure crates record.id.value record.signatureB64 entries with
  | (none,entries) => (false,entries)
  | (some signature,entries) =>
    if crates.verify verifyingKey (signingInput record) signature then (true,entries)
    else (false,entries++[WitnessVerification.badSignature record.id.value])
def verifyWitnessSignature (w : Witness) := verifySignature crates (.witness w)
def verifySummarySignature (s : WitnessRollUpSummary) := verifySignature crates (.rollUpSummary s)

def expectedFor (expectedPrevHashB64 : String) (summaryTail : Option String) (record : ChainRecord) : String :=
  match summaryTail,record with
  | some tail,.witness _ => tail
  | _,_ => expectedPrevHashB64

def summaryTail : ChainRecord → Option String
  | .witness _ => none
  | .rollUpSummary s => some s.tailHashB64

def verifyRecord (verifyingKey : VerifyingKey) (expectedForRecord : String) (entries : List WitnessVerification)
    (record : ChainRecord) : List WitnessVerification :=
  let mismatch := decide (record.prevHashB64 ≠ expectedForRecord)
  let linked := if mismatch then entries++[WitnessVerification.hashMismatch record.id.value record.prevHashB64 expectedForRecord] else entries
  let checked := match record with
    | .witness w => verifyWitnessSignature crates w verifyingKey linked
    | .rollUpSummary s => verifySummarySignature crates s verifyingKey linked
  if checked.1 && !mismatch then checked.2++[WitnessVerification.verified record.id.value] else checked.2

def verifyLoop (verifyingKey : VerifyingKey) :
    String → Option String → List WitnessVerification → List ChainRecord → List WitnessVerification
  | _,_,entries,[] => entries
  | expected,tail,entries,record::rest =>
    verifyLoop verifyingKey (canonicalHashB64 crates record) (summaryTail record)
      (verifyRecord crates verifyingKey (expectedFor expected tail record) entries record) rest

def verifyChain (chain : List ChainRecord) (verifyingKey : VerifyingKey) : Except WitnessError ChainVerification :=
  if chain.isEmpty then .error .emptyChain
  else
    let entries := verifyLoop crates verifyingKey (zeroPrevHashB64 crates) none [] chain
    .ok ⟨entries.all WitnessVerification.ok,entries⟩

variable {crates}

-- What the verifier asks of one record, of two neighbours and of a whole chain.
def SignatureOk (crates : AuditCrates) (key : VerifyingKey) (r : ChainRecord) : Prop :=
  ∃ bytes,crates.decode r.signatureB64 = .ok bytes ∧ bytes.length = 64 ∧ crates.verify key (signingInput r) bytes = true

def Follows (crates : AuditCrates) (r next : ChainRecord) : Prop :=
  next.prevHashB64 = expectedFor (canonicalHashB64 crates r) (summaryTail r) next

def Walks (crates : AuditCrates) (expected : String) (tail : Option String) (chain : List ChainRecord) : Prop :=
  (∀ r ∈ chain.head?,r.prevHashB64 = expectedFor expected tail r) ∧ chain.IsChain (Follows crates)

def Verifies (crates : AuditCrates) (chain : List ChainRecord) (key : VerifyingKey) : Prop :=
  ∃ report,verifyChain crates chain key = .ok report ∧ report.allVerified = true

theorem verifySignature_spec (crates : AuditCrates) (key : VerifyingKey) (record : ChainRecord) (entries : List WitnessVerification) :
    (SignatureOk crates key record ∧ verifySignature crates record key entries = (true,entries)) ∨
    (¬ SignatureOk crates key record ∧ ∃ failure : WitnessVerification,failure.ok = false ∧
      verifySignature crates record key entries = (false,entries++[failure])) := by
  unfold verifySignature decodeSignatureOrRecordFailure
  cases decoded : crates.decode record.signatureB64 with
  | error detail =>
    refine .inr ⟨?_,_,rfl,rfl⟩
    intro ⟨bytes,other,_⟩
    rw [decoded] at other
    cases other
  | ok bytes =>
    by_cases sized : bytes.length = 64
    · by_cases accepted : crates.verify key (signingInput record) bytes = true
      · exact .inl ⟨⟨bytes,decoded,sized,accepted⟩,by simp [sized,accepted]⟩
      · refine .inr ⟨?_,.badSignature record.id.value,rfl,by simp [sized,accepted]⟩
        intro ⟨others,other,_,verified⟩
        cases Except.ok.inj (decoded.symm.trans other)
        exact accepted verified
    · refine .inr ⟨?_,_,rfl,by simp only [ne_eq,sized,not_false_eq_true,if_true]; rfl⟩
      intro ⟨others,other,length,_⟩
      cases Except.ok.inj (decoded.symm.trans other)
      exact sized length

theorem verifyRecord_exact (record : ChainRecord) (entries : List WitnessVerification) :
    (verifyRecord crates key expected entries record).all WitnessVerification.ok = true ↔
      entries.all WitnessVerification.ok = true ∧ record.prevHashB64 = expected ∧ SignatureOk crates key record := by
  have checked : ∀ linked,(match record with
      | .witness w => verifyWitnessSignature crates w key linked
      | .rollUpSummary s => verifySummarySignature crates s key linked) = verifySignature crates record key linked := by
    intro linked
    cases record <;> rfl
  simp only [verifyRecord,checked]
  by_cases named : record.prevHashB64 = expected
  · simp only [named,ne_eq,not_true_eq_false,decide_false,Bool.false_eq_true,if_false,Bool.not_false,Bool.and_true,true_and]
    rcases verifySignature_spec crates key record entries with ⟨good,result⟩ | ⟨bad,failure,failed,result⟩
    · simp [result,good,WitnessVerification.ok]
    · simp [result,bad,failed]
  · simp only [named,ne_eq,not_false_eq_true,decide_true,if_true,Bool.not_true,Bool.and_false,Bool.false_eq_true,if_false,
      false_and,and_false,iff_false]
    rcases verifySignature_spec crates key record
      (entries++[WitnessVerification.hashMismatch record.id.value record.prevHashB64 expected]) with ⟨_,result⟩ | ⟨_,failure,_,result⟩
    · simp [result,WitnessVerification.ok]
    · simp [result,WitnessVerification.ok]

theorem walks_cons : Walks crates expected tail (r::rest) ↔ r.prevHashB64 = expectedFor expected tail r ∧
    Walks crates (canonicalHashB64 crates r) (summaryTail r) rest := by
  cases rest with
  | nil => simp [Walks]
  | cons next more => simp [Walks,List.isChain_cons_cons,Follows]

theorem verifyLoop_exact (chain : List ChainRecord) (entries : List WitnessVerification) :
    (verifyLoop crates key expected tail entries chain).all WitnessVerification.ok = true ↔
      entries.all WitnessVerification.ok = true ∧ Walks crates expected tail chain ∧
        ∀ r ∈ chain,SignatureOk crates key r := by
  induction chain generalizing expected tail entries with
  | nil => simp [verifyLoop,Walks]
  | cons record rest ih =>
    rw [verifyLoop,ih,verifyRecord_exact,walks_cons,List.forall_mem_cons]
    tauto

theorem verifies_exact (chain : List ChainRecord) (key : VerifyingKey) : Verifies crates chain key ↔
    chain ≠ [] ∧ Walks crates (zeroPrevHashB64 crates) none chain ∧ ∀ r ∈ chain,SignatureOk crates key r := by
  cases chain with
  | nil => simp [Verifies,verifyChain]
  | cons record rest =>
    simp only [Verifies,verifyChain,List.isEmpty_cons,Bool.false_eq_true,if_false,Except.ok.injEq,exists_eq_left',
      verifyLoop_exact,List.all_nil,true_and,ne_eq,reduceCtorEq,not_false_eq_true]

def liveAnchor (crates : AuditCrates) (r : ChainRecord) : String :=
  (summaryTail r).getD (canonicalHashB64 crates r)

theorem expectedFor_witness : expectedFor (canonicalHashB64 crates r) (summaryTail r) (.witness w) = liveAnchor crates r := by
  cases r <;> rfl

theorem expectedFor_summary : expectedFor expected tail (.rollUpSummary s) = expected := by
  cases tail <;> rfl

theorem covers_anchor (covered : Covers crates key ledger r lo hi) :
    liveAnchor crates r = tip (witnessHash crates) (zeroPrevHashB64 crates) (ledger.take hi) := by
  cases r with
  | witness w =>
    obtain ⟨standing,rfl⟩ := covered
    obtain ⟨inside,item⟩ := List.getElem?_eq_some_iff.mp standing
    rw [tip_take_succ inside,item]
    rfl
  | rollUpSummary s =>
    obtain ⟨_,_,_,last,ending,tail⟩ := aggregate_spec covered.2
    have final : (ledger.take hi).getLast? = some last := by
      rw [List.getLast?_drop] at ending
      split at ending
      · cases ending
      · exact ending
    rw [tip_last final]
    exact tail

theorem recorded_follows (recorded : Recorded crates c issued) : c.ring.IsChain (Follows crates) := by
  obtain ⟨lo,tiled⟩ := recorded.tiled
  refine tiles_chain tiled recorded.chained ?_
  intro r next a b d covers nextCovers chained
  cases next with
  | witness w =>
    obtain ⟨inside,item⟩ := List.getElem?_eq_some_iff.mp nextCovers.1
    have named := linked_prev recorded.linked inside
    rw [item] at named
    rw [Follows,expectedFor_witness,covers_anchor covers]
    exact named
  | rollUpSummary s =>
    rw [Follows,expectedFor_summary]
    exact chained rfl

theorem signed_ok (documented : Documented crates.toCrates) (signed : Signed crates key r) :
    SignatureOk crates (crates.verifyingKey key) r := by
  refine ⟨crates.sign key (signingInput r),?_,documented.signature_length _ _,documented.sign_verifies _ _⟩
  rw [signed]
  exact documented.decode_encode _

-- A ring whose first record names the zero hash, as a ring from which nothing
-- was ever evicted does.
structure Whole (crates : AuditCrates) (c : WitnessChain) : Prop where
  recorded : ∃ issued,Recorded crates c issued
  first : ∀ r ∈ c.ring.head?,r.prevHashB64 = zeroPrevHashB64 crates
  unused : c.ring = [] → c.headHashB64 = zeroPrevHashB64 crates
  room : 0 < c.capacity

def SnapshotVerifies (crates : AuditCrates) (c : WitnessChain) : Prop :=
  c.snapshot ≠ [] → Verifies crates c.snapshot (verifyingKey crates c)

def Fits (c : WitnessChain) : Call → Prop
  | .record .. => c.ring.length ≠ c.capacity
  | .pruneOlderThan .. => True

theorem whole_verifies (documented : Documented crates.toCrates) (whole : Whole crates c) : SnapshotVerifies crates c := by
  obtain ⟨issued,recorded⟩ := whole.recorded
  intro shown
  refine (verifies_exact _ _).mpr ⟨shown,⟨whole.first,recorded_follows recorded⟩,?_⟩
  intro r member
  exact signed_ok documented (recorded.signed r (recorded.held r member))

theorem start_whole (crates : AuditCrates) (key : SigningKey) (capacity : Nat) :
    Whole crates (withCapacity crates key capacity) := by
  refine ⟨⟨[],start_recorded crates key capacity⟩,?_,fun _ => rfl,?_⟩
  · intro r member
    cases member
  · exact lt_max_of_lt_right Nat.one_pos

theorem record_whole (whole : Whole crates c) (fits : c.ring.length ≠ c.capacity) (named : w.prevHashB64 = c.headHashB64)
    (signed : Signed crates c.signingKey (.witness w)) : Whole crates (push crates (evict c) w) := by
  obtain ⟨issued,recorded⟩ := whole.recorded
  have kept : evict c = c := if_neg fits
  rw [kept]
  refine ⟨⟨_,push_recorded recorded named signed⟩,?_,?_,whole.room⟩
  · intro r standing
    cases ring : c.ring with
    | nil =>
      simp only [push,ring,List.nil_append,List.head?_cons,Option.mem_def,Option.some.injEq] at standing
      subst standing
      exact named.trans (whole.unused ring)
    | cons first rest =>
      refine whole.first r ?_
      simpa [push,ring] using standing
  · intro empty
    simp [push] at empty

theorem prune_whole (whole : Whole crates c) (identifier : WitnessId) (thresholdNs : UInt64) :
    Whole crates (pruneOlderThan crates c identifier thresholdNs).2 := by
  obtain ⟨issued,recorded⟩ := whole.recorded
  obtain ⟨summaries,live,shape⟩ := recorded.sorted
  rcases prune_spec crates shape identifier thresholdNs with ⟨_,same⟩ | ⟨span,rest,s,parts,made,result⟩
  · rw [same]
    exact whole
  · rw [result]
    refine ⟨⟨_,prune_recorded recorded (parts ▸ shape) made _⟩,?_,?_,whole.room⟩
    · intro r standing
      cases summaries with
      | nil =>
        simp only [ofSummaries,List.map_nil,List.nil_append,List.head?_cons,Option.mem_def,Option.some.injEq] at standing
        subst standing
        exact (aggregate_spec made).1
      | cons first more =>
        refine whole.first r ?_
        rw [shape]
        simpa [ofSummaries] using standing
    · intro empty
      simp at empty

theorem step_whole (whole : Whole crates c) (fits : Fits c call) : Whole crates (step crates c call) := by
  cases call with
  | record => exact record_whole whole fits rfl rfl
  | pruneOlderThan identifier thresholdNs => exact prune_whole whole identifier thresholdNs

theorem anchor_fresh (fresh : ∀ r,canonicalHashB64 crates r ≠ zeroPrevHashB64 crates) (recorded : Recorded crates c issued)
    (member : r ∈ issued) : liveAnchor crates r ≠ zeroPrevHashB64 crates := by
  cases r with
  | witness w => exact fresh _
  | rollUpSummary s =>
    obtain ⟨lo,hi,covered,_⟩ := recorded.rooted s member
    obtain ⟨_,_,_,last,_,tail⟩ := aggregate_spec covered.2
    intro zero
    exact fresh (.witness last) (tail.symm.trans zero)

-- Whatever comes to stand first after an eviction names a record.
theorem evicted_fails (fresh : ∀ r,canonicalHashB64 crates r ≠ zeroPrevHashB64 crates) (whole : Whole crates c)
    (full : c.ring.length = c.capacity) (named : w.prevHashB64 = c.headHashB64)
    (signed : Signed crates c.signingKey (.witness w)) : ¬ SnapshotVerifies crates (push crates (evict c) w) := by
  intro verifies
  obtain ⟨issued,recorded⟩ := whole.recorded
  cases ring : c.ring with
  | nil =>
    have room := whole.room
    rw [← full,ring] at room
    cases room
  | cons r rest =>
    have follows := recorded_follows (push_recorded recorded named signed)
    have evicted : evict c = {c with ring := c.ring.tail} := if_pos full
    have snapshot : (push crates (evict c) w).snapshot = rest++[ChainRecord.witness w] := by
      simp [WitnessChain.snapshot,push,evicted,ring]
    obtain ⟨_,walks,_⟩ := (verifies_exact _ _).mp (verifies (by simp [snapshot]))
    rw [snapshot] at walks
    obtain ⟨next,more,parts⟩ : ∃ next more,rest++[ChainRecord.witness w] = next::more := List.exists_cons_of_ne_nil (by simp)
    have standing : next.prevHashB64 = zeroPrevHashB64 crates := by
      have first := walks.1 next (by simp [parts])
      cases next <;> exact first
    have behind : Follows crates r next := by
      simp only [push,ring,List.cons_append,parts] at follows
      exact (List.isChain_cons_cons.mp follows).1
    have member : r ∈ issued := recorded.held r (by simp [ring])
    rw [Follows,standing] at behind
    cases next with
    | witness v =>
      rw [expectedFor_witness] at behind
      exact anchor_fresh fresh recorded member behind.symm
    | rollUpSummary s =>
      rw [expectedFor_summary] at behind
      exact fresh r behind.symm

theorem snapshot_verifies_exactly (documented : Documented crates.toCrates)
    (fresh : ∀ r,canonicalHashB64 crates r ≠ zeroPrevHashB64 crates) (key : SigningKey) (capacity : Nat)
    (calls : List Call) :
    Throughout (step crates) (SnapshotVerifies crates) (withCapacity crates key capacity) calls ↔
      Guarded (step crates) Fits (withCapacity crates key capacity) calls := by
  refine throughout_strong (Whole crates) ?_ ?_ ?_ (start_whole crates key capacity)
  · exact fun c whole => whole_verifies documented whole
  · exact fun c call whole fits => step_whole whole fits
  · intro c call whole verifies
    cases call with
    | record =>
      intro full
      refine evicted_fails fresh whole full ?_ ?_ verifies
      · rfl
      · rfl
    | pruneOlderThan => trivial

def keeper : SigningKey := ⟨[7]⟩
def dispatch (number : String) (tsNs : UInt64) : Call :=
  .record ⟨number⟩ tsNs "list_plugins" "tok" "read:plugins" .success ⟨0,1⟩

theorem dispatches_fit (crates : AuditCrates) : Guarded (step crates) Fits (withCapacity crates keeper 2)
    [dispatch "w1" 1,dispatch "w2" 2,.pruneOlderThan ⟨"s1"⟩ 2] := by
  simp [Guarded,Fits,dispatch,step,record,push,evict,withCapacity]

theorem dispatches_verify : Throughout (step auditLibrary) (SnapshotVerifies auditLibrary) (withCapacity auditLibrary keeper 2)
    [dispatch "w1" 1,dispatch "w2" 2,.pruneOlderThan ⟨"s1"⟩ 2] :=
  (snapshot_verifies_exactly auditLibrary_documented auditLibrary_free.fresh keeper 2 _).mpr (dispatches_fit auditLibrary)

theorem second_dispatch_fails (fresh : ∀ r,canonicalHashB64 crates r ≠ zeroPrevHashB64 crates) :
    ¬ SnapshotVerifies crates (run (step crates) (withCapacity crates keeper 1) [dispatch "w1" 1,dispatch "w2" 2]) := by
  have first : Fits (withCapacity crates keeper 1) (dispatch "w1" 1) := by
    simp [Fits,dispatch,withCapacity]
  have whole := step_whole (start_whole crates keeper 1) first
  refine evicted_fails fresh whole ?_ rfl rfl
  simp [step,dispatch,record,push,evict,withCapacity]

theorem full_ring_fails : ¬ ∀ (crates : AuditCrates) (key : SigningKey) (capacity : Nat) (calls : List Call),
    Documented crates.toCrates → SnapshotVerifies crates (run (step crates) (withCapacity crates key capacity) calls) := by
  intro always
  exact second_dispatch_fails auditLibrary_free.fresh (always auditLibrary keeper 1 _ auditLibrary_documented)

end EvoCore.AuditVerifier
