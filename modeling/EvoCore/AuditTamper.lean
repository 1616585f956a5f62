import EvoCore.AuditEncoding
import EvoCore.AuditVerifier

namespace EvoCore.AuditTamper
open Bytes Fields External AuditRecords AuditEncoding AuditChain AuditVerifier HashLinks Runs Tilings IdealCrates
open DomainEntries (WitnessId)

variable {crates : AuditCrates} {c : WitnessChain} {issued : List ChainRecord} {key : SigningKey}

def CollisionFree (crates : AuditCrates) : Prop := Free (canonicalHashB64 crates) (zeroPrevHashB64 crates)

-- The base64 alphabet has no control characters.
def Alphabet (crates : AuditCrates) : Prop := ∀ bytes,Plain (crates.encode bytes)

theorem witness_free (free : CollisionFree crates) : Free (witnessHash crates) (zeroPrevHashB64 crates) where
  injective _ _ same := ChainRecord.witness.inj (free.injective same)
  fresh w := free.fresh (.witness w)

theorem covers_bound (covered : Covers crates key ledger r lo hi) : lo < hi ∧ hi ≤ ledger.length := by
  cases r with
  | witness w =>
    obtain ⟨standing,rfl⟩ := covered
    exact ⟨Nat.lt_succ_self lo,(List.getElem?_eq_some_iff.mp standing).1⟩
  | rollUpSummary s =>
    obtain ⟨bound,made⟩ := covered
    obtain ⟨_,_,_,last,ending,_⟩ := aggregate_spec made
    refine ⟨?_,bound⟩
    by_contra short
    rw [List.drop_eq_nil_of_le (by rw [List.length_take]; omega)] at ending
    cases ending

-- A record stands for one stretch only: its end is in its hash or tail, its
-- length in its count.
theorem covers_unique (free : CollisionFree crates)
    (linked : Linked (witnessHash crates) Witness.prevHashB64 (zeroPrevHashB64 crates) ledger)
    (first : Covers crates key ledger r a b) (second : Covers crates key ledger r a' b') : a = a' ∧ b = b' := by
  obtain ⟨orderA,boundA⟩ := covers_bound first
  obtain ⟨orderB,boundB⟩ := covers_bound second
  have ends : b = b' := tip_position (witness_free free) linked boundA boundB
    ((covers_anchor first).symm.trans (covers_anchor second))
  refine ⟨?_,ends⟩
  cases r with
  | witness w =>
    have one := first.2
    have two := second.2
    omega
  | rollUpSummary s =>
    have one := aggregate_total first.2
    have two := aggregate_total second.2
    simp only [List.length_drop,List.length_take] at one two
    omega

theorem issued_covers (recorded : Recorded crates c issued) (member : r ∈ issued) :
    ∃ lo hi,Covers crates c.signingKey (witnesses issued) r lo hi := by
  cases r with
  | witness w =>
    obtain ⟨k,inside,item⟩ := List.mem_iff_getElem.mp (mem_witnesses.mpr member)
    exact ⟨k,k+1,List.getElem?_eq_some_iff.mpr ⟨inside,item⟩,rfl⟩
  | rollUpSummary s =>
    obtain ⟨lo,hi,covered,_⟩ := recorded.rooted s member
    exact ⟨lo,hi,covered⟩

theorem witness_prev (recorded : Recorded crates c issued)
    (covered : Covers crates key (witnesses issued) (.witness w) lo hi) :
    w.prevHashB64 = tip (witnessHash crates) (zeroPrevHashB64 crates) ((witnesses issued).take lo) := by
  obtain ⟨inside,item⟩ := List.getElem?_eq_some_iff.mp covered.1
  have named := linked_prev recorded.linked inside
  rw [item] at named
  exact named

-- The record whose hash an issued record names is itself issued, and ends where
-- that record starts.
theorem issued_behind (free : CollisionFree crates) (recorded : Recorded crates c issued) (member : q ∈ issued)
    (covered : Covers crates c.signingKey (witnesses issued) q b d) (named : q.prevHashB64 = canonicalHashB64 crates r) :
    r ∈ issued ∧ ∃ a,Covers crates c.signingKey (witnesses issued) r a b := by
  cases q with
  | witness w =>
    have prev := witness_prev recorded covered
    have inside := (covers_bound covered).2
    cases b with
    | zero =>
      rw [List.take_zero,tip_nil] at prev
      exact absurd (named.symm.trans prev) (free.fresh r)
    | succ j =>
      have room : j < (witnesses issued).length := by
        have order := (covers_bound covered).1
        omega
      rw [tip_take_succ room] at prev
      have same : r = .witness (witnesses issued)[j] := free.injective (named.symm.trans prev)
      subst same
      exact ⟨mem_witnesses.mp (List.getElem_mem room),j,List.getElem?_eq_getElem room,rfl⟩
  | rollUpSummary s =>
    obtain ⟨lo,hi,span,origin⟩ := recorded.rooted s member
    obtain ⟨rfl,_⟩ := covers_unique free recorded.linked span covered
    rcases origin with zero | ⟨p,start,before,ends,prev⟩
    · exact absurd (named.symm.trans zero) (free.fresh r)
    · obtain rfl := free.injective (named.symm.trans prev)
      exact ⟨before,start,ends⟩

theorem tip_encoded (crates : AuditCrates) (ledger : List Witness) :
    ∃ bytes,tip (witnessHash crates) (zeroPrevHashB64 crates) ledger = crates.encode bytes := by
  rcases List.eq_nil_or_concat ledger with rfl | ⟨before,w,rfl⟩
  · exact ⟨_,rfl⟩
  · rw [List.concat_eq_append,tip_snoc]
    exact ⟨_,rfl⟩

theorem issued_prev (recorded : Recorded crates c issued) (member : q ∈ issued) :
    ∃ bytes,q.prevHashB64 = crates.encode bytes := by
  cases q with
  | witness w =>
    obtain ⟨lo,hi,covered⟩ := issued_covers recorded member
    obtain ⟨bytes,tipped⟩ := tip_encoded crates ((witnesses issued).take lo)
    exact ⟨bytes,(witness_prev recorded covered).trans tipped⟩
  | rollUpSummary s =>
    obtain ⟨lo,hi,_,zero | ⟨p,_,_,_,prev⟩⟩ := recorded.rooted s member
    · exact ⟨_,zero⟩
    · exact ⟨_,prev⟩

-- The first signed field is the named hash, the second one of a summary its tail.
theorem signed_prev (r : ChainRecord) : ∃ rest,signingInput r = utf8 r.prevHashB64 ++ 0x1f::rest := by
  cases r with
  | witness w =>
    simp only [signingInput,witness_bytes]
    exact ⟨_,rfl⟩
  | rollUpSummary s =>
    simp only [signingInput,summary_bytes]
    exact ⟨_,rfl⟩

theorem signed_tail (s : WitnessRollUpSummary) : ∃ rest,
    signingInput (.rollUpSummary s) = utf8 s.prevHashB64 ++ 0x1f::(utf8 s.tailHashB64 ++ 0x1f::rest) := by
  simp only [signingInput,summary_bytes]
  exact ⟨_,rfl⟩

theorem same_first (a b : List UInt8) (same : a++0x1f::x = b++0x1f::y) :
    a.takeWhile (· ≠ 0x1f) = b.takeWhile (· ≠ 0x1f) := by
  have cut := congrArg (List.takeWhile (· ≠ (0x1f : UInt8))) same
  rw [first_field,first_field] at cut
  exact cut

theorem same_prev (same : signingInput r = signingInput q) :
    (utf8 r.prevHashB64).takeWhile (· ≠ 0x1f) = (utf8 q.prevHashB64).takeWhile (· ≠ 0x1f) := by
  obtain ⟨x,left⟩ := signed_prev r
  obtain ⟨y,right⟩ := signed_prev q
  exact same_first _ _ (left.symm.trans (same.trans right))

theorem same_tail (same : signingInput (.rollUpSummary s) = signingInput (.rollUpSummary t))
    (plainS : Plain s.prevHashB64) (plainT : Plain t.prevHashB64) :
    (utf8 s.tailHashB64).takeWhile (· ≠ 0x1f) = (utf8 t.tailHashB64).takeWhile (· ≠ 0x1f) := by
  obtain ⟨x,left⟩ := signed_tail s
  obtain ⟨y,right⟩ := signed_tail t
  obtain ⟨_,rest⟩ := field_inj (plain_free plainS) (plain_free plainT) (left.symm.trans (same.trans right))
  exact same_first _ _ rest

theorem same_text (plainA : Plain a) (plainB : Plain b)
    (same : (utf8 a).takeWhile (· ≠ 0x1f) = (utf8 b).takeWhile (· ≠ 0x1f)) : a = b := by
  rw [field_free (plain_free plainA),field_free (plain_free plainB)] at same
  exact utf8_injective same

def withId (id : WitnessId) : ChainRecord → ChainRecord
  | .witness w => .witness {w with id := id}
  | .rollUpSummary s => .rollUpSummary {s with id := id}

def cutLike : ChainRecord → ChainRecord → ChainRecord
  | .rollUpSummary s,.rollUpSummary t => .rollUpSummary (recut s t)
  | _,q => q

def UnmarkedRecord : ChainRecord → Prop
  | .witness _ => True
  | .rollUpSummary s =>
    Unmarked s.dispatchesByOpId ∧ Unmarked s.dispatchesByCapabilityRequirement ∧ Unmarked s.outcomesByClass

-- Nothing is asked of the texts of r but where the signed bytes leave it open how aggregates are cut.
structure Alike (r q : ChainRecord) : Prop where
  kind : r.isWitness = q.isWitness
  signature : r.signatureB64 = q.signatureB64
  input : signingInput r = signingInput q
  fields : PlainRecord q → r = withId r.id (cutLike r q)
  aggregates : PlainRecord q → UnmarkedRecord r → UnmarkedRecord q → r = withId r.id q

theorem alike_refl (r : ChainRecord) : Alike r r := by
  refine ⟨rfl,rfl,rfl,fun _ => ?_,fun _ _ _ => ?_⟩
  · cases r <;> rfl
  · cases r <;> rfl

theorem alike_signed (signature : r.signatureB64 = q.signatureB64) (input : signingInput r = signingInput q) : Alike r q := by
  cases r with
  | witness w =>
    cases q with
    | witness v =>
      have same : PlainRecord (.witness v) → w = {v with id := w.id} := fun plain => witness_fields plain input.symm signature
      exact ⟨rfl,signature,input,fun plain => congrArg ChainRecord.witness (same plain),
        fun plain _ _ => congrArg ChainRecord.witness (same plain)⟩
    | rollUpSummary t => cases same_kind input
  | rollUpSummary s =>
    cases q with
    | witness v => cases same_kind input
    | rollUpSummary t =>
      have signed : s.signatureB64 = t.signatureB64 := signature
      refine ⟨rfl,signature,input,fun plain => ?_,fun plain unmarkedS unmarkedT => ?_⟩
      · obtain ⟨same,_⟩ := summary_texts plain.1 plain.2.1 plain.2.2.1 plain.2.2.2.1 plain.2.2.2.2 input.symm
        rw [signed] at same
        exact congrArg ChainRecord.rollUpSummary same
      · obtain ⟨same,ops,capabilities,classes⟩ :=
          summary_texts plain.1 plain.2.1 plain.2.2.1 plain.2.2.2.1 plain.2.2.2.2 input.symm
        rw [recut,← encodeAggregates_inj unmarkedT.1 unmarkedS.1 ops,
          ← encodeAggregates_inj unmarkedT.2.1 unmarkedS.2.1 capabilities,
          ← encodeAggregates_inj unmarkedT.2.2 unmarkedS.2.2 classes,signed] at same
        exact congrArg ChainRecord.rollUpSummary same

-- The record stands for a stretch of issued witnesses; an issued one for its own.
def Stands (crates : AuditCrates) (key : SigningKey) (issued : List ChainRecord) (r : ChainRecord) (lo hi : Nat) : Prop :=
  ∃ q ∈ issued,Covers crates key (witnesses issued) q lo hi ∧ Alike r q ∧ (r ∈ issued → r = q)

-- Ideal signatures: one that verifies was made on exactly the signed bytes.
def Made (issued : List ChainRecord) (r : ChainRecord) : Prop :=
  ∃ q ∈ issued,r.signatureB64 = q.signatureB64 ∧ signingInput r = signingInput q

theorem made_stands (recorded : Recorded crates c issued) (made : Made issued r) :
    ∃ lo hi,Stands crates c.signingKey issued r lo hi := by
  by_cases member : r ∈ issued
  · obtain ⟨lo,hi,covered⟩ := issued_covers recorded member
    exact ⟨lo,hi,r,member,covered,alike_refl r,fun _ => rfl⟩
  · obtain ⟨q,among,signature,input⟩ := made
    obtain ⟨lo,hi,covered⟩ := issued_covers recorded among
    exact ⟨lo,hi,q,among,covered,alike_signed signature input,fun held => absurd held member⟩

-- The next record names this one's own hash, not a tail.
def NamesHash (r next : ChainRecord) : Prop := r.isWitness = true ∨ next.isRollupSummary = true

theorem names_hash (follows : Follows crates r next) (names : NamesHash r next) :
    next.prevHashB64 = canonicalHashB64 crates r := by
  rw [follows]
  cases r with
  | witness w => cases next <;> rfl
  | rollUpSummary s =>
    cases next with
    | witness v =>
      rcases names with witness | summary
      · cases witness
      · cases summary
    | rollUpSummary t => rfl

theorem hash_meets (free : CollisionFree crates) (alphabet : Alphabet crates) (recorded : Recorded crates c issued)
    (standing : Stands crates c.signingKey issued r a b) (nextStanding : Stands crates c.signingKey issued next k d)
    (named : next.prevHashB64 = canonicalHashB64 crates r) : r ∈ issued ∧ k = b := by
  obtain ⟨q,member,covered,_,itself⟩ := standing
  obtain ⟨q',member',covered',alike,_⟩ := nextStanding
  obtain ⟨bytes,encoded⟩ := issued_prev recorded member'
  have prev : next.prevHashB64 = q'.prevHashB64 := by
    refine same_text ?_ ?_ (same_prev alike.input)
    · rw [named]
      exact alphabet _
    · rw [encoded]
      exact alphabet _
  obtain ⟨held,start,ends⟩ := issued_behind free recorded member' covered' (prev.symm.trans named)
  obtain rfl := itself held
  exact ⟨held,(covers_unique free recorded.linked ends covered).2⟩

theorem tail_meets (free : CollisionFree crates) (alphabet : Alphabet crates) (recorded : Recorded crates c issued)
    (standing : Stands crates c.signingKey issued (.rollUpSummary s) a b)
    (nextStanding : Stands crates c.signingKey issued (.witness w) k d)
    (plain : Plain s.prevHashB64) (named : w.prevHashB64 = s.tailHashB64) : k = b := by
  obtain ⟨q,member,covered,alike,_⟩ := standing
  obtain ⟨q',member',covered',alike',_⟩ := nextStanding
  cases q with
  | witness v => cases alike.kind
  | rollUpSummary t =>
    cases q' with
    | rollUpSummary t' => cases alike'.kind
    | witness v =>
      obtain ⟨_,prevT⟩ := issued_prev recorded member
      obtain ⟨_,prevV⟩ := issued_prev recorded member'
      obtain ⟨_,_,_,last,_,tailT⟩ := aggregate_spec covered.2
      have plainT : Plain t.prevHashB64 := by
        have encoded : t.prevHashB64 = _ := prevT
        rw [encoded]
        exact alphabet _
      have plainV : Plain v.prevHashB64 := by
        have encoded : v.prevHashB64 = _ := prevV
        rw [encoded]
        exact alphabet _
      have plainTail : Plain t.tailHashB64 := by
        rw [tailT]
        exact alphabet _
      -- Whatever the two forged texts hold behind a separator, both start with the
      -- issued ones.
      have starts : (utf8 w.prevHashB64).takeWhile (· ≠ 0x1f) = (utf8 v.prevHashB64).takeWhile (· ≠ 0x1f) :=
        same_prev alike'.input
      rw [named,same_tail alike.input plain plainT] at starts
      have issuedNamed := same_text plainTail plainV starts
      have tips := (covers_anchor covered).symm.trans (issuedNamed.trans (witness_prev recorded covered'))
      obtain ⟨_,boundT⟩ := covers_bound covered
      obtain ⟨orderV,boundV⟩ := covers_bound covered'
      exact (tip_position (witness_free free) recorded.linked boundT (by omega) tips).symm

theorem stands_meet (free : CollisionFree crates) (alphabet : Alphabet crates) (recorded : Recorded crates c issued)
    (standing : Stands crates c.signingKey issued r a b) (nextStanding : Stands crates c.signingKey issued next k d)
    (plain : r.isRollupSummary = true → Plain r.prevHashB64) (follows : Follows crates r next) :
    k = b ∧ (NamesHash r next → r ∈ issued) := by
  by_cases names : NamesHash r next
  · obtain ⟨held,meets⟩ := hash_meets free alphabet recorded standing nextStanding (names_hash follows names)
    exact ⟨meets,fun _ => held⟩
  · refine ⟨?_,fun other => absurd other names⟩
    cases r with
    | witness w => exact absurd (.inl rfl) names
    | rollUpSummary s =>
      cases next with
      | rollUpSummary t => exact absurd (.inr rfl) names
      | witness w => exact tail_meets free alphabet recorded standing nextStanding (plain rfl) follows

-- Along a chain of neighbours each record starts where the one before it ends.
theorem chain_stands (free : CollisionFree crates) (alphabet : Alphabet crates) (recorded : Recorded crates c issued)
    (chained : (r::rest).IsChain (Follows crates)) (made : ∀ x ∈ rest,Made issued x)
    (plain : ∀ x ∈ r::rest,x.isRollupSummary = true → Plain x.prevHashB64)
    (standing : Stands crates c.signingKey issued r a b) :
    (∃ hi,Tiles (Stands crates c.signingKey issued) a (r::rest) hi) ∧
      (r::rest).IsChain (fun x next => NamesHash x next → x ∈ issued) := by
  induction rest generalizing r a b with
  | nil => exact ⟨⟨b,tiles_single.mpr standing⟩,.singleton r⟩
  | cons next more ih =>
    obtain ⟨follows,others⟩ := List.isChain_cons_cons.mp chained
    obtain ⟨k,d,nextStanding⟩ := made_stands recorded (made next List.mem_cons_self)
    obtain ⟨rfl,anchored⟩ := stands_meet free alphabet recorded standing nextStanding (plain r List.mem_cons_self) follows
    obtain ⟨⟨hi,tiled⟩,links⟩ := ih others (fun x inside => made x (.tail _ inside))
      (fun x inside => plain x (.tail _ inside)) nextStanding
    exact ⟨⟨hi,k,standing,tiled⟩,.cons_cons anchored links⟩

theorem walk_plain (alphabet : Alphabet crates) (first : Plain expected) (walks : Walks crates expected tail chain) :
    ∀ r ∈ chain,r.isRollupSummary = true → Plain r.prevHashB64 := by
  induction chain generalizing expected tail with
  | nil =>
    intro r member
    cases member
  | cons record rest ih =>
    obtain ⟨named,others⟩ := walks_cons.mp walks
    intro r member summary
    rcases List.mem_cons.mp member with rfl | inside
    · cases r with
      | witness w => cases summary
      | rollUpSummary s =>
        rw [named,expectedFor_summary]
        exact first
    · exact ih (alphabet _) others r inside summary

def history (crates : AuditCrates) (key : SigningKey) (capacity : Nat) (calls : List Call) : List ChainRecord :=
  (run (observe crates) (withCapacity crates key capacity,[]) calls).2

def Genuine (crates : AuditCrates) (key : SigningKey) (issued chain : List ChainRecord) : Prop :=
  ∀ r ∈ chain,SignatureOk crates (crates.verifyingKey key) r → Made issued r

theorem tampering_shows (free : CollisionFree crates) (alphabet : Alphabet crates) (key : SigningKey) (capacity : Nat)
    (calls : List Call) (chain : List ChainRecord) (verifies : Verifies crates chain (crates.verifyingKey key))
    (genuine : Genuine crates key (history crates key capacity calls) chain) :
    (∃ lo hi,Tiles (Stands crates key (history crates key capacity calls)) lo chain hi) ∧
      chain.IsChain fun r next => NamesHash r next → r ∈ history crates key capacity calls := by
  have recorded : Recorded crates _ (history crates key capacity calls) := run_recorded crates key capacity calls
  have keeper : (run (observe crates) (withCapacity crates key capacity,[]) calls).1.signingKey = key := by
    rw [observe_chain,run_signingKey]
    rfl
  obtain ⟨shown,walks,signed⟩ := (verifies_exact _ _).mp verifies
  cases chain with
  | nil => exact absurd rfl shown
  | cons r rest =>
    have made : ∀ x ∈ r::rest,Made (history crates key capacity calls) x :=
      fun x member => genuine x member (signed x member)
    obtain ⟨lo,hi,standing⟩ := made_stands recorded (made r List.mem_cons_self)
    obtain ⟨⟨far,tiled⟩,links⟩ := chain_stands free alphabet recorded walks.2 (fun x inside => made x (.tail _ inside))
      (walk_plain alphabet (alphabet _) walks) standing
    rw [keeper] at tiled
    exact ⟨⟨lo,far,tiled⟩,links⟩

theorem dispatched_verifies (documented : Documented crates.toCrates) :
    Verifies crates (run (step crates) (withCapacity crates keeper 2) [dispatch "w1" 1,dispatch "w2" 2]).snapshot
      (crates.verifyingKey keeper) := by
  have first : Fits (withCapacity crates keeper 2) (dispatch "w1" 1) := by
    simp [Fits,dispatch,withCapacity]
  have second : Fits (step crates (withCapacity crates keeper 2) (dispatch "w1" 1)) (dispatch "w2" 2) := by
    simp [Fits,dispatch,withCapacity,step,record,push,evict]
  have whole := step_whole (step_whole (start_whole crates keeper 2) first) second
  have verifies := whole_verifies documented whole (by simp [WitnessChain.snapshot,dispatch,step,record,push])
  rw [verifyingKey,step_signingKey,step_signingKey] at verifies
  exact verifies

theorem walks_renamed (walks : Walks crates expected tail (front++[r])) : Walks crates expected tail (front++[withId identifier r]) := by
  induction front generalizing expected tail with
  | nil =>
    obtain ⟨named,_⟩ := walks_cons.mp walks
    refine walks_cons.mpr ⟨?_,by simp [Walks]⟩
    cases r <;> cases tail <;> exact named
  | cons first rest ih =>
    obtain ⟨named,more⟩ := walks_cons.mp walks
    exact walks_cons.mpr ⟨named,ih more⟩

theorem verifies_renamed (verifies : Verifies crates (front++[r]) verifier) : Verifies crates (front++[withId identifier r]) verifier := by
  obtain ⟨_,walks,signed⟩ := (verifies_exact _ _).mp verifies
  refine (verifies_exact _ _).mpr ⟨by simp,walks_renamed walks,?_⟩
  intro x member
  cases List.mem_append.mp member with
  | inl inside => exact signed x (List.mem_append_left _ inside)
  | inr last =>
    rw [List.mem_singleton.mp last]
    have accepted := signed r (by simp)
    cases r <;> exact accepted

theorem genuine_renamed (genuine : ∀ x ∈ front++[r],x ∈ issued) : Genuine crates key issued (front++[withId identifier r]) := by
  intro x member _
  cases List.mem_append.mp member with
  | inl inside => exact ⟨x,genuine x (List.mem_append_left _ inside),rfl,rfl⟩
  | inr last =>
    rw [List.mem_singleton.mp last]
    refine ⟨r,genuine r (by simp),?_,?_⟩
    · cases r <;> rfl
    · cases r <;> rfl

theorem renamed_shows : ∃ first last,history auditLibrary keeper 2 [dispatch "w1" 1,dispatch "w2" 2] = [first,last] ∧
    withId ⟨"w9"⟩ last ∉ [first,last] ∧
    (∃ lo hi,Tiles (Stands auditLibrary keeper [first,last]) lo [first,withId ⟨"w9"⟩ last] hi) ∧
      [first,withId ⟨"w9"⟩ last].IsChain fun r next => NamesHash r next → r ∈ [first,last] := by
  obtain ⟨first,last,issued,verifies,fresh⟩ : ∃ first last,
      history auditLibrary keeper 2 [dispatch "w1" 1,dispatch "w2" 2] = [first,last] ∧
      Verifies auditLibrary ([first]++[last]) (auditLibrary.verifyingKey keeper) ∧ withId ⟨"w9"⟩ last ∉ [first,last] := by
    refine ⟨_,_,rfl,dispatched_verifies auditLibrary_documented,fun member => ?_⟩
    have ids := List.mem_map_of_mem (f := fun r => r.id.value) member
    simp [withId,record,issue,ChainRecord.id] at ids
  have genuine : Genuine auditLibrary keeper (history auditLibrary keeper 2 [dispatch "w1" 1,dispatch "w2" 2])
      ([first]++[withId ⟨"w9"⟩ last]) := genuine_renamed (by simp [issued])
  have shown := tampering_shows auditLibrary_free auditLibrary_alphabet keeper 2 _ _ (verifies_renamed verifies) genuine
  rw [issued] at shown
  exact ⟨first,last,issued,fresh,shown⟩

-- One witness is issued, and two records that were never issued verify: the
-- witness under another id, and the witness with its texts cut elsewhere.
section Forgeries
variable (crates)

def splitDispatch : Call := .record ⟨"w1"⟩ 1 "list\x1fplugins" "tok" "read:plugins" .success ⟨0,1⟩
def splitWitness : Witness :=
  issue crates (withCapacity crates keeper 2) ⟨"w1"⟩ 1 "list\x1fplugins" "tok" "read:plugins" .success ⟨0,1⟩
def renamed : ChainRecord := .witness {splitWitness crates with id := ⟨"w2"⟩}
def resplit : ChainRecord := .witness {splitWitness crates with opId := "list",principalTokenId := "plugins\x1ftok"}

theorem split_issued : history crates keeper 2 [splitDispatch] = [.witness (splitWitness crates)] := rfl

theorem resplit_input : signingInput (resplit crates) = signingInput (.witness (splitWitness crates)) := by
  have joined : "list\x1fplugins" = "list"++"\x1f"++"plugins" := by decide
  have cut : "plugins\x1ftok" = "plugins"++"\x1f"++"tok" := by decide
  have mark : utf8 "\x1f" = [0x1f] := by decide
  simp only [resplit,splitWitness,issue,signingInput,witness_bytes,joined,cut,utf8_append,mark,List.append_assoc,
    List.cons_append,List.nil_append]

variable {crates}

theorem forged_verifies (documented : Documented crates.toCrates) (forged : Witness)
    (prev : forged.prevHashB64 = zeroPrevHashB64 crates) (signature : forged.signatureB64 = (splitWitness crates).signatureB64)
    (input : signingInput (.witness forged) = signingInput (.witness (splitWitness crates))) :
    Verifies crates [.witness forged] (crates.verifyingKey keeper) := by
  have issuedOk : SignatureOk crates (crates.verifyingKey keeper) (.witness (splitWitness crates)) := signed_ok documented rfl
  refine (verifies_exact _ _).mpr ⟨by simp,walks_cons.mpr ⟨prev,by simp [Walks]⟩,?_⟩
  intro r member
  rw [List.mem_singleton.mp member]
  simp only [SignatureOk,ChainRecord.signatureB64,signature,input] at issuedOk ⊢
  exact issuedOk

end Forgeries

theorem renamed_verifies (documented : Documented crates.toCrates) :
    Verifies crates [renamed crates] (crates.verifyingKey keeper) := forged_verifies documented _ rfl rfl rfl

theorem resplit_verifies (documented : Documented crates.toCrates) :
    Verifies crates [resplit crates] (crates.verifyingKey keeper) :=
  forged_verifies documented _ rfl rfl (resplit_input crates)

theorem forged_genuine (signature : forged.signatureB64 = (splitWitness crates).signatureB64)
    (input : signingInput forged = signingInput (.witness (splitWitness crates))) :
    Genuine crates keeper (history crates keeper 2 [splitDispatch]) [forged] := by
  intro r member _
  rw [List.mem_singleton.mp member]
  exact ⟨_,List.mem_singleton.mpr rfl,signature,input⟩

theorem renamed_new : renamed crates ∉ history crates keeper 2 [splitDispatch] := by
  rw [split_issued,List.mem_singleton]
  intro same
  have ids := congrArg (fun r => r.id.value) same
  simp [renamed,splitWitness,issue,ChainRecord.id] at ids

theorem resplit_new : ∀ q ∈ history crates keeper 2 [splitDispatch],resplit crates ≠ withId (resplit crates).id q := by
  intro q member same
  rw [split_issued,List.mem_singleton] at member
  subst member
  have texts := congrArg Witness.opId (ChainRecord.witness.inj same)
  simp [splitWitness,issue] at texts

theorem forgeries_pass : ¬ (∀ crates key capacity calls chain,Documented crates.toCrates → CollisionFree crates →
      Alphabet crates → Verifies crates chain (crates.verifyingKey key) →
      Genuine crates key (history crates key capacity calls) chain → ∀ r ∈ chain,r ∈ history crates key capacity calls) ∧
    ¬ ∀ crates key capacity calls chain,Documented crates.toCrates → CollisionFree crates →
      Alphabet crates → Verifies crates chain (crates.verifyingKey key) →
      Genuine crates key (history crates key capacity calls) chain →
      ∀ r ∈ chain,∃ q ∈ history crates key capacity calls,r = withId r.id q := by
  constructor
  · intro always
    have issued := always auditLibrary keeper 2 [splitDispatch] [renamed auditLibrary] auditLibrary_documented
      auditLibrary_free auditLibrary_alphabet (renamed_verifies auditLibrary_documented) (forged_genuine rfl rfl) _
      (List.mem_singleton.mpr rfl)
    exact renamed_new issued
  · intro always
    obtain ⟨q,member,same⟩ := always auditLibrary keeper 2 [splitDispatch] [resplit auditLibrary] auditLibrary_documented
      auditLibrary_free auditLibrary_alphabet (resplit_verifies auditLibrary_documented)
      (forged_genuine rfl (resplit_input auditLibrary)) _ (List.mem_singleton.mpr rfl)
    exact resplit_new q member same

end EvoCore.AuditTamper
