import EvoCore.AuditEncoding
import EvoCore.IdealCrates

namespace EvoCore.SigningInputs
open Bytes Fields AuditRecords AuditEncoding
open DomainEntries (DomainCrates NetworkEndpoint DomainStateOp canonicalSigningBytes)

-- Hash texts are base64; the other texts are arbitrary.
structure HashText where
  text : String
  plain : Plain text

structure WitnessInput where
  prevHashB64 : HashText
  tsNs : UInt64
  opId : String
  principalTokenId : String
  capabilityRequirement : String
  outcome : DispatchOutcome
  traceRoot : SpanId

structure SummaryInput where
  prevHashB64 : HashText
  tailHashB64 : HashText
  tsNsFirst : UInt64
  tsNsLast : UInt64
  dispatchesByOpId : List AggregateCount
  dispatchesByCapabilityRequirement : List AggregateCount
  outcomesByClass : List AggregateCount
  distinctPrincipalCount : UInt32
  totalEntryCount : UInt32

structure DomainInput where
  prevHashB64 : HashText
  tsNs : UInt64
  originatorDeviceId : String
  originatorEndpoints : List NetworkEndpoint
  op : DomainStateOp

def WitnessInput.bytes (t : WitnessInput) : List UInt8 :=
  witnessSigningBytes t.prevHashB64.text t.tsNs t.opId t.principalTokenId t.capabilityRequirement t.outcome t.traceRoot

def SummaryInput.bytes (s : SummaryInput) : List UInt8 :=
  summarySigningBytes s.prevHashB64.text s.tailHashB64.text s.tsNsFirst s.tsNsLast s.dispatchesByOpId
    s.dispatchesByCapabilityRequirement s.outcomesByClass s.distinctPrincipalCount s.totalEntryCount

def DomainInput.bytes (crates : DomainCrates) (d : DomainInput) : List UInt8 :=
  canonicalSigningBytes crates d.prevHashB64.text d.tsNs d.originatorDeviceId d.originatorEndpoints d.op

-- serde_json: what it writes reads back, and it escapes control characters.
structure SerdeText (write : α → List UInt8) : Prop where
  reads_back : ∃ fromSlice : List UInt8 → Option α,∀ a,fromSlice (write a) = some a
  escapes : ∀ a,(0x1f : UInt8) ∉ write a

theorem SerdeText.injective {write : α → List UInt8} (serde : SerdeText write) : Function.Injective write := by
  obtain ⟨fromSlice,reads⟩ := serde.reads_back
  intro a b same
  have back := reads a
  rw [same,reads b] at back
  exact (Option.some.inj back).symm

theorem hash_inj {a b : HashText} (same : utf8 a.text = utf8 b.text) : a = b := by
  obtain ⟨a,_⟩ := a
  obtain ⟨b,_⟩ := b
  cases utf8_injective same
  rfl

theorem cut {text : String} (held : ¬ Plain text) : ∃ a b,text = a ++ "\x1f" ++ b := by
  obtain ⟨front,back,parts⟩ := List.append_of_mem (not_not.mp held)
  refine ⟨String.ofList front,String.ofList back,?_⟩
  apply String.toList_injective
  simp [parts]

theorem cut_short (a b : String) : a ≠ a ++ "\x1f" ++ b := by
  intro same
  have lengths := congrArg String.length same
  simp only [String.length_append] at lengths
  have one : "\x1f".length = 1 := rfl
  omega

theorem utf8_unit : utf8 "\x1f" = [0x1f] := by decide

-- No other tuple has the bytes of this one.
def Unique (t : WitnessInput) : Prop := ∀ u : WitnessInput,t.bytes = u.bytes → t = u

theorem unique_plain {t : WitnessInput} (unique : Unique t) :
    Plain t.opId ∧ Plain t.principalTokenId ∧ Plain t.capabilityRequirement := by
  obtain ⟨prev,tsNs,op,principal,capability,outcome,traceRoot⟩ := t
  refine ⟨?_,?_,?_⟩
  · by_contra held
    obtain ⟨a,b,rfl⟩ := cut held
    have twin := unique ⟨prev,tsNs,a,b,principal ++ "\x1f" ++ capability,outcome,traceRoot⟩
      (by simp [WitnessInput.bytes,witness_bytes,utf8_unit])
    exact cut_short a b (congrArg WitnessInput.opId twin).symm
  · by_contra held
    obtain ⟨a,b,rfl⟩ := cut held
    have twin := unique ⟨prev,tsNs,op ++ "\x1f" ++ a,b,capability,outcome,traceRoot⟩
      (by simp [WitnessInput.bytes,witness_bytes,utf8_unit])
    exact cut_short op a (congrArg WitnessInput.opId twin)
  · by_contra held
    obtain ⟨a,b,rfl⟩ := cut held
    have twin := unique ⟨prev,tsNs,op ++ "\x1f" ++ principal,a,b,outcome,traceRoot⟩
      (by simp [WitnessInput.bytes,witness_bytes,utf8_unit])
    exact cut_short op principal (congrArg WitnessInput.opId twin)

theorem plain_unique {t : WitnessInput} (op : Plain t.opId) (principal : Plain t.principalTokenId)
    (capability : Plain t.capabilityRequirement) : Unique t := by
  intro u same
  obtain ⟨prev,texts⟩ := witness_texts t.prevHashB64.plain op principal capability same
  have prevs : t.prevHashB64 = u.prevHashB64 := hash_inj (congrArg utf8 prev)
  cases t
  cases u
  simp only [WitnessInput.mk.injEq]
  exact ⟨prevs,texts⟩

theorem domain_injective {crates : DomainCrates} (endpoints : SerdeText crates.endpointsToVec) (ops : SerdeText crates.opToVec)
    {d e : DomainInput} (same : d.bytes crates = e.bytes crates) : d = e := by
  simp only [DomainInput.bytes,canonicalSigningBytes,List.append_assoc,List.singleton_append] at same
  obtain ⟨prev,same⟩ := field_inj (plain_free d.prevHashB64.plain) (plain_free e.prevHashB64.plain) same
  obtain ⟨ts,same⟩ := List.append_inj same (by simp)
  have rest : (utf8 d.originatorDeviceId ++ 0x1f::crates.endpointsToVec d.originatorEndpoints) ++ 0x1f::crates.opToVec d.op =
      (utf8 e.originatorDeviceId ++ 0x1f::crates.endpointsToVec e.originatorEndpoints) ++ 0x1f::crates.opToVec e.op := by
    simpa using (List.cons.inj same).2
  obtain ⟨rest,written⟩ := last_field_inj (ops.escapes _) (ops.escapes _) rest
  obtain ⟨device,listed⟩ := last_field_inj (endpoints.escapes _) (endpoints.escapes _) rest
  cases d
  cases e
  simp only [DomainInput.mk.injEq]
  exact ⟨hash_inj prev,beBytes64_injective ts,utf8_injective device,endpoints.injective listed,ops.injective written⟩

theorem front_inj {α : Type} {stops : α → Bool} {a b x y : List α} (freeA : ∀ c ∈ a,stops c = false) (freeB : ∀ c ∈ b,stops c = false)
    (headX : ∀ c ∈ x.head?,stops c = true) (headY : ∀ c ∈ y.head?,stops c = true) (same : a ++ x = b ++ y) : a = b ∧ x = y := by
  have front : ∀ {a x : List α},(∀ c ∈ a,stops c = false) → (∀ c ∈ x.head?,stops c = true) →
      (a ++ x).takeWhile (fun c => !stops c) = a := by
    intro a x free head
    rw [List.takeWhile_append_of_pos (by simpa using free)]
    cases x with
    | nil => simp
    | cons c rest => simp [head c rfl]
  have fronts := congrArg (List.takeWhile fun c => !stops c) same
  rw [front freeA headX,front freeB headY] at fronts
  subst fronts
  exact ⟨rfl,List.append_cancel_left same⟩

def digitByte (b : UInt8) : Bool := 0x30 ≤ b && b ≤ 0x39

theorem digit_char {c : Char} (digit : c.isDigit = true) : ∃ d < 10,c = Nat.digitChar d := by
  simp only [Char.isDigit,Bool.and_eq_true,decide_eq_true_eq] at digit
  have low : 48 ≤ c.toNat := UInt32.le_iff_toNat_le.mp digit.1
  have high : c.toNat ≤ 57 := UInt32.le_iff_toNat_le.mp digit.2
  have each : ∀ d < 10,(Nat.digitChar d).toNat = 48 + d := by decide
  refine ⟨c.toNat - 48,by omega,?_⟩
  apply Char.toNat_inj.mp
  rw [each (c.toNat - 48) (by omega)]
  omega

theorem digit_code : ∀ d < 10,(Nat.digitChar d).toNat < 128 ∧ (Nat.digitChar d).isDigit = true ∧
    digitByte (UInt8.ofNat (Nat.digitChar d).toNat) = true := by decide

theorem digit_byte {b : UInt8} (digit : digitByte b = true) : ∃ d < 10,b = UInt8.ofNat (Nat.digitChar d).toNat := by
  simp only [digitByte,Bool.and_eq_true,decide_eq_true_eq] at digit
  have low : 48 ≤ b.toNat := UInt8.le_iff_toNat_le.mp digit.1
  have high : b.toNat ≤ 57 := UInt8.le_iff_toNat_le.mp digit.2
  have each : ∀ d < 10,(UInt8.ofNat (Nat.digitChar d).toNat).toNat = 48 + d := by decide
  refine ⟨b.toNat - 48,by omega,?_⟩
  apply UInt8.toNat_inj.mp
  rw [each (b.toNat - 48) (by omega)]
  omega

theorem count_bytes (count : UInt32) : ∀ b ∈ utf8 count.toNat.repr,digitByte b = true := by
  have shown : ∀ c ∈ count.toNat.repr.toList,c.toNat < 128 ∧ digitByte (UInt8.ofNat c.toNat) = true := by
    intro c member
    obtain ⟨d,small,rfl⟩ := digit_char (count_chars count c member)
    exact ⟨(digit_code d small).1,(digit_code d small).2.2⟩
  rw [utf8_ascii fun c member => (shown c member).1]
  intro b member
  obtain ⟨c,inside,rfl⟩ := List.mem_map.mp member
  exact (shown c inside).2

theorem count_shown (count : UInt32) : utf8 count.toNat.repr ≠ [] := by
  intro blank
  have empty : utf8 "" = [] := by decide
  exact Nat.repr_ne_empty (utf8_injective (blank.trans empty.symm))

-- An entry's bytes tell where it ends, in front of anything that is no digit.
def Ends (a b : AggregateCount) : Prop := ∀ x y : List UInt8,(∀ c ∈ x.head?,digitByte c = false) → (∀ c ∈ y.head?,digitByte c = false) →
  encodeAggregate a ++ x = encodeAggregate b ++ y → a = b ∧ x = y

theorem counts_end {m n : UInt32} {x y : List UInt8} (headX : ∀ c ∈ x.head?,digitByte c = false)
    (headY : ∀ c ∈ y.head?,digitByte c = false) (same : utf8 m.toNat.repr ++ x = utf8 n.toNat.repr ++ y) : m = n ∧ x = y := by
  have digits : ∀ count : UInt32,∀ b ∈ utf8 count.toNat.repr,(!digitByte b) = false := by
    intro count b member
    rw [count_bytes count b member]
    rfl
  obtain ⟨texts,rest⟩ := front_inj (digits m) (digits n) (by simpa using headX) (by simpa using headY) same
  exact ⟨UInt32.toNat_inj.mp (Nat.repr_injective (utf8_injective texts)),rest⟩

theorem equals_end {a b : AggregateCount} (freeA : '=' ∉ a.key.toList) (freeB : '=' ∉ b.key.toList) : Ends a b := by
  intro x y headX headY same
  have ascii : ('=' : Char).toNat < 128 := by decide
  simp only [encodeAggregate,List.append_assoc,List.singleton_append] at same
  obtain ⟨keys,rest⟩ := field_inj (fun held => freeA (ascii_mem_utf8 ascii held)) (fun held => freeB (ascii_mem_utf8 ascii held)) same
  obtain ⟨counts,tails⟩ := counts_end headX headY rest
  obtain ⟨key,count⟩ := a
  obtain ⟨other,number⟩ := b
  cases utf8_injective keys
  cases counts
  exact ⟨rfl,tails⟩

theorem digits_end {a b : AggregateCount} (freeA : ∀ c ∈ a.key.toList,c.isDigit = false)
    (freeB : ∀ c ∈ b.key.toList,c.isDigit = false) : Ends a b := by
  intro x y headX headY same
  have front : ∀ entry : AggregateCount,(∀ c ∈ entry.key.toList,c.isDigit = false) →
      ∀ c ∈ utf8 entry.key ++ [0x3d],digitByte c = false := by
    intro entry free c member
    rcases List.mem_append.mp member with inside | mark
    · by_contra digit
      rw [Bool.not_eq_false] at digit
      obtain ⟨d,small,rfl⟩ := digit_byte digit
      have kept := free _ (ascii_mem_utf8 (digit_code d small).1 inside)
      rw [(digit_code d small).2.1] at kept
      cases kept
    · rw [List.mem_singleton.mp mark]
      rfl
  have head : ∀ (count : UInt32) (rest : List UInt8),∀ c ∈ (utf8 count.toNat.repr ++ rest).head?,digitByte c = true := by
    intro count rest c first
    obtain ⟨d,more,shape⟩ := List.exists_cons_of_ne_nil (count_shown count)
    rw [shape,List.cons_append,List.head?_cons,Option.mem_def,Option.some.injEq] at first
    rw [← first]
    exact count_bytes count d (by rw [shape]; exact List.mem_cons_self)
  rw [encodeAggregate,encodeAggregate,List.append_assoc,List.append_assoc _ _ y] at same
  obtain ⟨keys,rest⟩ := front_inj (front a freeA) (front b freeB) (head a.count x) (head b.count y) same
  obtain ⟨counts,tails⟩ := counts_end headX headY rest
  have keys := List.append_cancel_right keys
  obtain ⟨key,count⟩ := a
  obtain ⟨other,number⟩ := b
  cases utf8_injective keys
  cases counts
  exact ⟨rfl,tails⟩

def behind : List AggregateCount → List UInt8
  | [] => []
  | next::rest => 0x1e::encodeAggregates (next::rest)

theorem encodeAggregates_cons (entry : AggregateCount) (rest : List AggregateCount) :
    encodeAggregates (entry::rest) = encodeAggregate entry ++ behind rest := by
  cases rest with
  | nil => simp [encodeAggregates,behind]
  | cons next more => simp [encodeAggregates,behind,List.intercalate_cons_cons]

theorem behind_head (rest : List AggregateCount) : ∀ c ∈ (behind rest).head?,digitByte c = false := by
  intro c first
  cases rest with
  | nil => cases first
  | cons next more =>
    cases first
    rfl

theorem ends_inj {a b : List AggregateCount} (ends : ∀ x ∈ a,∀ y ∈ b,Ends x y) (same : encodeAggregates a = encodeAggregates b) :
    a = b := by
  have shown : ∀ (entry : AggregateCount) (rest : List AggregateCount),encodeAggregates (entry::rest) ≠ [] := by
    intro entry rest blank
    rw [encodeAggregates_cons] at blank
    simp [encodeAggregate] at blank
  induction a generalizing b with
  | nil =>
    cases b with
    | nil => rfl
    | cons next more => exact absurd same.symm (shown next more)
  | cons entry rest ih =>
    cases b with
    | nil => exact absurd same (shown entry rest)
    | cons next more =>
      rw [encodeAggregates_cons,encodeAggregates_cons] at same
      obtain ⟨rfl,tails⟩ := ends entry List.mem_cons_self next List.mem_cons_self _ _ (behind_head rest) (behind_head more) same
      have equal : encodeAggregates rest = encodeAggregates more := by
        cases rest <;> cases more <;> first | rfl | cases tails | exact (List.cons.inj tails).2
      rw [ih (fun x inside y among => ends x (.tail _ inside) y (.tail _ among)) equal]

-- The aggregate keys are made of the characters of an alphabet.
def Written (alphabet : Set Char) (list : List AggregateCount) : Prop := ∀ entry ∈ list,∀ c ∈ entry.key.toList,c ∈ alphabet

def SummaryInput.Written (alphabet : Set Char) (s : SummaryInput) : Prop :=
  SigningInputs.Written alphabet s.dispatchesByOpId ∧ SigningInputs.Written alphabet s.dispatchesByCapabilityRequirement ∧
    SigningInputs.Written alphabet s.outcomesByClass

-- No separator of the fields, nor all that makes up the end of an entry in front of another.
def Readable (alphabet : Set Char) : Prop :=
  '\x1f' ∉ alphabet ∧ ('\x1e' ∈ alphabet → '=' ∈ alphabet → ∀ c ∈ alphabet,c.isDigit = false)

theorem readable_inj {alphabet : Set Char} (readable : Readable alphabet) {a b : List AggregateCount} (writtenA : Written alphabet a)
    (writtenB : Written alphabet b) (same : encodeAggregates a = encodeAggregates b) : a = b := by
  by_cases mark : '\x1e' ∈ alphabet
  · by_cases equals : '=' ∈ alphabet
    · have digitless := readable.2 mark equals
      refine ends_inj (fun x inside y among => ?_) same
      exact digits_end (fun c held => digitless c (writtenA x inside c held)) (fun c held => digitless c (writtenB y among c held))
    · refine ends_inj (fun x inside y among => ?_) same
      exact equals_end (fun held => equals (writtenA x inside _ held)) (fun held => equals (writtenB y among _ held))
  · refine encodeAggregates_inj (fun x inside held => ?_) (fun y among held => ?_) same
    · exact mark (writtenA x inside _ held)
    · exact mark (writtenB y among _ held)

theorem summary_injective {alphabet : Set Char} (readable : Readable alphabet) {s t : SummaryInput} (writtenS : s.Written alphabet)
    (writtenT : t.Written alphabet) (same : s.bytes = t.bytes) : s = t := by
  have plain : ∀ {list : List AggregateCount},Written alphabet list → ∀ entry ∈ list,Plain entry.key :=
    fun written entry inside held => readable.1 (written entry inside _ held)
  simp only [SummaryInput.bytes,summary_bytes] at same
  obtain ⟨prev,same⟩ := field_inj (plain_free s.prevHashB64.plain) (plain_free t.prevHashB64.plain) same
  obtain ⟨tail,same⟩ := field_inj (plain_free s.tailHashB64.plain) (plain_free t.tailHashB64.plain) same
  obtain ⟨first,same⟩ := List.append_inj same (by simp)
  obtain ⟨last,same⟩ := List.append_inj (List.cons.inj same).2 (by simp)
  obtain ⟨ops,same⟩ := field_inj (encodeAggregates_free (plain writtenS.1)) (encodeAggregates_free (plain writtenT.1)) (List.cons.inj same).2
  obtain ⟨capabilities,same⟩ := field_inj (encodeAggregates_free (plain writtenS.2.1)) (encodeAggregates_free (plain writtenT.2.1)) same
  obtain ⟨classes,same⟩ := field_inj (encodeAggregates_free (plain writtenS.2.2)) (encodeAggregates_free (plain writtenT.2.2)) same
  obtain ⟨principals,total⟩ := List.append_inj same (by simp)
  cases s
  cases t
  simp only [SummaryInput.mk.injEq]
  exact ⟨hash_inj prev,hash_inj tail,beBytes64_injective first,beBytes64_injective last,
    readable_inj readable writtenS.1 writtenT.1 ops,readable_inj readable writtenS.2.1 writtenT.2.1 capabilities,
    readable_inj readable writtenS.2.2 writtenT.2.2 classes,beBytes32_injective principals,
    beBytes32_injective (List.cons.inj total).2⟩

def noHash : HashText := ⟨"",by simp [Plain]⟩
def summaryOf (ops capabilities classes : List AggregateCount) : SummaryInput := ⟨noHash,noHash,0,0,ops,capabilities,classes,0,0⟩

-- With a separator of the fields in a key an entry can change its list.
theorem shifted_bytes : (summaryOf [⟨"\x1f",0⟩] [] [⟨"",0⟩]).bytes = (summaryOf [] [⟨"",0⟩] [⟨"\x1f",0⟩]).bytes := by decide

-- With the end of an entry in a key two entries are one.
def swallowed (d : Nat) : String := String.ofList ['=',Nat.digitChar d,'\x1e']

theorem swallowed_bytes : ∀ d < 10,(summaryOf [⟨"",.ofNat d⟩,⟨"",.ofNat d⟩] [] []).bytes =
    (summaryOf [⟨swallowed d,.ofNat d⟩] [] []).bytes := by decide

theorem injective_readable {alphabet : Set Char} (injective : ∀ s t : SummaryInput,s.Written alphabet → t.Written alphabet →
    s.bytes = t.bytes → s = t) : Readable alphabet := by
  refine ⟨fun unit => ?_,fun mark equals c member => ?_⟩
  · have same := injective _ _ ?_ ?_ shifted_bytes
    · cases congrArg SummaryInput.dispatchesByOpId same
    · simpa [SummaryInput.Written,Written,summaryOf] using unit
    · simpa [SummaryInput.Written,Written,summaryOf] using unit
  · by_contra digit
    rw [Bool.not_eq_false] at digit
    obtain ⟨d,small,rfl⟩ := digit_char digit
    have same := injective _ _ ?_ ?_ (swallowed_bytes d small)
    · cases congrArg (fun s => s.dispatchesByOpId.length) same
    · simp [SummaryInput.Written,Written,summaryOf]
    · simp [SummaryInput.Written,Written,summaryOf,swallowed,mark,equals,member]

theorem kinds_apart (t : WitnessInput) (s : SummaryInput) : t.bytes ≠ s.bytes := by
  intro same
  have kinds := same_kind (r := .witness ⟨⟨""⟩,t.prevHashB64.text,t.tsNs,t.opId,t.principalTokenId,t.capabilityRequirement,t.outcome,
    t.traceRoot,""⟩) (q := .rollUpSummary ⟨⟨""⟩,s.prevHashB64.text,s.tailHashB64.text,s.tsNsFirst,s.tsNsLast,s.dispatchesByOpId,
    s.dispatchesByCapabilityRequirement,s.outcomesByClass,s.distinctPrincipalCount,s.totalEntryCount,""⟩) same
  cases kinds

theorem signing_inputs (crates : DomainCrates) (endpoints : SerdeText crates.endpointsToVec) (ops : SerdeText crates.opToVec) :
    (∀ t,Unique t ↔ Plain t.opId ∧ Plain t.principalTokenId ∧ Plain t.capabilityRequirement) ∧
    (∀ alphabet : Set Char,(∀ s t : SummaryInput,s.Written alphabet → t.Written alphabet → s.bytes = t.bytes → s = t) ↔
      Readable alphabet) ∧
    (∀ d e : DomainInput,d.bytes crates = e.bytes crates → d = e) ∧
    ∀ (t : WitnessInput) (s : SummaryInput),t.bytes ≠ s.bytes := by
  refine ⟨fun t => ⟨unique_plain,fun plain => plain_unique plain.1 plain.2.1 plain.2.2⟩,fun alphabet => ⟨injective_readable,?_⟩,
    fun d e => domain_injective endpoints ops,kinds_apart⟩
  exact fun readable s t writtenS writtenT same => summary_injective readable writtenS writtenT same

theorem numbered_serde [Encodable α] : SerdeText fun value : α => utf8 (IdealCrates.numbered value) := by
  refine ⟨⟨_,Function.partialInv_left (utf8_injective.comp IdealCrates.numbered_injective)⟩,fun value => ?_⟩
  refine plain_free ?_
  simp [Plain,IdealCrates.numbered]

def renamed (groupId newDisplayName : String) : DomainInput := ⟨noHash,1,"hall",[],.renameGroup groupId newDisplayName⟩

theorem domain_bytes_apart : (renamed "g" "hall").bytes IdealCrates.domainLibrary ≠ (renamed "gh" "all").bytes IdealCrates.domainLibrary := by
  have endpoints : SerdeText IdealCrates.domainLibrary.endpointsToVec := by
    unfold IdealCrates.domainLibrary
    exact numbered_serde
  have ops : SerdeText IdealCrates.domainLibrary.opToVec := by
    unfold IdealCrates.domainLibrary
    exact numbered_serde
  intro same
  have equal := (signing_inputs IdealCrates.domainLibrary endpoints ops).2.2.1 _ _ same
  have named := congrArg DomainInput.op equal
  revert named
  decide

-- An op id cut in two, and two entries read as one.
theorem inputs_shared : (¬ ∀ t u : WitnessInput,t.bytes = u.bytes → t = u) ∧ ¬ ∀ s t : SummaryInput,s.bytes = t.bytes → s = t := by
  refine ⟨fun injective => ?_,fun injective => ?_⟩
  · have same := injective ⟨noHash,1,"op\x1fa","b","c",.success,⟨0,0⟩⟩ ⟨noHash,1,"op","a","b\x1fc",.success,⟨0,0⟩⟩ (by decide)
    have names : "op\x1fa" = "op" := congrArg WitnessInput.opId same
    revert names
    decide
  · have same := injective (summaryOf [⟨"a",1⟩,⟨"b",2⟩] [] []) (summaryOf [⟨"a=1\x1eb",2⟩] [] []) (by decide)
    cases congrArg (fun s => s.dispatchesByOpId.length) same

end EvoCore.SigningInputs
