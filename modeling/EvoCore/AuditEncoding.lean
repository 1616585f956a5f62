import EvoCore.AuditRecords

namespace EvoCore.AuditEncoding
open Bytes Fields AuditRecords

theorem digit_ascii : ∀ d < 16,(Nat.digitChar d).toNat < 128 ∧ Nat.digitChar d ≠ '\x1f' := by decide
theorem digitChar_inj : ∀ d < 16,∀ e < 16,Nat.digitChar d = Nat.digitChar e → d = e := by decide

theorem toHex_chars (span : SpanId) : ∀ c ∈ span.toHex.toList,c.toNat < 128 ∧ c ≠ '\x1f' := by
  intro c member
  simp only [SpanId.toHex,String.toList_ofList,List.mem_map] at member
  obtain ⟨d,digit,rfl⟩ := member
  exact digit_ascii d (digits_lt (by decide) digit)

theorem toHex_length (span : SpanId) : (utf8 span.toHex).length = 32 := by
  rw [utf8_ascii fun c member => (toHex_chars span c member).1]
  simp [SpanId.toHex]

theorem toHex_injective : Function.Injective SpanId.toHex := by
  intro a b same
  have texts : (digits 16 32 a.toU128).map Nat.digitChar = (digits 16 32 b.toU128).map Nat.digitChar :=
    String.ofList_injective same
  have written : digits 16 32 a.toU128 = digits 16 32 b.toU128 := by
    refine mapped_inj ?_ texts
    intro d first e second
    exact digitChar_inj d (digits_lt (by decide) first) e (digits_lt (by decide) second)
  have boundA := a.high.toNat_lt
  have boundB := b.high.toNat_lt
  have lowA := a.low.toNat_lt
  have lowB := b.low.toNat_lt
  have values := digits_inj (by unfold SpanId.toU128; omega) (by unfold SpanId.toU128; omega) written
  unfold SpanId.toU128 at values
  have highs : a.high = b.high := UInt64.toNat_inj.mp (by omega)
  have lows : a.low = b.low := UInt64.toNat_inj.mp (by omega)
  cases a
  cases b
  cases highs
  cases lows
  rfl

def Plain (text : String) : Prop := '\x1f' ∉ text.toList

def PlainRecord : ChainRecord → Prop
  | .witness w => Plain w.prevHashB64 ∧ Plain w.opId ∧ Plain w.principalTokenId ∧ Plain w.capabilityRequirement
  | .rollUpSummary s => Plain s.prevHashB64 ∧ Plain s.tailHashB64 ∧ (∀ entry ∈ s.dispatchesByOpId,Plain entry.key) ∧
    (∀ entry ∈ s.dispatchesByCapabilityRequirement,Plain entry.key) ∧ ∀ entry ∈ s.outcomesByClass,Plain entry.key

theorem plain_free (plain : Plain text) : (0x1f : UInt8) ∉ utf8 text := by
  intro member
  have ascii : ('\x1f' : Char).toNat < 128 := by decide
  exact plain (ascii_mem_utf8 ascii member)

theorem outcome_plain (outcome : DispatchOutcome) : Plain outcome.asStr := by
  cases outcome <;> simp [Plain,DispatchOutcome.asStr]

theorem asStr_injective : Function.Injective DispatchOutcome.asStr := by
  intro a b same
  cases a <;> cases b <;> first | rfl | simp [DispatchOutcome.asStr] at same

-- Five separators follow the timestamp of a tuple whose texts hold none, so whatever shares its bytes has
-- its fields in the same places.
theorem witness_texts (prev : Plain prevHashB64) (op : Plain opId) (principal : Plain principalTokenId)
    (capability : Plain capabilityRequirement)
    (same : witnessSigningBytes prevHashB64 tsNs opId principalTokenId capabilityRequirement outcome traceRoot =
      witnessSigningBytes prevHashB64' tsNs' opId' principalTokenId' capabilityRequirement' outcome' traceRoot') :
    prevHashB64 = prevHashB64' ∧ tsNs = tsNs' ∧ opId = opId' ∧ principalTokenId = principalTokenId' ∧
      capabilityRequirement = capabilityRequirement' ∧ outcome = outcome' ∧ traceRoot = traceRoot' := by
  have none_ : ∀ {text : String},Plain text → (utf8 text).count 0x1f = 0 := fun plain => List.count_eq_zero.mpr (plain_free plain)
  have hex : ∀ span : SpanId,Plain span.toHex := fun span held => (toHex_chars span _ held).2 rfl
  rw [witness_bytes,witness_bytes] at same
  obtain ⟨prevs,stamps,rest⟩ := framed_counted (by simp) (by simp [none_ prev]) (by
    simp only [List.count_append,List.count_cons_self,none_ op,none_ principal,none_ capability,none_ (outcome_plain _),none_ (hex _)]
    omega) same
  obtain ⟨ops,rest⟩ := field_counted (plain_free op) (by
    simp only [List.count_append,List.count_cons_self,none_ principal,none_ capability,none_ (outcome_plain _),none_ (hex _)]
    omega) rest
  obtain ⟨principals,rest⟩ := field_counted (plain_free principal) (by
    simp only [List.count_append,List.count_cons_self,none_ capability,none_ (outcome_plain _),none_ (hex _)]
    omega) rest
  obtain ⟨capabilities,rest⟩ := field_counted (plain_free capability) (by
    simp only [List.count_append,List.count_cons_self,none_ (outcome_plain _),none_ (hex _)]
    omega) rest
  obtain ⟨outcomes,spans⟩ := field_inj (plain_free (outcome_plain _)) (plain_free (outcome_plain _)) rest
  exact ⟨utf8_injective prevs,beBytes64_injective stamps,utf8_injective ops,utf8_injective principals,
    utf8_injective capabilities,asStr_injective (utf8_injective outcomes),toHex_injective (utf8_injective spans)⟩

theorem witness_fields (plain : PlainRecord (.witness v)) (same : signingInput (.witness v) = signingInput (.witness w))
    (signature : w.signatureB64 = v.signatureB64) : w = {v with id := w.id} := by
  obtain ⟨prev,op,principal,capability⟩ := plain
  have texts := witness_texts prev op principal capability same
  cases w
  cases v
  simp_all

theorem count_chars (count : UInt32) : ∀ c ∈ count.toNat.repr.toList,c.isDigit = true := by
  intro c member
  rw [Nat.toList_repr] at member
  exact Nat.isDigit_of_mem_toDigits (by decide) (by decide) member

theorem not_count (count : UInt32) {c : Char} (ascii : c.toNat < 128) (other : c.isDigit = false) :
    UInt8.ofNat c.toNat ∉ utf8 count.toNat.repr := by
  intro member
  have digit := count_chars count c (ascii_mem_utf8 ascii member)
  rw [other] at digit
  cases digit

theorem encodeAggregate_injective : Function.Injective encodeAggregate := by
  intro a b same
  simp only [encodeAggregate,List.append_assoc,List.singleton_append] at same
  have ascii : ('=' : Char).toNat < 128 := by decide
  obtain ⟨key,count⟩ := last_field_inj (not_count a.count ascii rfl) (not_count b.count ascii rfl) same
  cases a
  cases b
  simp only [AggregateCount.mk.injEq]
  exact ⟨utf8_injective key,UInt32.toNat_inj.mp (Nat.repr_injective (utf8_injective count))⟩

theorem encodeAggregates_free (plain : ∀ entry ∈ list,Plain entry.key) : (0x1f : UInt8) ∉ encodeAggregates list := by
  have unit : ('\x1f' : Char).toNat < 128 := by decide
  refine joined_free ?_ (by decide)
  intro item member
  obtain ⟨entry,inside,rfl⟩ := List.mem_map.mp member
  simp only [encodeAggregate,List.mem_append,List.mem_singleton,not_or]
  exact ⟨⟨plain_free (plain entry inside),by decide⟩,not_count _ unit rfl⟩

def Unmarked (list : List AggregateCount) : Prop := ∀ entry ∈ list,'\x1e' ∉ entry.key.toList

theorem encodeAggregates_inj (unmarkedA : Unmarked a) (unmarkedB : Unmarked b)
    (same : encodeAggregates a = encodeAggregates b) : a = b := by
  have shown : ∀ list : List AggregateCount,[] ∉ list.map encodeAggregate := by
    intro list member
    obtain ⟨entry,_,blank⟩ := List.mem_map.mp member
    simp [encodeAggregate] at blank
  have free : ∀ list : List AggregateCount,Unmarked list → ∀ item ∈ list.map encodeAggregate,(0x1e : UInt8) ∉ item := by
    intro list unmarked item member
    have recordMark : ('\x1e' : Char).toNat < 128 := by decide
    obtain ⟨entry,inside,rfl⟩ := List.mem_map.mp member
    simp only [encodeAggregate,List.mem_append,List.mem_singleton,not_or]
    refine ⟨⟨?_,by decide⟩,not_count _ recordMark rfl⟩
    exact fun held => unmarked entry inside (ascii_mem_utf8 recordMark held)
  exact List.map_injective_iff.mpr encodeAggregate_injective
    (joined_inj (free a unmarkedA) (free b unmarkedB) (shown a) (shown b) same)

-- The summary t with the aggregates of s.
def recut (s t : WitnessRollUpSummary) : WitnessRollUpSummary :=
  {t with
    dispatchesByOpId := s.dispatchesByOpId
    dispatchesByCapabilityRequirement := s.dispatchesByCapabilityRequirement
    outcomesByClass := s.outcomesByClass}

-- Of a summary whose texts hold no unit separator the bytes give all fields but how the aggregates are cut.
theorem summary_texts (prev : Plain t.prevHashB64) (tail : Plain t.tailHashB64)
    (ops : ∀ entry ∈ t.dispatchesByOpId,Plain entry.key) (capabilities : ∀ entry ∈ t.dispatchesByCapabilityRequirement,Plain entry.key)
    (classes : ∀ entry ∈ t.outcomesByClass,Plain entry.key)
    (same : signingInput (.rollUpSummary t) = signingInput (.rollUpSummary s)) :
    s = {recut s t with id := s.id,signatureB64 := s.signatureB64} ∧
    encodeAggregates t.dispatchesByOpId = encodeAggregates s.dispatchesByOpId ∧
    encodeAggregates t.dispatchesByCapabilityRequirement = encodeAggregates s.dispatchesByCapabilityRequirement ∧
    encodeAggregates t.outcomesByClass = encodeAggregates s.outcomesByClass := by
  have none_ : ∀ {list : List AggregateCount},(∀ entry ∈ list,Plain entry.key) → (encodeAggregates list).count 0x1f = 0 :=
    fun plain => List.count_eq_zero.mpr (encodeAggregates_free plain)
  have hash : ∀ {text : String},Plain text → (utf8 text).count 0x1f = 0 := fun plain => List.count_eq_zero.mpr (plain_free plain)
  -- The counters at the end have a fixed width.
  have split : ∀ u : WitnessRollUpSummary,signingInput (.rollUpSummary u) =
      ((utf8 u.prevHashB64 ++ 0x1f::utf8 u.tailHashB64) ++ 0x1f::((beBytes64 u.tsNsFirst ++ 0x1f::beBytes64 u.tsNsLast) ++
        0x1f::(encodeAggregates u.dispatchesByOpId ++ 0x1f::(encodeAggregates u.dispatchesByCapabilityRequirement ++
        0x1f::encodeAggregates u.outcomesByClass)))) ++
      0x1f::(beBytes32 u.distinctPrincipalCount ++ 0x1f::beBytes32 u.totalEntryCount) := by
    intro u
    simp only [signingInput,summary_bytes,List.append_assoc,List.cons_append]
  rw [split,split] at same
  obtain ⟨same,ends⟩ := List.append_inj' same (by simp)
  obtain ⟨principals,totals⟩ := List.append_inj (List.cons.inj ends).2 (by simp)
  obtain ⟨fronts,stamps,lists⟩ := framed_counted (by simp) (by
    simp only [List.count_append,List.count_cons_self,hash prev,hash tail]
    omega) (by
    simp only [List.count_append,List.count_cons_self,none_ ops,none_ capabilities,none_ classes]
    omega) same
  obtain ⟨prevs,tails⟩ := field_counted (plain_free prev) (by simp [hash tail]) fronts
  obtain ⟨firsts,lasts⟩ := List.append_inj stamps (by simp)
  obtain ⟨opTexts,lists⟩ := field_counted (encodeAggregates_free ops) (by
    simp only [List.count_append,List.count_cons_self,none_ capabilities,none_ classes]
    omega) lists
  obtain ⟨capabilityTexts,classTexts⟩ := field_counted (encodeAggregates_free capabilities) (by simp [none_ classes]) lists
  refine ⟨?_,opTexts,capabilityTexts,classTexts⟩
  cases s
  cases t
  simp only [recut,WitnessRollUpSummary.mk.injEq,true_and,and_true]
  exact ⟨(utf8_injective prevs).symm,(utf8_injective tails).symm,(beBytes64_injective firsts).symm,
    (beBytes64_injective (List.cons.inj lasts).2).symm,(beBytes32_injective principals).symm,
    (beBytes32_injective (List.cons.inj totals).2).symm⟩

-- Without the conditions on the texts one text can be read in two ways.
example : encodeAggregates [⟨"a",1⟩,⟨"b",2⟩] = encodeAggregates [⟨"a=1\x1eb",2⟩] := by decide

-- The two kinds never share their bytes: five bytes from the end a summary has a
-- separator and a witness a hexadecimal digit.
theorem summary_mark (s : WitnessRollUpSummary) : (signingInput (.rollUpSummary s)).reverse[4]? = some 0x1f := by
  dsimp only [signingInput]
  unfold summarySigningBytes
  rw [List.append_assoc,List.reverse_append,List.getElem?_append_left (by simp)]
  rfl

theorem witness_mark (w : Witness) : (signingInput (.witness w)).reverse[4]? ≠ some 0x1f := by
  intro mark
  dsimp only [signingInput] at mark
  unfold witnessSigningBytes at mark
  rw [List.reverse_append] at mark
  rw [List.getElem?_append_left (by simp [toHex_length])] at mark
  have member : (0x1f : UInt8) ∈ utf8 w.traceRoot.toHex := List.mem_reverse.mp (List.mem_of_getElem? mark)
  exact plain_free (fun held => (toHex_chars w.traceRoot _ held).2 rfl) member

theorem same_kind (same : signingInput r = signingInput q) : r.isWitness = q.isWitness := by
  cases r with
  | witness w =>
    cases q with
    | witness v => rfl
    | rollUpSummary s =>
      have mark := summary_mark s
      rw [← same] at mark
      exact absurd mark (witness_mark w)
  | rollUpSummary s =>
    cases q with
    | witness v =>
      have mark := summary_mark s
      rw [same] at mark
      exact absurd mark (witness_mark v)
    | rollUpSummary t => rfl

end EvoCore.AuditEncoding
