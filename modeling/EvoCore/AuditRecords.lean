import EvoCore.DomainEntries

namespace EvoCore.AuditRecords
open Bytes External Fields
open DomainEntries (WitnessId WitnessError)

structure SpanId where
  high : UInt64
  low : UInt64
deriving DecidableEq,Repr

def SpanId.toU128 (span : SpanId) : Nat := span.high.toNat * 2^64 + span.low.toNat
def SpanId.toHex (span : SpanId) : String := String.ofList ((digits 16 32 span.toU128).map Nat.digitChar)

inductive DispatchOutcome where
  | success
  | failure
deriving DecidableEq,Repr

def DispatchOutcome.asStr : DispatchOutcome → String
  | .success => "success"
  | .failure => "failure"

structure Witness where
  id : WitnessId
  prevHashB64 : String
  tsNs : UInt64
  opId : String
  principalTokenId : String
  capabilityRequirement : String
  outcome : DispatchOutcome
  traceRoot : SpanId
  signatureB64 : String
deriving DecidableEq,Repr

structure AggregateCount where
  key : String
  count : UInt32
deriving DecidableEq,Repr

structure WitnessRollUpSummary where
  id : WitnessId
  prevHashB64 : String
  tailHashB64 : String
  tsNsFirst : UInt64
  tsNsLast : UInt64
  dispatchesByOpId : List AggregateCount
  dispatchesByCapabilityRequirement : List AggregateCount
  outcomesByClass : List AggregateCount
  distinctPrincipalCount : UInt32
  totalEntryCount : UInt32
  signatureB64 : String
deriving DecidableEq,Repr

inductive ChainRecord where
  | witness (w : Witness)
  | rollUpSummary (s : WitnessRollUpSummary)
deriving DecidableEq,Repr

-- serde_json on the two record types, which cannot fail on them.
structure AuditCrates extends Crates where
  witnessToVec : Witness → List UInt8
  summaryToVec : WitnessRollUpSummary → List UInt8

def witnessSigningBytes (prevHashB64 : String) (tsNs : UInt64) (opId principalTokenId capabilityRequirement : String)
    (outcome : DispatchOutcome) (traceRoot : SpanId) : List UInt8 :=
  utf8 prevHashB64 ++ [0x1f] ++ beBytes64 tsNs ++ [0x1f] ++ utf8 opId ++ [0x1f] ++ utf8 principalTokenId ++ [0x1f] ++
    utf8 capabilityRequirement ++ [0x1f] ++ utf8 outcome.asStr ++ [0x1f] ++ utf8 traceRoot.toHex

theorem witness_bytes : witnessSigningBytes prevHashB64 tsNs opId principalTokenId capabilityRequirement outcome traceRoot =
    utf8 prevHashB64 ++ 0x1f::(beBytes64 tsNs ++ 0x1f::(utf8 opId ++ 0x1f::(utf8 principalTokenId ++
      0x1f::(utf8 capabilityRequirement ++ 0x1f::(utf8 outcome.asStr ++ 0x1f::utf8 traceRoot.toHex))))) := by
  unfold witnessSigningBytes
  simp only [List.append_assoc,List.cons_append,List.nil_append]

def encodeAggregate (entry : AggregateCount) : List UInt8 := utf8 entry.key ++ [0x3d] ++ utf8 entry.count.toNat.repr
def encodeAggregates (list : List AggregateCount) : List UInt8 := [0x1e].intercalate (list.map encodeAggregate)

def summarySigningBytes (prevHashB64 tailHashB64 : String) (tsNsFirst tsNsLast : UInt64)
    (dispatchesByOpId dispatchesByCapabilityRequirement outcomesByClass : List AggregateCount)
    (distinctPrincipalCount totalEntryCount : UInt32) : List UInt8 :=
  utf8 prevHashB64 ++ [0x1f] ++ utf8 tailHashB64 ++ [0x1f] ++ beBytes64 tsNsFirst ++ [0x1f] ++ beBytes64 tsNsLast ++
    [0x1f] ++ encodeAggregates dispatchesByOpId ++ [0x1f] ++ encodeAggregates dispatchesByCapabilityRequirement ++
    [0x1f] ++ encodeAggregates outcomesByClass ++ [0x1f] ++ beBytes32 distinctPrincipalCount ++ [0x1f] ++
    beBytes32 totalEntryCount

theorem summary_bytes : summarySigningBytes prevHashB64 tailHashB64 tsNsFirst tsNsLast dispatchesByOpId
    dispatchesByCapabilityRequirement outcomesByClass distinctPrincipalCount totalEntryCount =
    utf8 prevHashB64 ++ 0x1f::(utf8 tailHashB64 ++ 0x1f::(beBytes64 tsNsFirst ++ 0x1f::(beBytes64 tsNsLast ++
      0x1f::(encodeAggregates dispatchesByOpId ++ 0x1f::(encodeAggregates dispatchesByCapabilityRequirement ++
      0x1f::(encodeAggregates outcomesByClass ++ 0x1f::(beBytes32 distinctPrincipalCount ++
      0x1f::beBytes32 totalEntryCount))))))) := by
  unfold summarySigningBytes
  simp only [List.append_assoc,List.cons_append,List.nil_append]

def signingInput : ChainRecord → List UInt8
  | .witness w => witnessSigningBytes w.prevHashB64 w.tsNs w.opId w.principalTokenId w.capabilityRequirement w.outcome
    w.traceRoot
  | .rollUpSummary s => summarySigningBytes s.prevHashB64 s.tailHashB64 s.tsNsFirst s.tsNsLast s.dispatchesByOpId
    s.dispatchesByCapabilityRequirement s.outcomesByClass s.distinctPrincipalCount s.totalEntryCount

def ChainRecord.prevHashB64 : ChainRecord → String
  | .witness w => w.prevHashB64
  | .rollUpSummary s => s.prevHashB64
def ChainRecord.tsNs : ChainRecord → UInt64
  | .witness w => w.tsNs
  | .rollUpSummary s => s.tsNsLast
def ChainRecord.id : ChainRecord → WitnessId
  | .witness w => w.id
  | .rollUpSummary s => s.id
def ChainRecord.signatureB64 : ChainRecord → String
  | .witness w => w.signatureB64
  | .rollUpSummary s => s.signatureB64
def ChainRecord.isWitness : ChainRecord → Bool
  | .witness _ => true
  | .rollUpSummary _ => false
def ChainRecord.isRollupSummary : ChainRecord → Bool
  | .witness _ => false
  | .rollUpSummary _ => true

variable (crates : AuditCrates)

def zeroPrevHashB64 : String := zeroHashB64 crates.toCrates
def canonicalHash : ChainRecord → List UInt8
  | .witness w => crates.sha256 (crates.witnessToVec w)
  | .rollUpSummary s => crates.sha256 (crates.summaryToVec s)
def canonicalHashB64 (record : ChainRecord) : String := crates.encode (canonicalHash crates record)

-- The loop of aggregate. The BTree collections iterate in key order.
structure Tally where
  opCounts : Std.ExtTreeMap String UInt32 := ∅
  capCounts : Std.ExtTreeMap String UInt32 := ∅
  outcomeCounts : Std.ExtTreeMap String UInt32 := ∅
  principalSet : Std.ExtTreeSet String := ∅
  total : UInt32 := 0

def countKey (counts : Std.ExtTreeMap String UInt32) (key : String) : Std.ExtTreeMap String UInt32 :=
  counts.insert key (counts.getD key 0 + 1)

def Tally.add (tally : Tally) (w : Witness) : Except WitnessError Tally :=
  if tally.total.toNat + 1 < 2^32 then
    .ok ⟨countKey tally.opCounts w.opId,countKey tally.capCounts w.capabilityRequirement,
      countKey tally.outcomeCounts w.outcome.asStr,tally.principalSet.insert w.principalTokenId,tally.total + 1⟩
  else .error (.encoding "aggregate total exceeds u32")

def aggregateCounts (counts : Std.ExtTreeMap String UInt32) : List AggregateCount :=
  counts.toList.map fun entry => ⟨entry.1,entry.2⟩

-- The summary's id, too, is drawn: here the drawn id is an argument.
def aggregate (id : WitnessId) (span : List Witness) (prevHashB64 : String) (signingKey : SigningKey) :
    Except WitnessError WitnessRollUpSummary :=
  match span with
  | [] => .error (.encoding "cannot aggregate empty span")
  | first::rest =>
    let last := rest.getLastD first
    let tailHashB64 := canonicalHashB64 crates (.witness last)
    match span.foldlM Tally.add {} with
    | .error e => .error e
    | .ok tally =>
      if tally.principalSet.size < 2^32 then
        let byOp := aggregateCounts tally.opCounts
        let byCapability := aggregateCounts tally.capCounts
        let byClass := aggregateCounts tally.outcomeCounts
        let principals := UInt32.ofNat tally.principalSet.size
        let input := summarySigningBytes prevHashB64 tailHashB64 first.tsNs last.tsNs byOp byCapability byClass principals
          tally.total
        .ok ⟨id,prevHashB64,tailHashB64,first.tsNs,last.tsNs,byOp,byCapability,byClass,principals,tally.total,
          crates.encode (crates.sign signingKey input)⟩
      else .error (.encoding "principal cardinality exceeds u32")

variable {crates}

def Signed (crates : AuditCrates) (key : SigningKey) (record : ChainRecord) : Prop :=
  record.signatureB64 = crates.encode (crates.sign key (signingInput record))

theorem aggregate_spec (made : aggregate crates identifier span prev key = .ok s) :
    s.prevHashB64 = prev ∧ s.id = identifier ∧ Signed crates key (.rollUpSummary s) ∧
      ∃ last,span.getLast? = some last ∧ s.tailHashB64 = canonicalHashB64 crates (.witness last) := by
  cases span with
  | nil => cases made
  | cons first rest =>
    simp only [aggregate] at made
    split at made
    · cases made
    · split at made
      · cases Except.ok.inj made
        exact ⟨rfl,rfl,rfl,rest.getLastD first,by rw [List.getLast?_cons,List.getLastD_eq_getLast?],rfl⟩
      · cases made

theorem tally_total {span : List Witness} {tally final : Tally} (counted : span.foldlM Tally.add tally = .ok final) :
    final.total.toNat = tally.total.toNat + span.length := by
  induction span generalizing tally with
  | nil =>
    cases Except.ok.inj counted
    simp
  | cons w rest ih =>
    simp only [List.foldlM_cons,Tally.add] at counted
    split at counted
    · rename_i room
      have next := ih counted
      simp only [UInt32.toNat_add,UInt32.toNat_one,Nat.mod_eq_of_lt room] at next
      rw [next,List.length_cons]
      omega
    · cases counted

theorem aggregate_total (made : aggregate crates identifier span prev key = .ok s) :
    s.totalEntryCount.toNat = span.length := by
  cases span with
  | nil => cases made
  | cons first rest =>
    simp only [aggregate] at made
    cases counted : (first::rest).foldlM Tally.add {} with
    | error e => simp [counted] at made
    | ok tally =>
      have total := tally_total counted
      simp only [counted] at made
      split at made
      · cases Except.ok.inj made
        simpa using total
      · cases made

end EvoCore.AuditRecords
