import EvoCore.AuditRecords
import EvoCore.Runs
import EvoCore.Tilings

namespace EvoCore.AuditChain
open External AuditRecords HashLinks Runs Tilings
open DomainEntries (WitnessId WitnessError)

def defaultChainCapacity : Nat := 8192

structure WitnessChain where
  ring : List ChainRecord
  headHashB64 : String
  issuedTotal : UInt64
  summariesTotal : UInt64
  signingKey : SigningKey
  capacity : Nat
deriving DecidableEq,Repr

def WitnessChain.snapshot (c : WitnessChain) : List ChainRecord := c.ring

variable (crates : AuditCrates)

def withCapacity (signingKey : SigningKey) (capacity : Nat) : WitnessChain :=
  ⟨[],zeroPrevHashB64 crates,0,0,signingKey,max capacity 1⟩
def new (signingKey : SigningKey) : WitnessChain := withCapacity crates signingKey defaultChainCapacity
def verifyingKey (c : WitnessChain) : VerifyingKey := crates.verifyingKey c.signingKey

def issue (c : WitnessChain) (id : WitnessId) (tsNs : UInt64) (opId principalTokenId capabilityRequirement : String)
    (outcome : DispatchOutcome) (traceRoot : SpanId) : Witness :=
  let input := witnessSigningBytes c.headHashB64 tsNs opId principalTokenId capabilityRequirement outcome traceRoot
  ⟨id,c.headHashB64,tsNs,opId,principalTokenId,capabilityRequirement,outcome,traceRoot,
    crates.encode (crates.sign c.signingKey input)⟩

-- ring.remove(0) on a full ring.
def evict (c : WitnessChain) : WitnessChain :=
  if c.ring.length = c.capacity then {c with ring := c.ring.tail} else c

def push (c : WitnessChain) (w : Witness) : WitnessChain :=
  {c with ring := c.ring++[ChainRecord.witness w],headHashB64 := canonicalHashB64 crates (.witness w),issuedTotal := c.issuedTotal+1}

def record (c : WitnessChain) (id : WitnessId) (tsNs : UInt64) (opId principalTokenId capabilityRequirement : String)
    (outcome : DispatchOutcome) (traceRoot : SpanId) : Witness × WitnessChain :=
  let witness := issue crates c id tsNs opId principalTokenId capabilityRequirement outcome traceRoot
  (witness,push crates (evict c) witness)

def spanWitnesses : List ChainRecord → Except WitnessError (List Witness)
  | [] => .ok []
  | .witness w::rest =>
    match spanWitnesses rest with
    | .ok ws => .ok (w::ws)
    | .error e => .error e
  | .rollUpSummary _::_ => .error (.encoding "prune: unexpected summary in witness-only span")

def hashBefore (records : List ChainRecord) : String :=
  match records.getLast? with
  | none => zeroPrevHashB64 crates
  | some r => canonicalHashB64 crates r

def pruneOlderThan (c : WitnessChain) (id : WitnessId) (thresholdNs : UInt64) :
    Except WitnessError (Option WitnessRollUpSummary) × WitnessChain :=
  let leadingSummaries := (c.ring.takeWhile ChainRecord.isRollupSummary).length
  let spanEndRelative :=
    ((c.ring.drop leadingSummaries).takeWhile fun r => r.isWitness && decide (r.tsNs < thresholdNs)).length
  if spanEndRelative = 0 then (.ok none,c)
  else
    let spanStart := leadingSummaries
    let spanEnd := leadingSummaries + spanEndRelative
    match spanWitnesses ((c.ring.take spanEnd).drop spanStart) with
    | .error e => (.error e,c)
    | .ok span =>
      match aggregate crates id span (hashBefore crates (c.ring.take spanStart)) c.signingKey with
      | .error e => (.error e,c)
      | .ok summary =>
        (.ok (some summary),{c with
          ring := c.ring.take spanStart ++ .rollUpSummary summary::c.ring.drop spanEnd
          summariesTotal := c.summariesTotal+1})

inductive Call where
  | record (id : WitnessId) (tsNs : UInt64) (opId principalTokenId capabilityRequirement : String)
    (outcome : DispatchOutcome) (traceRoot : SpanId)
  | pruneOlderThan (id : WitnessId) (thresholdNs : UInt64)
deriving DecidableEq,Repr

def step (c : WitnessChain) : Call → WitnessChain
  | .record id tsNs opId principal capability outcome traceRoot =>
    (record crates c id tsNs opId principal capability outcome traceRoot).2
  | .pruneOlderThan id thresholdNs => (pruneOlderThan crates c id thresholdNs).2

def issuedBy (c : WitnessChain) : Call → List ChainRecord
  | .record id tsNs opId principal capability outcome traceRoot =>
    [.witness (record crates c id tsNs opId principal capability outcome traceRoot).1]
  | .pruneOlderThan id thresholdNs =>
    match (pruneOlderThan crates c id thresholdNs).1 with
    | .ok (some summary) => [.rollUpSummary summary]
    | _ => []

def observe (s : WitnessChain × List ChainRecord) (call : Call) : WitnessChain × List ChainRecord :=
  (step crates s.1 call,s.2++issuedBy crates s.1 call)

variable {crates}

theorem observe_chain : (run (observe crates) (c,issued) calls).1 = run (step crates) c calls := by
  induction calls generalizing c issued with
  | nil => rfl
  | cons call rest ih => exact ih

theorem evict_signingKey (c : WitnessChain) : (evict c).signingKey = c.signingKey := by
  unfold evict
  split <;> rfl

theorem step_signingKey (c : WitnessChain) (call : Call) : (step crates c call).signingKey = c.signingKey := by
  cases call with
  | record => exact evict_signingKey c
  | pruneOlderThan identifier thresholdNs =>
    simp only [step,pruneOlderThan]
    split
    · rfl
    · split
      · rfl
      · split <;> rfl

theorem run_signingKey (c : WitnessChain) (calls : List Call) : (run (step crates) c calls).signingKey = c.signingKey := by
  induction calls generalizing c with
  | nil => rfl
  | cons call rest ih => exact (ih (step crates c call)).trans (step_signingKey c call)

def witnesses (records : List ChainRecord) : List Witness :=
  records.filterMap fun
    | .witness w => some w
    | .rollUpSummary _ => none

@[simp] theorem witnesses_append : witnesses (xs++ys) = witnesses xs ++ witnesses ys := by simp [witnesses]
@[simp] theorem witnesses_witness : witnesses [.witness w] = [w] := rfl
@[simp] theorem witnesses_summary : witnesses [.rollUpSummary s] = [] := rfl

theorem mem_witnesses : w ∈ witnesses records ↔ .witness w ∈ records := by
  simp only [witnesses,List.mem_filterMap]
  constructor
  · intro ⟨record,member,shown⟩
    cases record with
    | witness v => cases Option.some.inj shown; exact member
    | rollUpSummary s => cases shown
  · intro member
    exact ⟨.witness w,member,rfl⟩

def ofSummaries (summaries : List WitnessRollUpSummary) : List ChainRecord := summaries.map .rollUpSummary
def ofWitnesses (live : List Witness) : List ChainRecord := live.map .witness

def witnessHash (crates : AuditCrates) (w : Witness) : String := canonicalHashB64 crates (.witness w)

-- The stretch of issued witnesses a record stands for: a witness for itself, a
-- summary for the span it was aggregated from.
def Covers (crates : AuditCrates) (key : SigningKey) (ledger : List Witness) : ChainRecord → Nat → Nat → Prop
  | .witness w,lo,hi => ledger[lo]? = some w ∧ hi = lo+1
  | .rollUpSummary s,lo,hi =>
    hi ≤ ledger.length ∧ aggregate crates s.id ((ledger.take hi).drop lo) s.prevHashB64 key = .ok s

-- A summary starts at the front of the ring or right behind another summary.
def Rooted (crates : AuditCrates) (key : SigningKey) (issued : List ChainRecord) (s : WitnessRollUpSummary) : Prop :=
  ∃ lo hi,Covers crates key (witnesses issued) (.rollUpSummary s) lo hi ∧
    (s.prevHashB64 = zeroPrevHashB64 crates ∨ ∃ p start,.rollUpSummary p ∈ issued ∧
      Covers crates key (witnesses issued) (.rollUpSummary p) start lo ∧
      s.prevHashB64 = canonicalHashB64 crates (.rollUpSummary p))

-- What every run keeps, evictions and prunes included: the ring is summaries and
-- then witnesses, and stands for a stretch of the issued witnesses up to the last.
structure Recorded (crates : AuditCrates) (c : WitnessChain) (issued : List ChainRecord) : Prop where
  linked : Linked (witnessHash crates) Witness.prevHashB64 (zeroPrevHashB64 crates) (witnesses issued)
  head : c.headHashB64 = tip (witnessHash crates) (zeroPrevHashB64 crates) (witnesses issued)
  sorted : ∃ summaries live,c.ring = ofSummaries summaries ++ ofWitnesses live
  tiled : ∃ lo,Tiles (Covers crates c.signingKey (witnesses issued)) lo c.ring (witnesses issued).length
  chained : c.ring.IsChain fun r s => s.isRollupSummary = true → s.prevHashB64 = canonicalHashB64 crates r
  held : ∀ r ∈ c.ring,r ∈ issued
  signed : ∀ r ∈ issued,Signed crates c.signingKey r
  rooted : ∀ s,.rollUpSummary s ∈ issued → Rooted crates c.signingKey issued s

theorem covers_grows (more : List Witness) (r : ChainRecord) (lo hi : Nat)
    (covered : Covers crates key ledger r lo hi) : Covers crates key (ledger++more) r lo hi := by
  cases r with
  | witness w =>
    have bound := (List.getElem?_eq_some_iff.mp covered.1).1
    exact ⟨(List.getElem?_append_left bound).trans covered.1,covered.2⟩
  | rollUpSummary s =>
    refine ⟨by simp; have := covered.1; omega,?_⟩
    rw [List.take_append_of_le_length covered.1]
    exact covered.2

theorem rooted_grows (more : List ChainRecord) (rooted : Rooted crates key issued s) :
    Rooted crates key (issued++more) s := by
  obtain ⟨lo,hi,covered,origin⟩ := rooted
  refine ⟨lo,hi,by rw [witnesses_append]; exact covers_grows _ _ _ _ covered,?_⟩
  rcases origin with zero | ⟨p,start,member,before,named⟩
  · exact .inl zero
  · refine .inr ⟨p,start,List.mem_append_left _ member,?_,named⟩
    rw [witnesses_append]
    exact covers_grows _ _ _ _ before

theorem start_recorded (crates : AuditCrates) (key : SigningKey) (capacity : Nat) :
    Recorded crates (withCapacity crates key capacity) [] where
  linked := trivial
  head := rfl
  sorted := ⟨[],[],rfl⟩
  tiled := ⟨0,rfl⟩
  chained := .nil
  held := fun _ member => member
  signed := fun r member => by cases member
  rooted := fun s member => by cases member

theorem evict_recorded (recorded : Recorded crates c issued) : Recorded crates (evict c) issued := by
  unfold evict
  split
  · obtain ⟨summaries,live,shape⟩ := recorded.sorted
    obtain ⟨lo,tiled⟩ := recorded.tiled
    refine {recorded with sorted := ?_,tiled := tiles_tail tiled,chained := recorded.chained.tail,held := ?_}
    · cases summaries with
      | nil => exact ⟨[],live.tail,by simp [shape,ofSummaries,ofWitnesses,List.map_tail]⟩
      | cons s rest => exact ⟨rest,live,by simp [shape,ofSummaries]⟩
    · exact fun r member => recorded.held r (List.mem_of_mem_tail member)
  · exact recorded

theorem push_recorded (recorded : Recorded crates c issued) (named : w.prevHashB64 = c.headHashB64)
    (signed : Signed crates c.signingKey (.witness w)) : Recorded crates (push crates c w) (issued++[ChainRecord.witness w]) := by
  obtain ⟨summaries,live,shape⟩ := recorded.sorted
  obtain ⟨lo,tiled⟩ := recorded.tiled
  refine ⟨?_,?_,⟨summaries,live++[w],by simp [push,shape,ofWitnesses]⟩,⟨lo,?_⟩,?_,?_,?_,?_⟩
  · rw [witnesses_append,witnesses_witness,linked_snoc]
    exact ⟨recorded.linked,named.trans recorded.head⟩
  · simp [push,witnessHash]
  · rw [witnesses_append,witnesses_witness]
    refine tiles_append.mpr ⟨_,tiles_mono (covers_grows _) tiled,tiles_single.mpr ⟨?_,?_⟩⟩
    · simp
    · simp
  · refine List.isChain_append.mpr ⟨recorded.chained,by simp,?_⟩
    intro before _ r member summary
    simp only [List.head?_cons,Option.mem_def,Option.some.injEq] at member
    subst member
    cases summary
  · intro r member
    rcases List.mem_append.mp member with old | fresh
    · exact List.mem_append_left _ (recorded.held r old)
    · exact List.mem_append_right _ fresh
  · intro r member
    rcases List.mem_append.mp member with old | fresh
    · exact recorded.signed r old
    · rw [List.mem_singleton.mp fresh]
      exact signed
  · intro s member
    rcases List.mem_append.mp member with old | fresh
    · exact rooted_grows _ (recorded.rooted s old)
    · cases List.mem_singleton.mp fresh

theorem spanWitnesses_all (live : List Witness) : spanWitnesses (ofWitnesses live) = .ok live := by
  induction live with
  | nil => rfl
  | cons w rest ih =>
    simp only [ofWitnesses,List.map_cons,spanWitnesses] at ih ⊢
    rw [ih]

theorem leading_summaries (summaries : List WitnessRollUpSummary) (live : List Witness) :
    (ofSummaries summaries ++ ofWitnesses live).takeWhile ChainRecord.isRollupSummary = ofSummaries summaries := by
  have all : ∀ r ∈ ofSummaries summaries,r.isRollupSummary = true := by
    intro r member
    obtain ⟨s,_,rfl⟩ := List.mem_map.mp member
    rfl
  rw [List.takeWhile_append_of_pos all]
  cases live with
  | nil => simp [ofWitnesses]
  | cons w rest => simp [ofWitnesses,ChainRecord.isRollupSummary]

theorem old_witnesses (live : List Witness) (thresholdNs : UInt64) :
    (ofWitnesses live).takeWhile (fun r => r.isWitness && decide (r.tsNs < thresholdNs)) =
      ofWitnesses (live.takeWhile fun w => decide (w.tsNs < thresholdNs)) := by
  simp only [ofWitnesses,List.takeWhile_map]
  rfl

theorem prune_exact (crates : AuditCrates) (shape : c.ring = ofSummaries summaries ++ ofWitnesses live) (identifier : WitnessId)
    (thresholdNs : UInt64) : pruneOlderThan crates c identifier thresholdNs =
      if (live.takeWhile fun w => decide (w.tsNs < thresholdNs)).length = 0 then (.ok none,c)
      else
        match aggregate crates identifier (live.takeWhile fun w => decide (w.tsNs < thresholdNs))
          (hashBefore crates (ofSummaries summaries)) c.signingKey with
        | .error e => (.error e,c)
        | .ok s => (.ok (some s),{c with
            ring := ofSummaries summaries ++ .rollUpSummary s::ofWitnesses (live.dropWhile fun w => decide (w.tsNs < thresholdNs))
            summariesTotal := c.summariesTotal+1}) := by
  obtain ⟨span,old⟩ : ∃ span,span = live.takeWhile fun w => decide (w.tsNs < thresholdNs) := ⟨_,rfl⟩
  obtain ⟨rest,young⟩ : ∃ rest,rest = live.dropWhile fun w => decide (w.tsNs < thresholdNs) := ⟨_,rfl⟩
  have parts : live = span++rest := by
    rw [old,young]
    exact List.takeWhile_append_dropWhile.symm
  have slice : ((ofSummaries summaries ++ ofWitnesses live).take
      ((ofSummaries summaries).length + (ofWitnesses span).length)).drop (ofSummaries summaries).length =
      ofWitnesses span := by
    simp [parts,ofWitnesses,List.take_append]
  have after : (ofSummaries summaries ++ ofWitnesses live).drop
      ((ofSummaries summaries).length + (ofWitnesses span).length) = ofWitnesses rest := by
    simp [parts,ofWitnesses,List.drop_append]
  have size : (ofWitnesses span).length = span.length := by simp [ofWitnesses]
  unfold pruneOlderThan
  rw [shape]
  simp only [leading_summaries,List.drop_left,List.take_left,old_witnesses,← old,← young,slice,after,spanWitnesses_all]
  rw [size]

theorem prune_spec (crates : AuditCrates) (shape : c.ring = ofSummaries summaries ++ ofWitnesses live) (identifier : WitnessId)
    (thresholdNs : UInt64) :
    ((∀ s,(pruneOlderThan crates c identifier thresholdNs).1 ≠ .ok (some s)) ∧
      (pruneOlderThan crates c identifier thresholdNs).2 = c) ∨
    ∃ span rest s,live = span++rest ∧
      aggregate crates identifier span (hashBefore crates (ofSummaries summaries)) c.signingKey = .ok s ∧
      pruneOlderThan crates c identifier thresholdNs = (.ok (some s),{c with
        ring := ofSummaries summaries ++ .rollUpSummary s::ofWitnesses rest
        summariesTotal := c.summariesTotal+1}) := by
  rw [prune_exact crates shape]
  split
  · exact .inl ⟨fun s same => (by cases same),rfl⟩
  · cases made : aggregate crates identifier (live.takeWhile fun w => decide (w.tsNs < thresholdNs))
      (hashBefore crates (ofSummaries summaries)) c.signingKey with
    | error e => exact .inl ⟨fun s same => (by cases same),rfl⟩
    | ok s => exact .inr ⟨_,_,s,List.takeWhile_append_dropWhile.symm,made,rfl⟩

theorem live_slice (tiled : Tiles (Covers crates key ledger) lo (ofWitnesses span) hi) :
    lo ≤ hi ∧ (span ≠ [] → hi ≤ ledger.length) ∧ (ledger.take hi).drop lo = span := by
  induction span generalizing lo with
  | nil =>
    cases tiled
    exact ⟨le_refl _,fun shown => absurd rfl shown,by simp⟩
  | cons w rest ih =>
    obtain ⟨mid,⟨standing,rfl⟩,after⟩ := tiled
    obtain ⟨inside,item⟩ := List.getElem?_eq_some_iff.mp standing
    obtain ⟨order,far,slice⟩ := ih after
    have reach : hi ≤ ledger.length := by
      by_cases done : rest = []
      · subst done
        cases after
        exact inside
      · exact far done
    have long : lo < (ledger.take hi).length := by
      rw [List.length_take]
      omega
    refine ⟨by omega,fun _ => reach,?_⟩
    rw [List.drop_eq_getElem_cons long,slice,List.getElem_take,item]

theorem summary_before (tiled : Tiles (Covers crates key ledger) lo (ofSummaries summaries) hi) :
    summaries = [] ∨ ∃ before p start,summaries = before++[p] ∧ Covers crates key ledger (.rollUpSummary p) start hi := by
  rcases List.eq_nil_or_concat summaries with none | ⟨before,p,rfl⟩
  · exact .inl none
  · simp only [ofSummaries,List.concat_eq_append,List.map_append,tiles_append] at tiled
    obtain ⟨start,_,last⟩ := tiled
    exact .inr ⟨before,p,start,by simp,tiles_single.mp last⟩

theorem live_chained (r : ChainRecord) (live : List Witness) :
    (r::ofWitnesses live).IsChain fun r s => s.isRollupSummary = true → s.prevHashB64 = canonicalHashB64 crates r := by
  induction live generalizing r with
  | nil => exact .singleton r
  | cons w rest ih => exact .cons_cons (fun summary => by cases summary) (ih (.witness w))

theorem prune_recorded (recorded : Recorded crates c issued)
    (shape : c.ring = ofSummaries summaries ++ ofWitnesses (span++rest))
    (made : aggregate crates identifier span (hashBefore crates (ofSummaries summaries)) c.signingKey = .ok s)
    (count : UInt64) :
    Recorded crates {c with ring := ofSummaries summaries ++ .rollUpSummary s::ofWitnesses rest,summariesTotal := count}
      (issued++[ChainRecord.rollUpSummary s]) := by
  obtain ⟨named,drawn,signed,last,ending,_⟩ := aggregate_spec made
  obtain ⟨lo,tiled⟩ := recorded.tiled
  have pieces : ofWitnesses (span++rest) = ofWitnesses span ++ ofWitnesses rest := by simp [ofWitnesses]
  simp only [shape,pieces,tiles_append] at tiled
  obtain ⟨a,before,b,middle,after⟩ := tiled
  have shown : span ≠ [] := by
    intro none
    simp [none] at ending
  obtain ⟨_,reach,slice⟩ := live_slice middle
  have ledger : witnesses (issued++[ChainRecord.rollUpSummary s]) = witnesses issued := by simp
  have covered : Covers crates c.signingKey (witnesses issued) (.rollUpSummary s) a b := by
    refine ⟨reach shown,?_⟩
    rw [slice,drawn,named]
    exact made
  refine ⟨?_,?_,⟨summaries++[s],rest,by simp [ofSummaries]⟩,⟨lo,?_⟩,?_,?_,?_,?_⟩
  · rw [ledger]; exact recorded.linked
  · rw [ledger]; exact recorded.head
  · rw [ledger]
    exact tiles_append.mpr ⟨a,before,b,covered,after⟩
  · have chained := recorded.chained
    rw [shape] at chained
    refine List.isChain_append.mpr ⟨(List.isChain_append.mp chained).1,live_chained _ _,?_⟩
    intro r standing next first _
    simp only [List.head?_cons,Option.mem_def,Option.some.injEq] at standing first
    subst first
    exact named.trans (by simp [hashBefore,standing])
  · intro r member
    rcases List.mem_append.mp member with old | new
    · exact List.mem_append_left _ (recorded.held r (shape ▸ List.mem_append_left _ old))
    · rcases List.mem_cons.mp new with fresh | old
      · simp [fresh]
      · refine List.mem_append_left _ (recorded.held r ?_)
        rw [shape,pieces]
        exact List.mem_append_right _ (List.mem_append_right _ old)
  · intro r member
    rcases List.mem_append.mp member with old | fresh
    · exact recorded.signed r old
    · rw [List.mem_singleton.mp fresh]
      exact signed
  · intro other member
    rcases List.mem_append.mp member with old | fresh
    · exact rooted_grows _ (recorded.rooted other old)
    · cases List.mem_singleton.mp fresh
      refine ⟨a,b,ledger ▸ covered,?_⟩
      rcases summary_before before with none | ⟨firsts,p,start,parts,covering⟩
      · left
        rw [named,none]
        rfl
      · right
        refine ⟨p,start,List.mem_append_left _ (recorded.held _ ?_),ledger ▸ covering,?_⟩
        · rw [shape,parts]
          simp [ofSummaries]
        · rw [named,parts]
          simp [ofSummaries,hashBefore]

theorem observe_recorded (recorded : Recorded crates s.1 s.2) (call : Call) :
    Recorded crates (observe crates s call).1 (observe crates s call).2 := by
  cases call with
  | record identifier tsNs opId principal capability outcome traceRoot =>
    have kept : (evict s.1).headHashB64 = s.1.headHashB64 := by
      unfold evict
      split <;> rfl
    refine push_recorded (evict_recorded recorded) ?_ ?_
    · rw [kept]
      rfl
    · rw [evict_signingKey]
      rfl
  | pruneOlderThan identifier thresholdNs =>
    obtain ⟨summaries,live,shape⟩ := recorded.sorted
    rcases prune_spec crates shape identifier thresholdNs with ⟨quiet,same⟩ | ⟨span,rest,made,parts,aggregated,result⟩
    · have nothing : issuedBy crates s.1 (.pruneOlderThan identifier thresholdNs) = [] := by
        simp only [issuedBy]
      simp only [observe,step,same,nothing,List.append_nil]
      exact recorded
    · simp only [observe,step,issuedBy,result]
      exact prune_recorded recorded (parts ▸ shape) aggregated _

theorem run_recorded (crates : AuditCrates) (key : SigningKey) (capacity : Nat) (calls : List Call) :
    Recorded crates (run (observe crates) (withCapacity crates key capacity,[]) calls).1
      (run (observe crates) (withCapacity crates key capacity,[]) calls).2 := by
  have keeps : ∀ (s : WitnessChain × List ChainRecord) call,Recorded crates s.1 s.2 →
      Recorded crates (observe crates s call).1 (observe crates s call).2 :=
    fun _ call recorded => observe_recorded recorded call
  have start : Recorded crates (withCapacity crates key capacity,([] : List ChainRecord)).1 [] :=
    start_recorded crates key capacity
  exact run_keeps keeps start

end EvoCore.AuditChain
