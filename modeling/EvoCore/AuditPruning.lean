import EvoCore.AuditVerifier

namespace EvoCore.AuditPruning
open External AuditRecords AuditChain AuditVerifier Runs IdealCrates Std
open DomainEntries (WitnessId WitnessError)

variable {crates : AuditCrates} {c : WitnessChain} {issued : List ChainRecord} {span live seen : List Witness}
  {summaries : List WitnessRollUpSummary} {identifier : WitnessId} {thresholdNs : UInt64} {key : SigningKey} {previous : String}

structure Counted (names : List String) (counts : ExtTreeMap String UInt32) : Prop where
  counted : ∀ name,(counts.getD name 0).toNat = names.count name
  listed : ∀ name,name ∈ counts ↔ name ∈ names

structure Tallied (seen : List Witness) (tally : Tally) : Prop where
  ops : Counted (seen.map (·.opId)) tally.opCounts
  capabilities : Counted (seen.map (·.capabilityRequirement)) tally.capCounts
  outcomes : Counted (seen.map (·.outcome.asStr)) tally.outcomeCounts
  principals : tally.principalSet.size ≤ seen.length
  total : tally.total.toNat = seen.length

theorem nothing_counted : Counted [] ∅ := ⟨fun _ => by simp,fun _ => by simp⟩

theorem nothing_tallied : Tallied [] {} :=
  ⟨nothing_counted,nothing_counted,nothing_counted,by simp,rfl⟩

theorem count_next {names : List String} {counts : ExtTreeMap String UInt32} (counted : Counted names counts) (name : String)
    (room : names.length + 1 < 2^32) : Counted (names ++ [name]) (countKey counts name) := by
  refine ⟨fun other => ?_,fun other => ?_⟩
  · have bound : names.count name ≤ names.length := List.count_le_length
    have one : (counts.getD name 0).toNat + 1 < 2^32 := by
      rw [counted.counted]
      omega
    simp only [countKey,ExtTreeMap.getD_insert,LawfulEqCmp.compare_eq_iff_eq,List.count_append]
    by_cases own : name = other
    · subst own
      rw [if_pos rfl,UInt32.toNat_add,UInt32.toNat_one,Nat.mod_eq_of_lt one,counted.counted]
      simp
    · rw [if_neg own,counted.counted]
      simp [own]
  · simp only [countKey,ExtTreeMap.mem_insert,LawfulEqCmp.compare_eq_iff_eq,counted.listed,List.mem_append,List.mem_singleton]
    rw [or_comm,eq_comm]

theorem add_tallied {tally : Tally} (tallied : Tallied seen tally) (w : Witness) :
    (seen.length + 1 < 2^32 → ∃ next,tally.add w = .ok next ∧ Tallied (seen ++ [w]) next) ∧
    (2^32 ≤ seen.length + 1 → ∃ e,tally.add w = .error e) := by
  unfold Tally.add
  rw [tallied.total]
  constructor
  · intro room
    rw [if_pos room]
    refine ⟨_,rfl,?_⟩
    have short : ∀ f : Witness → String,(seen.map f).length + 1 < 2^32 := fun f => by simpa using room
    refine ⟨?_,?_,?_,?_,?_⟩
    · rw [List.map_append]
      exact count_next tallied.ops w.opId (short _)
    · rw [List.map_append]
      exact count_next tallied.capabilities w.capabilityRequirement (short _)
    · rw [List.map_append]
      exact count_next tallied.outcomes w.outcome.asStr (short _)
    · have grown := ExtTreeSet.size_insert_le (t := tally.principalSet) (k := w.principalTokenId)
      have before := tallied.principals
      rw [List.length_append,List.length_singleton]
      exact grown.trans (by omega)
    · rw [UInt32.toNat_add,UInt32.toNat_one,tallied.total,Nat.mod_eq_of_lt room]
      simp
  · intro full
    rw [if_neg (by omega)]
    exact ⟨_,rfl⟩

theorem loop_tallied {tally : Tally} (tallied : Tallied seen tally) (span : List Witness) :
    (seen.length + span.length < 2^32 → ∃ final,span.foldlM Tally.add tally = .ok final ∧ Tallied (seen ++ span) final) ∧
    (2^32 ≤ seen.length + span.length → ∃ e,span.foldlM Tally.add tally = .error e) := by
  induction span generalizing seen tally with
  | nil =>
    refine ⟨fun _ => ⟨tally,rfl,by simpa using tallied⟩,fun full => ?_⟩
    have bound := tally.total.toNat_lt
    rw [tallied.total] at bound
    simp at full
    omega
  | cons w rest ih =>
    have first := add_tallied tallied w
    simp only [List.length_cons,List.foldlM_cons]
    refine ⟨fun room => ?_,fun full => ?_⟩
    · obtain ⟨next,added,more⟩ := first.1 (by omega)
      obtain ⟨final,looped,last⟩ := (ih more).1 (by simp; omega)
      exact ⟨final,by rw [added]; exact looped,by simpa using last⟩
    · by_cases room : seen.length + 1 < 2^32
      · obtain ⟨next,added,more⟩ := first.1 room
        obtain ⟨e,failed⟩ := (ih more).2 (by simp; omega)
        exact ⟨e,by rw [added]; exact failed⟩
      · obtain ⟨e,failed⟩ := first.2 (by omega)
        exact ⟨e,by rw [failed]; rfl⟩

theorem counted_sum {names : List String} {counts : ExtTreeMap String UInt32} (counted : Counted names counts) :
    ((aggregateCounts counts).map (·.count.toNat)).sum = names.length := by
  have each : (aggregateCounts counts).map (·.count.toNat) = (counts.toList.map (·.1)).map (names.count ·) := by
    simp only [aggregateCounts,List.map_map]
    apply List.map_congr_left
    rintro ⟨name,count⟩ member
    have found := ExtTreeMap.mem_toList_iff_getElem?_eq_some.mp member
    have shown := counted.counted name
    rw [ExtTreeMap.getD_eq_getD_getElem?,found] at shown
    exact shown
  have same : (counts.toList.map (·.1)).Perm names.dedup := by
    refine (List.perm_ext_iff_of_nodup ?_ (List.nodup_dedup names)).mpr fun name => ?_
    · rw [List.Nodup,List.pairwise_map]
      refine ExtTreeMap.distinct_keys_toList.imp ?_
      intro a b apart equal
      exact apart (by rw [equal]; exact ReflCmp.compare_self)
    · rw [ExtTreeMap.map_fst_toList_eq_keys,ExtTreeMap.mem_keys,counted.listed,List.mem_dedup]
  rw [each,(same.map _).sum_eq,List.sum_map_count_dedup_eq_length]

def SumsTo (s : WitnessRollUpSummary) (removed : Nat) : Prop :=
  (s.dispatchesByOpId.map (·.count.toNat)).sum = removed ∧
  (s.dispatchesByCapabilityRequirement.map (·.count.toNat)).sum = removed ∧
  (s.outcomesByClass.map (·.count.toNat)).sum = removed ∧ s.totalEntryCount.toNat = removed

theorem aggregate_exact (some_ : span ≠ []) :
    (span.length < 2^32 → ∃ s,aggregate crates identifier span previous key = .ok s ∧ SumsTo s span.length) ∧
    (2^32 ≤ span.length → ∃ e,aggregate crates identifier span previous key = .error e) := by
  have looped := loop_tallied nothing_tallied span
  rw [List.length_nil,Nat.zero_add] at looped
  obtain ⟨first,rest,rfl⟩ := List.exists_cons_of_ne_nil some_
  simp only [aggregate]
  refine ⟨fun room => ?_,fun full => ?_⟩
  · obtain ⟨tally,counted,tallied⟩ := looped.1 room
    rw [List.nil_append] at tallied
    have few : tally.principalSet.size < 2^32 := tallied.principals.trans_lt room
    simp only [counted,if_pos few]
    refine ⟨_,rfl,?_,?_,?_,tallied.total⟩
    · exact (counted_sum tallied.ops).trans (List.length_map _)
    · exact (counted_sum tallied.capabilities).trans (List.length_map _)
    · exact (counted_sum tallied.outcomes).trans (List.length_map _)
  · obtain ⟨e,failed⟩ := looped.2 full
    simp only [failed]
    exact ⟨e,rfl⟩

-- The parts of a ring: the leading summaries, the maximal run of old witnesses behind them and the rest.
def old (thresholdNs : UInt64) (r : ChainRecord) : Bool := r.isWitness && decide (r.tsNs < thresholdNs)
def leading (c : WitnessChain) : List ChainRecord := c.ring.takeWhile ChainRecord.isRollupSummary
def collapsing (c : WitnessChain) (thresholdNs : UInt64) : List ChainRecord :=
  (c.ring.dropWhile ChainRecord.isRollupSummary).takeWhile (old thresholdNs)
def remaining (c : WitnessChain) (thresholdNs : UInt64) : List ChainRecord :=
  (c.ring.dropWhile ChainRecord.isRollupSummary).dropWhile (old thresholdNs)

-- What is asked of a prune of a ring that verifies, and of the record after it.
structure Lossless (crates : AuditCrates) (c : WitnessChain) (thresholdNs : UInt64)
    (result : Except WitnessError (Option WitnessRollUpSummary)) (after : WitnessChain) : Prop where
  verifies : Verifies crates after.snapshot (verifyingKey crates after)
  head : after.headHashB64 = c.headHashB64
  issued : after.issuedTotal = c.issuedTotal
  collapsed : if collapsing c thresholdNs = [] then result = .ok none ∧ after.ring = c.ring
    else ∃ s,result = .ok (some s) ∧ after.ring = leading c ++ .rollUpSummary s::remaining c thresholdNs ∧
      SumsTo s (collapsing c thresholdNs).length
  again : ∀ other,pruneOlderThan crates after other thresholdNs = (.ok none,after)
  recorded : ∀ (id : WitnessId) (tsNs : UInt64) (opId principal capability : String) (outcome : DispatchOutcome) (traceRoot : SpanId),
    (record crates after id tsNs opId principal capability outcome traceRoot).2.snapshot =
      after.snapshot ++ [ChainRecord.witness (record crates after id tsNs opId principal capability outcome traceRoot).1] ∧
    Verifies crates (record crates after id tsNs opId principal capability outcome traceRoot).2.snapshot (verifyingKey crates after)

-- The run can be counted in a u32, and the ring is not full or the run is of two at least.
def Leaves (c : WitnessChain) (thresholdNs : UInt64) : Prop :=
  (collapsing c thresholdNs).length < 2^32 ∧ (c.ring.length = c.capacity → 2 ≤ (collapsing c thresholdNs).length)

theorem parts_shape (shape : c.ring = ofSummaries summaries ++ ofWitnesses live) :
    leading c = ofSummaries summaries ∧
    collapsing c thresholdNs = ofWitnesses (live.takeWhile fun w => decide (w.tsNs < thresholdNs)) ∧
    remaining c thresholdNs = ofWitnesses (live.dropWhile fun w => decide (w.tsNs < thresholdNs)) := by
  have front := leading_summaries summaries live
  have back : (ofSummaries summaries ++ ofWitnesses live).dropWhile ChainRecord.isRollupSummary = ofWitnesses live := by
    have whole := List.takeWhile_append_dropWhile (p := ChainRecord.isRollupSummary) (l := ofSummaries summaries ++ ofWitnesses live)
    rw [front] at whole
    exact List.append_cancel_left whole
  unfold leading collapsing remaining
  rw [shape,front,back]
  refine ⟨rfl,old_witnesses live thresholdNs,?_⟩
  simp only [ofWitnesses,List.dropWhile_map]
  rfl

theorem young_kept (live : List Witness) (thresholdNs : UInt64) :
    (live.dropWhile fun w => decide (w.tsNs < thresholdNs)).takeWhile (fun w => decide (w.tsNs < thresholdNs)) = [] := by
  induction live with
  | nil => rfl
  | cons w rest ih =>
    by_cases behind : w.tsNs < thresholdNs
    · simpa [behind] using ih
    · simp [behind]

theorem prune_nothing (shape : c.ring = ofSummaries summaries ++ ofWitnesses live)
    (young : live.takeWhile (fun w => decide (w.tsNs < thresholdNs)) = []) :
    pruneOlderThan crates c identifier thresholdNs = (.ok none,c) := by
  rw [prune_exact crates shape,young]
  rfl

def Bounded (c : WitnessChain) : Prop := c.ring.length ≤ c.capacity ∧ 0 < c.capacity

theorem step_bounded (crates : AuditCrates) (c : WitnessChain) (call : Call) (bounded : Bounded c) : Bounded (step crates c call) := by
  obtain ⟨fits,room⟩ := bounded
  cases call with
  | record id tsNs opId principal capability outcome traceRoot =>
    simp only [step,record,push,evict,Bounded]
    split
    · rename_i full
      simp only [List.length_append,List.length_tail,List.length_singleton]
      omega
    · rename_i free
      simp only [List.length_append,List.length_singleton]
      omega
  | pruneOlderThan identifier thresholdNs =>
    simp only [step,pruneOlderThan]
    split
    · exact ⟨fits,room⟩
    · rename_i some_
      split
      · exact ⟨fits,room⟩
      · split
        · exact ⟨fits,room⟩
        · refine ⟨?_,room⟩
          have run_ := (List.takeWhile_prefix (fun r => r.isWitness && decide (r.tsNs < thresholdNs))
            (l := c.ring.drop (c.ring.takeWhile ChainRecord.isRollupSummary).length)).length_le
          rw [List.length_drop] at run_
          simp only [List.length_append,List.length_cons,List.length_take,List.length_drop]
          omega

theorem run_bounded (crates : AuditCrates) (key : SigningKey) (capacity : Nat) (calls : List Call) :
    Bounded (run (step crates) (withCapacity crates key capacity) calls) := by
  refine run_keeps (step_bounded crates) ⟨Nat.zero_le _,?_⟩
  exact lt_max_of_lt_right Nat.one_pos

theorem verified_whole (recorded : Recorded crates c issued) (bounded : Bounded c)
    (verifies : Verifies crates c.snapshot (verifyingKey crates c)) : Whole crates c := by
  obtain ⟨shown,walks,_⟩ := (verifies_exact _ _).mp verifies
  refine ⟨⟨issued,recorded⟩,fun r first => ?_,fun empty => absurd empty shown,bounded.2⟩
  have named := walks.1 r first
  cases r <;> exact named

theorem recorded_exact (documented : Documented crates.toCrates) (fresh : ∀ r,canonicalHashB64 crates r ≠ zeroPrevHashB64 crates)
    (whole : Whole crates c) :
    (∀ (id : WitnessId) (tsNs : UInt64) (opId principal capability : String) (outcome : DispatchOutcome) (traceRoot : SpanId),
      (record crates c id tsNs opId principal capability outcome traceRoot).2.snapshot =
        c.snapshot ++ [ChainRecord.witness (record crates c id tsNs opId principal capability outcome traceRoot).1] ∧
      Verifies crates (record crates c id tsNs opId principal capability outcome traceRoot).2.snapshot (verifyingKey crates c)) ↔
    c.ring.length ≠ c.capacity := by
  have same : ∀ w,verifyingKey crates (push crates (evict c) w) = verifyingKey crates c := by
    intro w
    simp only [verifyingKey,push,evict_signingKey]
  constructor
  · intro all full
    have last := (all ⟨""⟩ 0 "" "" "" .success ⟨0,0⟩).2
    refine evicted_fails fresh whole full (w := issue crates c ⟨""⟩ 0 "" "" "" .success ⟨0,0⟩) rfl rfl ?_
    intro _
    rw [same]
    exact last
  · intro free id tsNs opId principal capability outcome traceRoot
    have next := record_whole whole free (w := issue crates c id tsNs opId principal capability outcome traceRoot) rfl rfl
    have verifies := whole_verifies documented next
    rw [SnapshotVerifies,same] at verifies
    have kept : evict c = c := if_neg free
    have snapshot : (push crates (evict c) (issue crates c id tsNs opId principal capability outcome traceRoot)).snapshot =
        c.snapshot ++ [ChainRecord.witness (issue crates c id tsNs opId principal capability outcome traceRoot)] := by
      rw [kept]
      rfl
    refine ⟨snapshot,verifies ?_⟩
    rw [snapshot]
    simp

theorem prune_lossless (documented : Documented crates.toCrates) (fresh : ∀ r,canonicalHashB64 crates r ≠ zeroPrevHashB64 crates)
    (recorded : Recorded crates c issued) (bounded : Bounded c) (verifies : Verifies crates c.snapshot (verifyingKey crates c))
    (identifier : WitnessId) (thresholdNs : UInt64) :
    Lossless crates c thresholdNs (pruneOlderThan crates c identifier thresholdNs).1 (pruneOlderThan crates c identifier thresholdNs).2 ↔
      Leaves c thresholdNs := by
  have whole := verified_whole recorded bounded verifies
  have later := prune_whole whole identifier thresholdNs
  have shown := whole_verifies documented later
  obtain ⟨summaries,live,shape⟩ := recorded.sorted
  obtain ⟨front,run_,back⟩ := @parts_shape c live summaries thresholdNs shape
  obtain ⟨span,taken⟩ : ∃ span,span = live.takeWhile fun w => decide (w.tsNs < thresholdNs) := ⟨_,rfl⟩
  obtain ⟨rest,left⟩ : ∃ rest,rest = live.dropWhile fun w => decide (w.tsNs < thresholdNs) := ⟨_,rfl⟩
  have exact_ := prune_exact crates shape identifier thresholdNs
  rw [← taken,← left] at exact_
  rw [← taken] at run_
  rw [← left] at back
  have count : (collapsing c thresholdNs).length = span.length := by rw [run_,ofWitnesses,List.length_map]
  by_cases none_ : span.length = 0
  · have empty : collapsing c thresholdNs = [] := List.length_eq_zero_iff.mp (count.trans none_)
    rw [if_pos none_] at exact_
    rw [exact_]
    have free : Leaves c thresholdNs ↔ c.ring.length ≠ c.capacity := by
      simp only [Leaves,count,none_]
      omega
    rw [free,← recorded_exact documented fresh whole]
    refine ⟨fun lossless => lossless.recorded,fun extends_ => ⟨verifies,rfl,rfl,?_,fun other => ?_,extends_⟩⟩
    · rw [if_pos empty]
      exact ⟨rfl,rfl⟩
    · exact prune_nothing shape (taken.symm.trans (List.length_eq_zero_iff.mp none_))
  · have some_ : span ≠ [] := fun empty => none_ (by rw [empty]; rfl)
    have many : collapsing c thresholdNs ≠ [] := by
      intro empty
      rw [empty] at count
      exact none_ count.symm
    rw [if_neg none_] at exact_
    have aggregated := @aggregate_exact crates span identifier c.signingKey (hashBefore crates (ofSummaries summaries)) some_
    by_cases room : span.length < 2^32
    · obtain ⟨s,made,sums⟩ := aggregated.1 room
      simp only [made] at exact_
      rw [exact_] at later shown ⊢
      have size : c.ring.length = summaries.length + (span.length + rest.length) := by
        have parts : live = span ++ rest := by
          rw [taken,left]
          exact List.takeWhile_append_dropWhile.symm
        simp [shape,parts,ofSummaries,ofWitnesses]
      have free : Leaves c thresholdNs ↔ summaries.length + (rest.length + 1) ≠ c.capacity := by
        have fits := bounded.1
        simp only [Leaves,count,size] at fits ⊢
        omega
      have exactly := recorded_exact documented fresh later
      simp only [List.length_append,List.length_cons,ofSummaries,ofWitnesses,List.length_map] at exactly
      rw [free,← exactly]
      refine ⟨fun lossless => lossless.recorded,fun extends_ => ⟨shown ?_,rfl,rfl,?_,fun other => ?_,extends_⟩⟩
      · simp [WitnessChain.snapshot]
      · rw [if_neg many,front,back,count]
        exact ⟨s,rfl,rfl,sums⟩
      · have shape_ : ofSummaries summaries ++ .rollUpSummary s::ofWitnesses rest =
            ofSummaries (summaries ++ [s]) ++ ofWitnesses rest := by simp [ofSummaries]
        refine prune_nothing shape_ ?_
        rw [left]
        exact young_kept live thresholdNs
    · obtain ⟨e,failed⟩ := aggregated.2 (by omega)
      simp only [failed] at exact_
      rw [exact_]
      refine iff_of_false (fun lossless => ?_) (fun leaves => room (by rw [← count]; exact leaves.1))
      have collapsed := lossless.collapsed
      rw [if_neg many] at collapsed
      obtain ⟨s,same,_⟩ := collapsed
      cases same

theorem pruning_lossless (documented : Documented crates.toCrates) (fresh : ∀ r,canonicalHashB64 crates r ≠ zeroPrevHashB64 crates)
    (key : SigningKey) (capacity : Nat) (calls : List Call) (identifier : WitnessId) (thresholdNs : UInt64)
    (verifies : Verifies crates (run (step crates) (withCapacity crates key capacity) calls).snapshot
      (verifyingKey crates (run (step crates) (withCapacity crates key capacity) calls))) :
    Lossless crates (run (step crates) (withCapacity crates key capacity) calls) thresholdNs
      (pruneOlderThan crates (run (step crates) (withCapacity crates key capacity) calls) identifier thresholdNs).1
      (pruneOlderThan crates (run (step crates) (withCapacity crates key capacity) calls) identifier thresholdNs).2 ↔
    Leaves (run (step crates) (withCapacity crates key capacity) calls) thresholdNs := by
  have recorded := run_recorded crates key capacity calls
  rw [observe_chain] at recorded
  exact prune_lossless documented fresh recorded (run_bounded crates key capacity calls) verifies identifier thresholdNs

def twoDispatches : List Call := [dispatch "w1" 1,dispatch "w2" 5]

theorem two_verify (documented : Documented crates.toCrates) (room : 2 ≤ capacity) :
    Verifies crates (run (step crates) (withCapacity crates keeper capacity) twoDispatches).snapshot
      (verifyingKey crates (run (step crates) (withCapacity crates keeper capacity) twoDispatches)) := by
  have none_ : 0 ≠ max capacity 1 := by omega
  have one : 1 ≠ max capacity 1 := by omega
  have first : Fits (withCapacity crates keeper capacity) (dispatch "w1" 1) := by
    simp [Fits,dispatch,withCapacity,none_]
  have second : Fits (step crates (withCapacity crates keeper capacity) (dispatch "w1" 1)) (dispatch "w2" 5) := by
    simp [Fits,dispatch,step,record,push,evict,withCapacity,none_,one]
  have whole := step_whole (step_whole (start_whole crates keeper capacity) first) second
  refine whole_verifies documented whole ?_
  simp [twoDispatches,step,dispatch,record,push,WitnessChain.snapshot]

theorem two_leave (room : 2 ≤ capacity) :
    Leaves (run (step crates) (withCapacity crates keeper capacity) twoDispatches) 3 ↔ capacity ≠ 2 := by
  have none_ : 0 ≠ max capacity 1 := by omega
  have one : 1 ≠ max capacity 1 := by omega
  simp [Leaves,collapsing,twoDispatches,dispatch,step,record,push,evict,withCapacity,issue,old,ChainRecord.isRollupSummary,
    ChainRecord.isWitness,ChainRecord.tsNs,none_,one]
  omega

theorem first_pruned :
    Lossless auditLibrary (run (step auditLibrary) (withCapacity auditLibrary keeper 3) twoDispatches) 3
      (pruneOlderThan auditLibrary (run (step auditLibrary) (withCapacity auditLibrary keeper 3) twoDispatches) ⟨"s1"⟩ 3).1
      (pruneOlderThan auditLibrary (run (step auditLibrary) (withCapacity auditLibrary keeper 3) twoDispatches) ⟨"s1"⟩ 3).2 :=
  (pruning_lossless auditLibrary_documented auditLibrary_free.fresh keeper 3 twoDispatches ⟨"s1"⟩ 3
    (two_verify auditLibrary_documented (by decide))).mpr ((two_leave (by decide)).mpr (by decide))

-- A ring of two is as full after the prune as before it.
theorem full_after_prune : ¬ ∀ (crates : AuditCrates) (key : SigningKey) (capacity : Nat) (calls : List Call)
    (identifier : WitnessId) (thresholdNs : UInt64),Documented crates.toCrates →
    Verifies crates (run (step crates) (withCapacity crates key capacity) calls).snapshot
      (verifyingKey crates (run (step crates) (withCapacity crates key capacity) calls)) →
    Lossless crates (run (step crates) (withCapacity crates key capacity) calls) thresholdNs
      (pruneOlderThan crates (run (step crates) (withCapacity crates key capacity) calls) identifier thresholdNs).1
      (pruneOlderThan crates (run (step crates) (withCapacity crates key capacity) calls) identifier thresholdNs).2 := by
  intro always
  have verifies := two_verify auditLibrary_documented (Nat.le_refl 2)
  have lossless := always auditLibrary keeper 2 twoDispatches ⟨"s1"⟩ 3 auditLibrary_documented verifies
  have recorded := run_recorded auditLibrary keeper 2 twoDispatches
  rw [observe_chain] at recorded
  have leaves := (prune_lossless auditLibrary_documented auditLibrary_free.fresh recorded
    (run_bounded auditLibrary keeper 2 twoDispatches) verifies ⟨"s1"⟩ 3).mp lossless
  exact (two_leave (by decide)).mp leaves rfl

end EvoCore.AuditPruning
