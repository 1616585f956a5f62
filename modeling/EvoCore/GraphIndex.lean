import EvoCore.RelationGraph

namespace EvoCore.GraphIndex
open Tables Buckets Runs RelationGraph
open SubjectRegistry (StewardError Reply)

def Visible (g : GraphInner) (key : RelationKey) : Prop :=
  ∃ record,get g.relations key = some record ∧ record.suppression = none

-- Claimed by at least one plugin, by none twice, and filed under its own key.
structure WellFiled (key : RelationKey) (record : RelationRecord) : Prop where
  claimed : record.claims ≠ []
  once : record.claimants.Nodup
  keyed : record.key = key

structure Agrees (g : GraphInner) : Prop where
  forward : ∀ s p t,Linked g.forward (s,p) t ↔ Visible g ⟨s,p,t⟩
  inverse : ∀ s p t,Linked g.inverse (t,p) s ↔ Visible g ⟨s,p,t⟩
  tidy : Tidy g.forward ∧ Tidy g.inverse
  filed : ∀ key record,get g.relations key = some record → WellFiled key record

theorem new_agrees : Agrees .new := by
  refine ⟨?_,?_,?_,?_⟩ <;> simp [GraphInner.new,Visible]

variable {g h : GraphInner} {key : RelationKey} {record : RelationRecord}

@[simp] theorem relations_indexEdge : (indexEdge g key).relations = g.relations := rfl
@[simp] theorem relations_stripEdge : (stripEdge g key).relations = g.relations := rfl
@[simp] theorem relations_store : (store g key record).relations = g.relations.insert key record := rfl
@[simp] theorem relations_removeRelation : (removeRelation g key).relations = g.relations.erase key := rfl

theorem visible_frame (relations : h.relations = g.relations) : Visible h k ↔ Visible g k := by
  simp [Visible,relations]

theorem visible_store : Visible (store g key record) k ↔
    if k = key then record.suppression = none else Visible g k := by
  unfold Visible
  by_cases same : k = key <;> simp [same]

theorem filed_store (agrees : Agrees g) (well : WellFiled key record) :
    ∀ k r,get (store g key record).relations k = some r → WellFiled k r := by
  intro k r there
  simp only [relations_store,get_insert] at there
  split at there
  · rename_i same
    cases Option.some.inj there
    exact same ▸ well
  · exact agrees.filed k r there

theorem parts_eq (key : RelationKey) : (⟨s,p,t⟩ : RelationKey) = key ↔ (s = key.sourceId ∧ p = key.predicate) ∧ t = key.targetId := by
  cases key
  simp [and_assoc]

-- The four ways in which an operation writes: a record whose visibility does not change,
-- one that becomes visible, one that becomes hidden, and the removal.
theorem store_agrees (agrees : Agrees g) (well : WellFiled key record)
    (visible : Visible g key ↔ record.suppression = none) : Agrees (store g key record) := by
  have same_visible : ∀ k,Visible (store g key record) k ↔ Visible g k := by
    intro k
    rw [visible_store]
    split
    · rename_i same
      rw [same,visible]
    · exact Iff.rfl
  refine ⟨?_,?_,agrees.tidy,filed_store agrees well⟩
  · intro s p t
    rw [same_visible]
    exact agrees.forward s p t
  · intro s p t
    rw [same_visible]
    exact agrees.inverse s p t

theorem indexEdge_agrees (agrees : Agrees g) (well : WellFiled key record) (bare : record.suppression = none) :
    Agrees (indexEdge (store g key record) key) := by
  have shown : ∀ k,Visible (indexEdge (store g key record) key) k ↔ k = key ∨ Visible g k := by
    intro k
    rw [visible_frame relations_indexEdge,visible_store]
    by_cases same : k = key <;> simp [same,bare]
  refine ⟨?_,?_,⟨tidy_link _ agrees.tidy.1,tidy_link _ agrees.tidy.2⟩,filed_store agrees well⟩
  · intro s p t
    rw [shown,parts_eq,← agrees.forward]
    simp only [indexEdge,store,linked_link,Prod.mk.injEq]
  · intro s p t
    rw [shown,parts_eq,← agrees.inverse]
    simp only [indexEdge,store,linked_link,Prod.mk.injEq]
    tauto

theorem strip_links (key : RelationKey) (agrees : Agrees g) (hidden : ∀ k,Visible h k ↔ Visible g k ∧ k ≠ key)
    (forward : h.forward = unlink g.forward (key.sourceId,key.predicate) key.targetId)
    (inverse : h.inverse = unlink g.inverse (key.targetId,key.predicate) key.sourceId)
    (filed : ∀ k r,get h.relations k = some r → WellFiled k r) : Agrees h := by
  refine ⟨?_,?_,?_,filed⟩
  · intro s p t
    rw [hidden,ne_eq,parts_eq,← agrees.forward,forward]
    simp only [linked_unlink,Prod.mk.injEq]
  · intro s p t
    rw [hidden,ne_eq,parts_eq,← agrees.inverse,inverse]
    simp only [linked_unlink,Prod.mk.injEq]
    tauto
  · rw [forward,inverse]
    exact ⟨tidy_unlink _ agrees.tidy.1,tidy_unlink _ agrees.tidy.2⟩

theorem stripEdge_agrees (agrees : Agrees g) (well : WellFiled key record) (hidden : record.suppression ≠ none) :
    Agrees (stripEdge (store g key record) key) := by
  refine strip_links key agrees ?_ rfl rfl (filed_store agrees well)
  intro k
  rw [visible_frame relations_stripEdge,visible_store]
  by_cases same : k = key <;> simp [same,hidden]

theorem removeRelation_agrees (agrees : Agrees g) : Agrees (removeRelation g key) := by
  refine strip_links key agrees ?_ rfl rfl ?_
  · intro k
    by_cases same : k = key <;> simp [Visible,same]
  · intro k r there
    simp only [relations_removeRelation,get_erase] at there
    split at there
    · cases there
    · exact agrees.filed k r there

theorem visible_known (there : get g.relations key = some record) : Visible g key ↔ record.suppression = none := by
  simp [Visible,there]

theorem dropClaim_agrees (agrees : Agrees g) (there : get g.relations key = some record) : Agrees (dropClaim g key record idx) := by
  have well := agrees.filed key record there
  unfold dropClaim
  split
  · exact removeRelation_agrees agrees
  · rename_i left
    refine store_agrees agrees ⟨left,?_,well.keyed⟩ (by rw [visible_known there])
    simpa [RelationRecord.claimants,List.eraseIdx_map] using well.once.eraseIdx idx

theorem claimants_snoc {claims : List RelationClaim} (claim : RelationClaim) (once : (claims.map RelationClaim.claimant).Nodup)
    (new : ¬claims.any (fun c => c.claimant == claim.claimant)) :
    ((claims ++ [claim]).map RelationClaim.claimant).Nodup := by
  have outside : claim.claimant ∉ claims.map RelationClaim.claimant := by simpa using new
  rw [List.map_append,List.nodup_append]
  refine ⟨once,by simp,?_⟩
  rintro a member b last rfl
  simp only [List.map_cons,List.map_nil,List.mem_singleton] at last
  exact outside (last ▸ member)

theorem assert_agrees (agrees : Agrees g) : Agrees (assert g s p t claimant reason).2 := by
  unfold assert
  split
  · exact agrees
  · dsimp only
    cases there : get g.relations ⟨s,p,t⟩ with
    | some record =>
      have well := agrees.filed _ record there
      dsimp only
      split
      · exact agrees
      · rename_i unclaimed
        have once := claimants_snoc ⟨claimant,reason⟩ well.once unclaimed
        exact store_agrees agrees ⟨by simp,once,well.keyed⟩ (by rw [visible_known there])
    | none =>
      have well : WellFiled ⟨s,p,t⟩ ⟨⟨s,p,t⟩,[⟨claimant,reason⟩],none⟩ := ⟨by simp,by simp [RelationRecord.claimants],rfl⟩
      exact indexEdge_agrees agrees well rfl

theorem retract_agrees (agrees : Agrees g) : Agrees (RelationGraph.retract g s p t claimant).2 := by
  unfold RelationGraph.retract
  dsimp only
  cases there : get g.relations ⟨s,p,t⟩ with
  | none => exact agrees
  | some record =>
    dsimp only
    split
    · exact agrees
    · exact dropClaim_agrees agrees there

theorem forcedRetractClaim_agrees (agrees : Agrees g) : Agrees (forcedRetractClaim g s p t target).2 := by
  unfold forcedRetractClaim
  dsimp only
  cases there : get g.relations ⟨s,p,t⟩ with
  | none => exact agrees
  | some record =>
    dsimp only
    split
    · exact agrees
    · exact dropClaim_agrees agrees there

theorem suppress_agrees (agrees : Agrees g) : Agrees (suppress g s p t admin reason now).2 := by
  unfold suppress
  dsimp only
  cases there : get g.relations ⟨s,p,t⟩ with
  | none => exact agrees
  | some record =>
    have well := agrees.filed _ record there
    cases marked : record.suppression with
    | some existing =>
      simp only [marked]
      split
      · exact agrees
      · refine store_agrees agrees ⟨well.claimed,well.once,well.keyed⟩ ?_
        simp [visible_known there,marked]
    | none =>
      simp only [marked]
      exact stripEdge_agrees agrees ⟨well.claimed,well.once,well.keyed⟩ (by simp)

theorem unsuppress_agrees (agrees : Agrees g) : Agrees (unsuppress g s p t).2 := by
  unfold unsuppress
  dsimp only
  cases there : get g.relations ⟨s,p,t⟩ with
  | none => exact agrees
  | some record =>
    have well := agrees.filed _ record there
    cases marked : record.suppression with
    | none => simpa only [marked] using agrees
    | some existing =>
      simp only [marked]
      exact indexEdge_agrees agrees ⟨well.claimed,well.once,well.keyed⟩ rfl

theorem removeAll_agrees (keys : List RelationKey) (agrees : Agrees g) : Agrees (keys.foldl removeRelation g) := by
  induction keys generalizing g with
  | nil => exact agrees
  | cons key rest ih => exact ih (removeRelation_agrees agrees)

theorem unionClaims_parts (existing moving : List RelationClaim) (once : (existing.map RelationClaim.claimant).Nodup) :
    ((unionClaims existing moving).1.map RelationClaim.claimant).Nodup ∧
      (existing ≠ [] → (unionClaims existing moving).1 ≠ []) := by
  induction moving generalizing existing with
  | nil => exact ⟨once,id⟩
  | cons claim rest ih =>
    rw [unionClaims]
    split
    · exact ih existing once
    · rename_i unclaimed
      obtain ⟨after,filled⟩ := ih (existing ++ [claim]) (claimants_snoc claim once unclaimed)
      exact ⟨after,fun _ => filled (by simp)⟩

theorem settle_agrees (agrees : Agrees g) (claimed : record.claims ≠ []) (once : record.claimants.Nodup) :
    Agrees (settle g newKey record).2 := by
  unfold settle
  cases there : get g.relations newKey with
  | some existing =>
    have well := agrees.filed newKey existing there
    obtain ⟨distinct,filled⟩ := unionClaims_parts existing.claims record.claims well.once
    exact store_agrees agrees ⟨filled well.claimed,distinct,well.keyed⟩ (by rw [visible_known there])
  | none =>
    simp only [place]
    split
    · rename_i bare
      exact indexEdge_agrees agrees ⟨claimed,once,rfl⟩ bare
    · rename_i hidden
      refine store_agrees agrees ⟨claimed,once,rfl⟩ ?_
      simpa [Visible,there] using hidden

theorem settle_keys (g : GraphInner) (newKey : RelationKey) (record : RelationRecord) (k : RelationKey) :
    (∃ r,get (settle g newKey record).2.relations k = some r) ↔ k = newKey ∨ ∃ r,get g.relations k = some r := by
  unfold settle
  by_cases same : k = newKey
  · subst same
    cases there : get g.relations k with
    | some existing => simp
    | none =>
      simp only [place]
      split <;> simp
  · cases there : get g.relations newKey with
    | some existing => simp [same]
    | none =>
      simp only [place]
      split <;> simp [same]

def Present (g : GraphInner) (key : RelationKey) : Prop := ∃ record,get g.relations key = some record

theorem settle_present (g : GraphInner) (newKey : RelationKey) (record : RelationRecord) (k : RelationKey) :
    Present (settle g newKey record).2 k ↔ k = newKey ∨ Present g k := settle_keys g newKey record k

theorem removed_present (apart : k ≠ key) (there : Present g k) : Present (removeRelation g key) k := by
  simpa [Present,apart] using there

-- Every step takes one pending key out and puts other keys in: the pending ones stay.
theorem rewriteEdges_agrees (oldId newId : String) (keys : List RelationKey) (outcome : RewriteSubjectOutcome)
    (agrees : Agrees g) (distinct : keys.Nodup) (pending : ∀ k,k ∈ keys → Present g k) :
    ∃ result after,rewriteEdges oldId newId g keys outcome = (some result,after) ∧ Agrees after := by
  induction keys generalizing g outcome with
  | nil => exact ⟨outcome,g,rfl,agrees⟩
  | cons oldKey rest ih =>
    obtain ⟨outside,others⟩ := List.nodup_cons.mp distinct
    obtain ⟨record,there⟩ := pending oldKey (by simp)
    have well := agrees.filed oldKey record there
    simp only [rewriteEdges,there]
    refine ih _ (settle_agrees (removeRelation_agrees agrees) well.claimed well.once) others ?_
    intro k member
    rw [settle_present]
    exact .inr (removed_present (fun same => outside (same ▸ member)) (pending k (by simp [member])))

theorem fanOut_agrees (source : String) (oldKey : RelationKey) (ids : List String) (outcome : SplitRelationsOutcome)
    (agrees : Agrees g) (claimed : record.claims ≠ []) (once : record.claimants.Nodup) :
    Agrees (fanOut source oldKey record g ids outcome).2 ∧
      ∀ k,Present g k → Present (fanOut source oldKey record g ids outcome).2 k := by
  induction ids generalizing g outcome with
  | nil => exact ⟨agrees,fun _ there => there⟩
  | cons newId rest ih =>
    simp only [fanOut]
    obtain ⟨after,kept⟩ := ih _ (settle_agrees agrees claimed once)
    refine ⟨after,fun k there => kept k ?_⟩
    rw [settle_present]
    exact .inr there

theorem splitEdges_agrees (source : String) (newIds : List String) (strategy : SplitRelationStrategy)
    (assignments : List ResolvedSplitAssignment) (keys : List RelationKey) (outcome : SplitRelationsOutcome)
    (agrees : Agrees g) (distinct : keys.Nodup) (pending : ∀ k,k ∈ keys → Present g k) :
    ∃ result after,splitEdges source newIds strategy assignments g keys outcome = (some result,after) ∧ Agrees after := by
  induction keys generalizing g outcome with
  | nil => exact ⟨outcome,g,rfl,agrees⟩
  | cons oldKey rest ih =>
    obtain ⟨outside,others⟩ := List.nodup_cons.mp distinct
    obtain ⟨record,there⟩ := pending oldKey (by simp)
    have well := agrees.filed oldKey record there
    simp only [splitEdges,there]
    obtain ⟨after,kept⟩ := fanOut_agrees source oldKey (assignedNewIds source newIds strategy assignments oldKey).1
      {outcome with ambiguous := outcome.ambiguous ++ (assignedNewIds source newIds strategy assignments oldKey).2}
      (removeRelation_agrees agrees) well.claimed well.once
    refine ih _ after others ?_
    intro k member
    exact kept k (removed_present (fun same => outside (same ▸ member)) (pending k (by simp [member])))

theorem touching_nodup (iteration : Iteration) : (touching g iteration subjectId).Nodup :=
  ((iteration.complete _).nodup_iff.mpr g.relations.keys_nodup).filter _

theorem mem_touching (iteration : Iteration) :
    k ∈ touching g iteration subjectId ↔ Present g k ∧ k.touches subjectId := by
  simp only [touching,List.mem_filter,(iteration.complete _).mem_iff,mem_keys,Present]

theorem rewriteSubjectTo_agrees (oldId newId : String) (iteration : Iteration) (agrees : Agrees g) :
    (rewriteSubjectTo g iteration oldId newId).1.panics = false ∧ Agrees (rewriteSubjectTo g iteration oldId newId).2 := by
  unfold rewriteSubjectTo
  split
  · exact ⟨rfl,agrees⟩
  · split
    · exact ⟨rfl,agrees⟩
    · obtain ⟨result,after,run,still⟩ := rewriteEdges_agrees oldId newId (touching g iteration oldId) ⟨[],[],[]⟩ agrees
        (touching_nodup iteration) fun k member => ((mem_touching iteration).mp member).1
      rw [run]
      exact ⟨rfl,still⟩

theorem splitRelations_agrees (iteration : Iteration) (agrees : Agrees g) :
    (splitRelations g iteration source newIds strategy assignments).1.panics = false ∧
      Agrees (splitRelations g iteration source newIds strategy assignments).2 := by
  unfold splitRelations
  split
  · exact ⟨rfl,agrees⟩
  · split
    · exact ⟨rfl,agrees⟩
    · obtain ⟨result,after,run,still⟩ := splitEdges_agrees source newIds strategy assignments
        (touching g iteration source) ⟨[],[],[]⟩ agrees (touching_nodup iteration)
        fun k member => ((mem_touching iteration).mp member).1
      rw [run]
      exact ⟨rfl,still⟩

def Calm (r : RelationGraph) : Prop := r.poisoned = false ∧ Agrees r.inner

theorem locked_calm (calm : Calm r) (quiet : (body r.inner).1.panics = false) (after : Agrees (body r.inner).2) :
    Calm (locked r body).2 := by
  simp only [locked,calm.1,Bool.false_eq_true,if_false]
  exact ⟨quiet,after⟩

theorem step_calm (calm : Calm r) (call : Call) : Calm (step r call) := by
  cases call with
  | assert s p t claimant reason =>
    refine locked_calm calm ?_ (assert_agrees calm.2)
    unfold assert
    split
    · rfl
    · dsimp only
      split
      · split <;> rfl
      · rfl
  | retract s p t claimant =>
    refine locked_calm calm ?_ (retract_agrees calm.2)
    unfold RelationGraph.retract
    dsimp only
    split
    · rfl
    · split <;> rfl
  | forcedRetractClaim s p t target =>
    refine locked_calm calm ?_ (forcedRetractClaim_agrees calm.2)
    unfold forcedRetractClaim
    dsimp only
    split
    · rfl
    · split <;> rfl
  | suppress s p t admin reason now =>
    refine locked_calm calm ?_ (suppress_agrees calm.2)
    unfold suppress
    dsimp only
    split
    · rfl
    · split
      · split <;> rfl
      · rfl
  | unsuppress s p t =>
    refine locked_calm calm ?_ (unsuppress_agrees calm.2)
    unfold unsuppress
    dsimp only
    split
    · rfl
    · split <;> rfl
  | forgetAllTouching iteration id => exact locked_calm calm rfl (removeAll_agrees _ calm.2)
  | rewriteSubjectTo iteration oldId newId =>
    obtain ⟨quiet,after⟩ := rewriteSubjectTo_agrees oldId newId iteration calm.2
    exact locked_calm calm quiet after
  | splitRelations iteration source newIds strategy assignments =>
    obtain ⟨quiet,after⟩ := splitRelations_agrees iteration calm.2
    exact locked_calm calm quiet after

theorem graph_index_agrees (calls : List Call) :
    (run step .new calls).poisoned = false ∧ Agrees (run step .new calls).inner := by
  have keeps : ∀ r call,Calm r → Calm (step r call) := fun r call calm => step_calm calm call
  exact run_keeps keeps ⟨rfl,new_agrees⟩

end EvoCore.GraphIndex
