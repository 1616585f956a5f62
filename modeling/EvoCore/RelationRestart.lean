import EvoCore.GraphIndex
import EvoCore.SubjectRestart

namespace EvoCore.RelationRestart
open Tables Runs RelationGraph GraphIndex StewardStore StewardWiring
open SubjectRegistry (Reply ExternalAddressing resolve describe)
open SubjectAliases (Held Divides)

variable {uuid : Nat → String} {g h : GraphInner} {old new : Store} {key : RelationKey} {record : RelationRecord} {id : String}

-- Of a relation the claimants and the suppression marker.
def SameRelation (a b : RelationRecord) : Prop :=
  (∀ claimant,claimant ∈ a.claimants ↔ claimant ∈ b.claimants) ∧ a.suppression = b.suppression

def SameRelations (a b : GraphInner) : Prop :=
  ∀ key,Option.Rel SameRelation (get a.relations key) (get b.relations key)

def RestoresGraph (st : Steward) : Prop := SameRelations (rehydrateGraph st.store) st.graph.inner

def rowOf : Option SuppressionRecord → RelationRow
  | none => ⟨none,none,none⟩
  | some marker => ⟨some marker.adminPlugin,some marker.suppressedAt,marker.reason⟩

theorem suppressionOf_rowOf (marker : Option SuppressionRecord) : suppressionOf (rowOf marker) = marker := by
  cases marker <;> rfl

def relationAt (g : GraphInner) (key : RelationKey) : Option RelationRecord := get g.relations key

theorem relations_load : Loads relationAt loadRelation RelationRecord.key some := by
  intro g record key
  unfold relationAt loadRelation
  dsimp only
  split <;> simp [Option.or]

def persistedClaims (store : Store) (key : RelationKey) : List RelationClaim :=
  store.relationClaimants.entries.filterMap fun entry =>
    if entry.1.1 = key then some ⟨entry.1.2,entry.2.reason⟩ else none

theorem mem_persistedClaims (store : Store) (key : RelationKey) (claimant : String) :
    claimant ∈ (persistedClaims store key).map RelationClaim.claimant ↔
      (get store.relationClaimants (key,claimant)).isSome := by
  rw [Option.isSome_iff_exists]
  unfold persistedClaims
  simp only [List.mem_map,List.mem_filterMap]
  constructor
  · rintro ⟨claim,⟨⟨⟨k,c⟩,row⟩,member,made⟩,rfl⟩
    split at made
    · rename_i mine
      cases made
      cases mine
      exact ⟨row,(entries_get _).mp member⟩
    · cases made
  · rintro ⟨row,there⟩
    exact ⟨⟨claimant,row.reason⟩,⟨⟨(key,claimant),row⟩,(entries_get _).mpr there,by simp⟩,rfl⟩

theorem loadAllRelations_keys (store : Store) : (loadAllRelations store).map RelationRecord.key = store.relations.keys := by
  simp [loadAllRelations,AList.keys,List.keys,Function.comp_def]

theorem rehydrate_relations (store : Store) (key : RelationKey) :
    get (rehydrateGraph store).relations key =
      (get store.relations key).map fun row => ⟨key,persistedClaims store key,suppressionOf row⟩ := by
  have empty : relationAt .new key = none := by simp [relationAt,GraphInner.new]
  have loaded : get (rehydrateGraph store).relations key = relationAt ((loadAllRelations store).foldl loadRelation .new) key := rfl
  rw [loaded]
  cases there : get store.relations key with
  | none =>
    rw [load_absent relations_load ?_,empty]
    · rfl
    · rw [loadAllRelations_keys,mem_keys]
      simp [there]
  | some row =>
    have member : (⟨key,persistedClaims store key,suppressionOf row⟩ : RelationRecord) ∈ loadAllRelations store :=
      List.mem_map.mpr ⟨⟨key,row⟩,(entries_get _).mpr there,rfl⟩
    have apart : ((loadAllRelations store).map RelationRecord.key).Nodup := by
      rw [loadAllRelations_keys]
      exact store.relations.nodupKeys
    exact load_present relations_load apart member empty

-- The relation half of the store as the image of the graph.
structure Edges (g : GraphInner) (store : Store) : Prop where
  rows : ∀ key,get store.relations key = (get g.relations key).map fun record => rowOf record.suppression
  claimants : ∀ key claimant,(get store.relationClaimants (key,claimant)).isSome ↔
    ∃ record,get g.relations key = some record ∧ claimant ∈ record.claimants

theorem new_edges : Edges .new .new := by
  refine ⟨?_,?_⟩ <;> simp [GraphInner.new,Store.new]

theorem edges_restore (edges : Edges g old) : SameRelations (rehydrateGraph old) g := by
  intro key
  rw [rehydrate_relations,edges.rows]
  cases there : get g.relations key with
  | none => exact .none
  | some record =>
    refine .some ⟨fun claimant => ?_,suppressionOf_rowOf record.suppression⟩
    rw [RelationRecord.claimants,mem_persistedClaims,edges.claimants]
    simp [there]

theorem Edges.at (key : RelationKey) (edges : Edges g old)
    (others : ∀ k,k ≠ key → get h.relations k = get g.relations k)
    (otherRows : ∀ k,k ≠ key → get new.relations k = get old.relations k)
    (otherClaims : ∀ k claimant,k ≠ key → get new.relationClaimants (k,claimant) = get old.relationClaimants (k,claimant))
    (row : get new.relations key = (get h.relations key).map fun record => rowOf record.suppression)
    (claims : ∀ claimant,(get new.relationClaimants (key,claimant)).isSome ↔
      ∃ record,get h.relations key = some record ∧ claimant ∈ record.claimants) : Edges h new := by
  refine ⟨fun k => ?_,fun k claimant => ?_⟩
  · by_cases same : k = key
    · rw [same,row]
    · rw [otherRows k same,others k same,edges.rows]
  · by_cases same : k = key
    · rw [same,claims]
    · rw [otherClaims k claimant same,others k same,edges.claimants]

theorem Edges.frame (edges : Edges g old) (graph : ∀ k,get h.relations k = get g.relations k)
    (relations : new.relations = old.relations) (claimants : new.relationClaimants = old.relationClaimants) : Edges h new := by
  refine ⟨fun k => ?_,fun k claimant => ?_⟩
  · rw [relations,graph,edges.rows]
  · rw [claimants,graph,edges.claimants]

section
variable {s p t claimant : String} {reason : Option String}

theorem assert_cases (g : GraphInner) (s p t claimant : String) (reason : Option String) :
    (∃ error,assert g s p t claimant reason = (.refused error,g)) ∨ assert g s p t claimant reason = (.ok .noChange,g) ∨
      (∃ record,get g.relations ⟨s,p,t⟩ = some record ∧ assert g s p t claimant reason =
        (.ok .claimantAdded,store g ⟨s,p,t⟩ {record with claims := record.claims ++ [⟨claimant,reason⟩]})) ∨
      get g.relations ⟨s,p,t⟩ = none ∧ assert g s p t claimant reason =
        (.ok .created,indexEdge (store g ⟨s,p,t⟩ ⟨⟨s,p,t⟩,[⟨claimant,reason⟩],none⟩) ⟨s,p,t⟩) := by
  unfold assert
  split
  · exact .inl ⟨_,rfl⟩
  · dsimp only
    cases there : get g.relations ⟨s,p,t⟩ with
    | none => exact .inr (.inr (.inr ⟨rfl,rfl⟩))
    | some record =>
      dsimp only
      split
      · exact .inr (.inl rfl)
      · exact .inr (.inr (.inl ⟨record,rfl,rfl⟩))

theorem relationRetract_cases (g : GraphInner) (s p t claimant : String) :
    (∃ error,RelationGraph.retract g s p t claimant = (.refused error,g)) ∨
      ∃ record idx,get g.relations ⟨s,p,t⟩ = some record ∧ RelationGraph.claimIdx record claimant = some idx ∧
        RelationGraph.retract g s p t claimant =
          (.ok (if record.claims.eraseIdx idx = [] then .relationForgotten else .claimRemoved),
            dropClaim g ⟨s,p,t⟩ record idx) := by
  unfold RelationGraph.retract
  dsimp only
  cases there : get g.relations ⟨s,p,t⟩ with
  | none => exact .inl ⟨_,rfl⟩
  | some record =>
    dsimp only
    cases found : RelationGraph.claimIdx record claimant with
    | none => exact .inl ⟨_,rfl⟩
    | some idx => exact .inr ⟨record,idx,rfl,found,rfl⟩

theorem forcedRetractClaim_cases (g : GraphInner) (s p t target : String) :
    RelationGraph.forcedRetractClaim g s p t target = (.ok .notFound,g) ∨
      ∃ record idx,get g.relations ⟨s,p,t⟩ = some record ∧ RelationGraph.claimIdx record target = some idx ∧
        RelationGraph.forcedRetractClaim g s p t target =
          (.ok (if record.claims.eraseIdx idx = [] then .relationForgotten else .claimRemoved),
            dropClaim g ⟨s,p,t⟩ record idx) := by
  unfold RelationGraph.forcedRetractClaim
  dsimp only
  cases there : get g.relations ⟨s,p,t⟩ with
  | none => exact .inl rfl
  | some record =>
    dsimp only
    cases found : RelationGraph.claimIdx record target with
    | none => exact .inl rfl
    | some idx => exact .inr ⟨record,idx,rfl,found,rfl⟩

theorem mem_claimants_snoc (claim : RelationClaim) (c : String) :
    c ∈ RelationRecord.claimants {record with claims := record.claims ++ [claim]} ↔ c ∈ record.claimants ∨ c = claim.claimant := by
  simp [RelationRecord.claimants,eq_comm]

theorem claimantAdded_edges (edges : Edges g old) (there : get g.relations key = some record) :
    Edges (store g key {record with claims := record.claims ++ [⟨claimant,reason⟩]})
      (recordRelationAssert old key claimant reason) := by
  have row : get old.relations key = some (rowOf record.suppression) := by simp [edges.rows,there]
  refine edges.at key ?_ ?_ ?_ ?_ ?_
  · intro k other
    simp [other]
  · intro k other
    simp [recordRelationAssert,row]
  · intro k c other
    simp only [recordRelationAssert]
    split
    · rfl
    · simp [other]
  · simp [recordRelationAssert,row]
  · intro c
    have before := edges.claimants key c
    simp only [there,Option.some.injEq,exists_eq_left'] at before
    simp only [recordRelationAssert,relations_store,get_insert,if_true,Option.some.injEq,exists_eq_left',mem_claimants_snoc]
    cases stored : get old.relationClaimants (key,claimant) with
    | some claim =>
      have listed := (edges.claimants key claimant).mp (by simp [stored])
      simp only [there,Option.some.injEq,exists_eq_left'] at listed
      rw [before]
      exact ⟨.inl,fun either => either.elim id fun same => same ▸ listed⟩
    | none => by_cases same : c = claimant <;> simp [same,before]

theorem created_edges (edges : Edges g old) (absent : get g.relations key = none) :
    Edges (indexEdge (store g key ⟨key,[⟨claimant,reason⟩],none⟩) key) (recordRelationAssert old key claimant reason) := by
  have row : get old.relations key = none := by simp [edges.rows,absent]
  have unclaimed : ∀ c,get old.relationClaimants (key,c) = none := fun c => by
    have none_there := (edges.claimants key c).not.mpr (by simp [absent])
    simpa using none_there
  refine edges.at key ?_ ?_ ?_ ?_ ?_
  · intro k other
    simp [other]
  · intro k other
    simp [recordRelationAssert,row,other]
  · intro k c other
    simp [recordRelationAssert,unclaimed,other]
  · simp [recordRelationAssert,row,rowOf]
  · intro c
    by_cases same : claimant = c
    · simp [recordRelationAssert,unclaimed,RelationRecord.claimants,same]
    · simp [recordRelationAssert,unclaimed,RelationRecord.claimants,same,Ne.symm same]

theorem relationClaimIdx_parts (found : RelationGraph.claimIdx record claimant = some idx) :
    record.claimants[idx]? = some claimant := by
  unfold RelationGraph.claimIdx at found
  rw [List.findIdx?_eq_some_iff_getElem] at found
  obtain ⟨below,holds,-⟩ := found
  simp only [decide_eq_true_eq] at holds
  simp [RelationRecord.claimants,List.getElem?_eq_getElem below,holds]

theorem dropped_claimants (once : record.claimants.Nodup) (found : RelationGraph.claimIdx record claimant = some idx) (c : String) :
    c ∈ RelationRecord.claimants {record with claims := record.claims.eraseIdx idx} ↔ c ≠ claimant ∧ c ∈ record.claimants := by
  obtain ⟨below,named⟩ := List.getElem?_eq_some_iff.mp (relationClaimIdx_parts found)
  have erased : RelationRecord.claimants {record with claims := record.claims.eraseIdx idx} =
      record.claimants.erase claimant := by
    rw [← named,once.erase_getElem idx below]
    simp [RelationRecord.claimants,List.eraseIdx_map]
  rw [erased,once.mem_erase_iff]

theorem dropClaim_edges (edges : Edges g old) (once : record.claimants.Nodup) (there : get g.relations key = some record)
    (found : RelationGraph.claimIdx record claimant = some idx) :
    Edges (dropClaim g key record idx)
      (recordRelationRetract old key claimant (decide (record.claims.eraseIdx idx = []))) := by
  have row : get old.relations key = some (rowOf record.suppression) := by simp [edges.rows,there]
  by_cases empty : record.claims.eraseIdx idx = []
  · simp only [dropClaim,recordRelationRetract,empty,if_true,decide_true]
    refine edges.at key ?_ ?_ ?_ ?_ ?_
    · intro k other
      simp [other]
    · intro k other
      simp [recordRelationForget,other]
    · intro k c other
      cases stored : get old.relationClaimants (k,c) <;> simp [recordRelationForget,other,stored]
    · simp [recordRelationForget]
    · intro c
      simp [recordRelationForget]
  · simp only [dropClaim,recordRelationRetract,empty,if_false,decide_false,Bool.false_eq_true]
    refine edges.at key ?_ ?_ ?_ ?_ ?_
    · intro k other
      simp [other]
    · intro k other
      rfl
    · intro k c other
      simp [other]
    · simp [row]
    · intro c
      have before := edges.claimants key c
      simp only [there,Option.some.injEq,exists_eq_left'] at before
      simp only [relations_store,get_insert,if_true,Option.some.injEq,exists_eq_left',dropped_claimants once found]
      by_cases same : c = claimant <;> simp [same,before]

end

theorem removed_edges (key : RelationKey) (edges : Edges g old) : Edges (removeRelation g key) (recordRelationForget old key) := by
  refine edges.at key ?_ ?_ ?_ ?_ ?_
  · intro k other
    simp [other]
  · intro k other
    simp [recordRelationForget,other]
  · intro k c other
    cases stored : get old.relationClaimants (k,c) <;> simp [recordRelationForget,other,stored]
  · simp [recordRelationForget]
  · intro c
    simp [recordRelationForget]

theorem removeAll_edges (keys : List RelationKey) (edges : Edges g old) :
    Edges (keys.foldl removeRelation g) (keys.foldl recordRelationForget old) := by
  induction keys generalizing g old with
  | nil => exact edges
  | cons key rest ih => exact ih (removed_edges key edges)

theorem remarked_edges (marker : Option SuppressionRecord) (edges : Edges g old) (there : get g.relations key = some record)
    (graph : h.relations = g.relations.insert key {record with suppression := marker})
    (relations : new.relations = modify old.relations key fun _ => rowOf marker)
    (claimants : new.relationClaimants = old.relationClaimants) : Edges h new := by
  have row : get old.relations key = some (rowOf record.suppression) := by simp [edges.rows,there]
  refine edges.at key ?_ ?_ ?_ ?_ ?_
  · intro k other
    simp [graph,other]
  · intro k other
    simp [relations,other]
  · intro k c other
    rw [claimants]
  · simp [graph,relations,row]
  · intro c
    rw [claimants,edges.claimants]
    simp [there,graph,RelationRecord.claimants]

section
variable {s p t admin : String} {reason : Option String} {now : Nat}

theorem suppress_cases (g : GraphInner) (s p t admin : String) (reason : Option String) (now : Nat) :
    RelationGraph.suppress g s p t admin reason now = (.ok .notFound,g) ∨
      RelationGraph.suppress g s p t admin reason now = (.ok .alreadySuppressed,g) ∨
      ∃ record,get g.relations ⟨s,p,t⟩ = some record ∧
        ((∃ marker,record.suppression = some marker ∧ marker.reason ≠ reason ∧
          RelationGraph.suppress g s p t admin reason now = (.ok (.reasonUpdated marker.reason reason),
            store g ⟨s,p,t⟩ {record with suppression := some {marker with reason := reason}})) ∨
        record.suppression = none ∧ RelationGraph.suppress g s p t admin reason now = (.ok .newlySuppressed,
          stripEdge (store g ⟨s,p,t⟩ {record with suppression := some ⟨admin,now,reason⟩}) ⟨s,p,t⟩)) := by
  unfold RelationGraph.suppress
  dsimp only
  cases there : get g.relations ⟨s,p,t⟩ with
  | none => exact .inl rfl
  | some record =>
    cases marked : record.suppression with
    | none =>
      refine .inr (.inr ⟨record,rfl,.inr ⟨marked,?_⟩⟩)
      simp only [marked]
    | some marker =>
      by_cases same : marker.reason = reason
      · exact .inr (.inl (by simp [marked,same]))
      · refine .inr (.inr ⟨record,rfl,.inl ⟨marker,marked,same,?_⟩⟩)
        simp only [marked,if_neg same]

theorem unsuppress_cases (g : GraphInner) (s p t : String) :
    RelationGraph.unsuppress g s p t = (.ok .notFound,g) ∨ RelationGraph.unsuppress g s p t = (.ok .notSuppressed,g) ∨
      ∃ record,get g.relations ⟨s,p,t⟩ = some record ∧ RelationGraph.unsuppress g s p t =
        (.ok .unsuppressed,indexEdge (store g ⟨s,p,t⟩ {record with suppression := none}) ⟨s,p,t⟩) := by
  unfold RelationGraph.unsuppress
  dsimp only
  cases there : get g.relations ⟨s,p,t⟩ with
  | none => exact .inl rfl
  | some record =>
    cases marked : record.suppression with
    | none => exact .inr (.inl (by simp only [marked]))
    | some marker => exact .inr (.inr ⟨record,rfl,by simp only [marked]⟩)

end

-- Edges that do not touch the subject are left alone.
def Untouched (g : GraphInner) (id : String) : Prop := ∀ key,Present g key → key.touches id = false

theorem touching_none (iteration : Iteration) (untouched : Untouched g id) : touching g iteration id = [] := by
  apply List.eq_nil_iff_forall_not_mem.mpr
  intro key member
  obtain ⟨present,touches⟩ := (mem_touching iteration).mp member
  simp [untouched key present] at touches

theorem rewriteSubjectTo_untouched (iteration : Iteration) (newId : String) (untouched : Untouched g id) :
    (rewriteSubjectTo g iteration id newId).1.panics = false ∧ (rewriteSubjectTo g iteration id newId).2 = g := by
  unfold rewriteSubjectTo
  rw [touching_none iteration untouched]
  split
  · exact ⟨rfl,rfl⟩
  · split <;> exact ⟨rfl,rfl⟩

theorem splitRelations_untouched (iteration : Iteration) (untouched : Untouched g id) :
    (splitRelations g iteration id newIds strategy assignments).1.panics = false ∧
      (splitRelations g iteration id newIds strategy assignments).2 = g := by
  unfold splitRelations
  rw [touching_none iteration untouched]
  split
  · exact ⟨rfl,rfl⟩
  · split <;> exact ⟨rfl,rfl⟩

-- A rewrite that goes through leaves no edge on the old id: every pending key is taken out,
-- and no key that goes in touches it.
theorem substitute_touches (key : RelationKey) (apart : newId ≠ oldId) : (key.substitute oldId newId).touches oldId = false := by
  simp only [RelationKey.touches,RelationKey.substitute,Bool.or_eq_false_iff,beq_eq_false_iff_ne]
  constructor <;> split <;> simp_all

theorem rewriteEdges_clears (oldId newId : String) (keys : List RelationKey) (outcome : RewriteSubjectOutcome)
    (apart : newId ≠ oldId) (distinct : keys.Nodup) (pending : ∀ k,k ∈ keys → Present g k)
    (all : ∀ k,Present g k → k.touches oldId = true → k ∈ keys) :
    Untouched (rewriteEdges oldId newId g keys outcome).2 oldId := by
  induction keys generalizing g outcome with
  | nil =>
    intro key present
    cases touches : key.touches oldId with
    | false => rfl
    | true => cases all key present touches
  | cons oldKey rest ih =>
    obtain ⟨outside,others⟩ := List.nodup_cons.mp distinct
    obtain ⟨record,there⟩ := pending oldKey (by simp)
    simp only [rewriteEdges,there]
    apply ih _ others
    · intro k member
      rw [settle_present]
      exact .inr (removed_present (fun same => outside (same ▸ member)) (pending k (by simp [member])))
    · intro k present touches
      rcases (settle_present _ _ _ k).mp present with rfl | left
      · simp [substitute_touches oldKey apart] at touches
      · have other : k ≠ oldKey := by
          rintro rfl
          simp [Present] at left
        have before : Present g k := by simpa [Present,other] using left
        exact (List.mem_cons.mp (all k before touches)).resolve_left other

theorem fanOut_present (source : String) (oldKey : RelationKey) (ids : List String) (outcome : SplitRelationsOutcome)
    (present : Present (fanOut source oldKey record g ids outcome).2 k) :
    (∃ newId,newId ∈ ids ∧ k = oldKey.substitute source newId) ∨ Present g k := by
  induction ids generalizing g outcome with
  | nil => exact .inr present
  | cons newId rest ih =>
    simp only [fanOut] at present
    rcases ih _ present with ⟨later,member,same⟩ | before
    · exact .inl ⟨later,by simp [member],same⟩
    · rcases (settle_present _ _ _ k).mp before with same | old
      · exact .inl ⟨newId,by simp,same⟩
      · exact .inr old

theorem assigned_apart (apart : source ∉ newIds) (routed : ∀ a,a ∈ assignments → a.targetNewId ≠ source)
    (member : newId ∈ (assignedNewIds source newIds strategy assignments key).1) : newId ≠ source := by
  rintro rfl
  unfold assignedNewIds at member
  split at member
  · exact apart member
  · exact apart (List.mem_of_mem_take member)
  · split at member
    · rename_i a found
      exact routed a (List.mem_of_find?_eq_some found) (List.mem_singleton.mp member).symm
    · exact apart member

theorem splitEdges_clears (source : String) (newIds : List String) (strategy : SplitRelationStrategy)
    (assignments : List ResolvedSplitAssignment) (keys : List RelationKey) (outcome : SplitRelationsOutcome)
    (apart : source ∉ newIds) (routed : ∀ a,a ∈ assignments → a.targetNewId ≠ source) (agrees : Agrees g)
    (distinct : keys.Nodup) (pending : ∀ k,k ∈ keys → Present g k)
    (all : ∀ k,Present g k → k.touches source = true → k ∈ keys) :
    Untouched (splitEdges source newIds strategy assignments g keys outcome).2 source := by
  induction keys generalizing g outcome with
  | nil =>
    intro key present
    cases touches : key.touches source with
    | false => rfl
    | true => cases all key present touches
  | cons oldKey rest ih =>
    obtain ⟨outside,others⟩ := List.nodup_cons.mp distinct
    obtain ⟨record,there⟩ := pending oldKey (by simp)
    have well := agrees.filed oldKey record there
    simp only [splitEdges,there]
    obtain ⟨after,kept⟩ := fanOut_agrees source oldKey (assignedNewIds source newIds strategy assignments oldKey).1
      {outcome with ambiguous := outcome.ambiguous ++ (assignedNewIds source newIds strategy assignments oldKey).2}
      (removeRelation_agrees agrees) well.claimed well.once
    apply ih _ after others
    · intro k member
      exact kept k (removed_present (fun same => outside (same ▸ member)) (pending k (by simp [member])))
    · intro k present touches
      rcases fanOut_present source oldKey _ _ present with ⟨newId,member,rfl⟩ | left
      · have fresh : newId ≠ source := assigned_apart apart routed member
        simp [substitute_touches oldKey fresh] at touches
      · have other : k ≠ oldKey := by
          rintro rfl
          simp [Present] at left
        have before : Present g k := by simpa [Present,other] using left
        exact (List.mem_cons.mp (all k before touches)).resolve_left other

def Calls (uuid : Nat → String) (st after : Steward) : Prop :=
  after.registry = st.registry ∨ ∃ call,after.registry = SubjectRegistry.step uuid st.registry call

theorem Calls.held {after : Steward} (calls : Calls uuid st after) (fresh : Function.Injective uuid)
    (held : Held uuid st.registry) : Held uuid after.registry := by
  rcases calls with same | ⟨call,stepped⟩
  · rw [same]
    exact held
  · rw [stepped]
    exact (SubjectAliases.step_held fresh held call).1

theorem announce_calls (st : Steward) : Calls uuid st (announce uuid catalogue st plugin announcement) := by
  unfold announce
  split
  · exact .inl rfl
  · split
    · exact .inl rfl
    · refine .inr ⟨.announce announcement plugin,?_⟩
      rw [SubjectRegistry.step]
      split
      all_goals
        rename_i result
        rw [result]

theorem retract_calls (st : Steward) : Calls uuid st (retract st iteration plugin addressing reason) := by
  refine .inr ⟨.retract addressing plugin reason,?_⟩
  rw [SubjectRegistry.step]
  unfold StewardWiring.retract
  dsimp only
  split
  · rename_i result
    rw [result]
    split <;> rfl
  · rename_i result
    rw [result,(SubjectRestart.cascade_frame _ _ _).1]
  · rename_i result
    rw [result]

theorem forcedRetractAddressing_calls (st : Steward) :
    Calls uuid st (forcedRetractAddressing st iteration admin target admitted addressing reason) := by
  unfold forcedRetractAddressing
  split
  · exact .inl rfl
  · split
    · exact .inl rfl
    · refine .inr ⟨.forcedRetractAddressing addressing target admin reason,?_⟩
      rw [SubjectRegistry.step]
      split
      · rename_i result
        rw [result]
      · rename_i result
        rw [result,(SubjectRestart.cascade_frame _ _ _).1]
      · rename_i result
        rw [result]

theorem rewriteBoth_frame (st : Steward) (first second : Iteration) (sourceA sourceB newId : String) :
    (rewriteBoth st first second sourceA sourceB newId).registry = st.registry ∧
      (rewriteBoth st first second sourceA sourceB newId).store = st.store := by
  unfold rewriteBoth
  split <;> exact ⟨rfl,rfl⟩

theorem merge_calls (st : Steward) : Calls uuid st (merge uuid st first second admin targetA targetB reason) := by
  unfold merge
  split
  · rename_i sourceA sourceB _ _
    split
    · exact .inl rfl
    · dsimp only
      split
      · exact .inl rfl
      · refine .inr ⟨.mergeAliases sourceA sourceB admin reason,?_⟩
        rw [SubjectRegistry.step]
        split
        · rename_i result
          rw [result,(rewriteBoth_frame _ _ _ _ _ _).1]
        · rename_i result
          rw [result]
  · exact .inl rfl

theorem split_calls (st : Steward) :
    Calls uuid st (StewardWiring.split uuid st iteration admin source groups strategy assignments reason) := by
  unfold StewardWiring.split
  split
  · exact .inl rfl
  · rename_i sourceId _
    split
    · exact .inl rfl
    · refine .inr ⟨.splitSubject sourceId groups admin reason,?_⟩
      rw [SubjectRegistry.step]
      dsimp only
      split
      · rename_i result
        rw [result]
      · rename_i result
        rw [result]

theorem graph_open {r : RelationGraph.RelationGraph} (calm : Calm r) (body : GraphInner → Reply α × GraphInner) :
    RelationGraph.locked r body = ((body r.inner).1,⟨(body r.inner).2,(body r.inner).1.panics⟩) := by
  simp [RelationGraph.locked,calm.1]

def Drawn (st : Steward) : Prop := Calm st.graph ∧ Edges st.graph.inner st.store

theorem Drawn.frame {after : Steward} (drawn : Drawn st) (graph : after.graph = st.graph)
    (relations : after.store.relations = st.store.relations)
    (claimants : after.store.relationClaimants = st.store.relationClaimants) : Drawn after :=
  ⟨graph ▸ drawn.1,drawn.2.frame (fun _ => by rw [graph]) relations claimants⟩

theorem cascade_drawn (iteration : Iteration) (id : String) (drawn : Drawn st) : Drawn (cascade st iteration id) := by
  unfold cascade
  have calm := step_calm drawn.1 (.forgetAllTouching iteration id)
  rw [RelationGraph.step,graph_open drawn.1] at calm
  rw [graph_open drawn.1]
  exact ⟨calm,removeAll_edges _ drawn.2⟩

theorem announce_drawn (drawn : Drawn st) : Drawn (announce uuid catalogue st plugin announcement) := by
  unfold announce
  split
  · exact drawn
  · split
    · exact drawn
    · split <;> exact drawn.frame rfl rfl rfl

theorem retract_drawn (drawn : Drawn st) : Drawn (StewardWiring.retract st iteration plugin addressing reason) := by
  unfold StewardWiring.retract
  dsimp only
  split
  · split <;> exact drawn.frame rfl rfl rfl
  · apply cascade_drawn
    exact drawn.frame rfl rfl rfl
  · exact drawn.frame rfl rfl rfl

theorem forcedRetractAddressing_drawn (drawn : Drawn st) :
    Drawn (forcedRetractAddressing st iteration admin target admitted addressing reason) := by
  unfold forcedRetractAddressing
  split
  · exact drawn
  · split
    · exact drawn
    · split
      · exact drawn.frame rfl rfl rfl
      · apply cascade_drawn
        exact drawn.frame rfl rfl rfl
      · exact drawn.frame rfl rfl rfl

theorem assertRelation_drawn (drawn : Drawn st) : Drawn (assertRelation catalogue st plugin source predicate target reason) := by
  unfold assertRelation
  split
  · exact drawn
  · split
    · rename_i sourceId targetId _ _
      split
      · split
        · exact drawn
        · split
          · exact drawn
          · have calm := step_calm drawn.1 (.assert sourceId predicate targetId plugin reason)
            rw [RelationGraph.step,graph_open drawn.1] at calm
            rw [graph_open drawn.1]
            rcases assert_cases st.graph.inner sourceId predicate targetId plugin reason with ⟨error,result⟩ | result |
              ⟨record,there,result⟩ | ⟨absent,result⟩
            · rw [result] at calm ⊢
              exact ⟨calm,drawn.2⟩
            · rw [result] at calm ⊢
              exact ⟨calm,drawn.2⟩
            · rw [result] at calm ⊢
              simp only [describeRelation,relations_store,get_insert,if_true]
              exact ⟨calm,claimantAdded_edges drawn.2 there⟩
            · rw [result] at calm ⊢
              simp only [describeRelation,relations_indexEdge,relations_store,get_insert,if_true]
              exact ⟨calm,created_edges drawn.2 absent⟩
      · exact drawn
    · exact drawn

theorem retractRelation_drawn (drawn : Drawn st) : Drawn (retractRelation catalogue st plugin source predicate target) := by
  unfold retractRelation
  split
  · exact drawn
  · split
    · rename_i sourceId targetId _ _
      have calm := step_calm drawn.1 (.retract sourceId predicate targetId plugin)
      rw [RelationGraph.step,graph_open drawn.1] at calm
      rw [graph_open drawn.1]
      rcases relationRetract_cases st.graph.inner sourceId predicate targetId plugin with ⟨error,result⟩ |
        ⟨record,idx,there,found,result⟩
      · rw [result] at calm ⊢
        exact ⟨calm,drawn.2⟩
      · have edges := dropClaim_edges drawn.2 (drawn.1.2.filed _ record there).once there found
        rw [result] at calm ⊢
        refine ⟨calm,?_⟩
        by_cases empty : record.claims.eraseIdx idx = []
        · simpa only [empty,if_true,decide_true] using edges
        · simpa only [empty,if_false,decide_false,reduceCtorEq] using edges
    · exact drawn

theorem forcedRetractClaim_drawn (drawn : Drawn st) :
    Drawn (StewardWiring.forcedRetractClaim st admin target admitted source predicate addressing) := by
  unfold StewardWiring.forcedRetractClaim
  split
  · exact drawn
  · split
    · exact drawn
    · split
      · rename_i sourceId targetId _ _
        have calm := step_calm drawn.1 (.forcedRetractClaim sourceId predicate targetId target)
        rw [RelationGraph.step,graph_open drawn.1] at calm
        rw [graph_open drawn.1]
        rcases forcedRetractClaim_cases st.graph.inner sourceId predicate targetId target with result |
          ⟨record,idx,there,found,result⟩
        · rw [result] at calm ⊢
          exact ⟨calm,drawn.2⟩
        · have edges := dropClaim_edges drawn.2 (drawn.1.2.filed _ record there).once there found
          by_cases empty : record.claims.eraseIdx idx = []
          · rw [result,if_pos empty] at calm ⊢
            rw [decide_eq_true empty] at edges
            exact ⟨calm,edges⟩
          · rw [result,if_neg empty] at calm ⊢
            rw [decide_eq_false empty] at edges
            exact ⟨calm,edges⟩
      · exact drawn

-- A second suppression with another reason leaves the first administrator and time in memory.
def KeepsMarker (st : Steward) (admin : String) (source : ExternalAddressing) (predicate : String)
    (target : ExternalAddressing) (reason : Option String) (now : Nat) : Prop :=
  ∀ sourceId targetId record marker,resolve st.registry.inner source = some sourceId →
    resolve st.registry.inner target = some targetId →
    get st.graph.inner.relations ⟨sourceId,predicate,targetId⟩ = some record →
    record.suppression = some marker → marker.reason ≠ reason → marker.adminPlugin = admin ∧ marker.suppressedAt = now

theorem suppress_drawn (drawn : Drawn st) (met : KeepsMarker st admin source predicate target reason now) :
    Drawn (StewardWiring.suppress st admin source predicate target reason now) := by
  unfold StewardWiring.suppress
  split
  · rename_i sourceId targetId atSource atTarget
    have calm := step_calm drawn.1 (.suppress sourceId predicate targetId admin reason now)
    rw [RelationGraph.step,graph_open drawn.1] at calm
    rw [graph_open drawn.1]
    rcases suppress_cases st.graph.inner sourceId predicate targetId admin reason now with result | result |
      ⟨record,there,⟨marker,marked,changed,result⟩ | ⟨bare,result⟩⟩
    · rw [result] at calm ⊢
      exact ⟨calm,drawn.2⟩
    · rw [result] at calm ⊢
      exact ⟨calm,drawn.2⟩
    · obtain ⟨same,at_⟩ := met sourceId targetId record marker atSource atTarget there marked changed
      rw [result] at calm ⊢
      exact ⟨calm,remarked_edges (some {marker with reason := reason}) drawn.2 there rfl (by rw [← same,← at_]; rfl) rfl⟩
    · rw [result] at calm ⊢
      exact ⟨calm,remarked_edges (some ⟨admin,now,reason⟩) drawn.2 there rfl rfl rfl⟩
  · exact drawn

theorem unsuppress_drawn (drawn : Drawn st) : Drawn (StewardWiring.unsuppress st source predicate target) := by
  unfold StewardWiring.unsuppress
  split
  · rename_i sourceId targetId _ _
    have calm := step_calm drawn.1 (.unsuppress sourceId predicate targetId)
    rw [RelationGraph.step,graph_open drawn.1] at calm
    rw [graph_open drawn.1]
    rcases unsuppress_cases st.graph.inner sourceId predicate targetId with result | result | ⟨record,there,result⟩
    · rw [result] at calm ⊢
      exact ⟨calm,drawn.2⟩
    · rw [result] at calm ⊢
      exact ⟨calm,drawn.2⟩
    · rw [result] at calm ⊢
      exact ⟨calm,remarked_edges none drawn.2 there rfl rfl rfl⟩
  · exact drawn

theorem rewrite_untouched {graph : RelationGraph.RelationGraph} (iteration : Iteration) (newId : String) (calm : Calm graph)
    (untouched : Untouched graph.inner id) : (rewrite graph iteration id newId).2 = graph := by
  obtain ⟨quiet,same⟩ := rewriteSubjectTo_untouched iteration newId untouched
  rw [rewrite,graph_open calm,quiet,same,← calm.1]

theorem rewriteBoth_drawn (first second : Iteration) (newId : String) (drawn : Drawn st)
    (untouchedA : Untouched st.graph.inner sourceA) (untouchedB : Untouched st.graph.inner sourceB) :
    Drawn (rewriteBoth st first second sourceA sourceB newId) := by
  have one := rewrite_untouched first newId drawn.1 untouchedA
  unfold rewriteBoth
  split
  · rename_i result
    rw [result] at one
    cases one
    refine drawn.frame ?_ rfl rfl
    exact rewrite_untouched second newId drawn.1 untouchedB
  · rename_i result
    rw [result] at one
    exact drawn.frame one rfl rfl

def MergesUntouched (st : Steward) (a b : ExternalAddressing) : Prop :=
  ∀ sourceA sourceB recordA recordB,resolve st.registry.inner a = some sourceA → resolve st.registry.inner b = some sourceB →
    describe st.registry.inner sourceA = some recordA → describe st.registry.inner sourceB = some recordB →
    sourceA ≠ sourceB → recordA.subjectType = recordB.subjectType →
    Untouched st.graph.inner sourceA ∧ Untouched st.graph.inner sourceB

def SplitsUntouched (st : Steward) (source : ExternalAddressing) (groups : List (List ExternalAddressing))
    (assignments : List ExplicitRelationAssignment) : Prop :=
  ∀ sourceId record,resolve st.registry.inner source = some sourceId → describe st.registry.inner sourceId = some record →
    Divides record groups → (∀ a,a ∈ assignments → a.targetNewIdIndex < groups.length) → Untouched st.graph.inner sourceId

theorem merge_drawn (held : Held uuid st.registry) (drawn : Drawn st) (met : MergesUntouched st targetA targetB) :
    Drawn (merge uuid st first second admin targetA targetB reason) := by
  unfold merge
  split
  · rename_i sourceA sourceB atA atB
    split
    · exact drawn
    · rename_i apart
      dsimp only
      split
      · exact drawn
      · rw [SubjectRestart.locked_open held]
        rcases SubjectAliases.mergeAliases_cases sourceA sourceB admin reason held.2 with ⟨error,same⟩ |
          ⟨recordA,recordB,thereA,thereB,-,typed,result⟩
        · rw [same]
          exact drawn.frame rfl rfl rfl
        · obtain ⟨untouchedA,untouchedB⟩ := met sourceA sourceB recordA recordB atA atB thereA thereB apart typed
          rw [result]
          refine rewriteBoth_drawn first second _ ?_ untouchedA untouchedB
          refine drawn.frame rfl ?_ ?_
          · dsimp only
            split <;> rfl
          · dsimp only
            split <;> rfl
  · exact drawn

theorem split_drawn (fresh : Function.Injective uuid) (held : Held uuid st.registry) (drawn : Drawn st)
    (met : SplitsUntouched st source groups assignments) :
    Drawn (StewardWiring.split uuid st iteration admin source groups strategy assignments reason) := by
  unfold StewardWiring.split
  split
  · exact drawn
  · rename_i sourceId indexed
    split
    · exact drawn
    · rename_i inRange
      dsimp only
      rw [SubjectRestart.locked_open held]
      rcases SubjectAliases.splitSubject_cases sourceId groups admin reason fresh held.2 with ⟨error,same⟩ |
        ⟨record,moves,placed,there,divides,shape,result⟩
      · rw [same]
        exact drawn.frame rfl rfl rfl
      · have untouched := met sourceId record indexed there divides (by simpa using inRange)
        rw [result]
        refine drawn.frame ?_ ?_ ?_
        · dsimp only
          obtain ⟨quiet,same⟩ := splitRelations_untouched iteration untouched
          rw [graph_open drawn.1,quiet,same,← drawn.1.1]
        · dsimp only
          split <;> rfl
        · dsimp only
          split <;> rfl

def Uncascaded (st : Steward) : Request → Prop
  | .merge _ _ _ a b _ => MergesUntouched st a b
  | .split _ _ source groups _ assignments _ => SplitsUntouched st source groups assignments
  | .suppress admin source predicate target reason now => KeepsMarker st admin source predicate target reason now
  | _ => True

theorem step_drawn (fresh : Function.Injective uuid) (held : Held uuid st.registry) (drawn : Drawn st) (request : Request)
    (met : Uncascaded st request) : Drawn (StewardWiring.step uuid catalogue st request) := by
  cases request with
  | announce plugin announcement => exact announce_drawn drawn
  | retract iteration plugin addressing reason => exact retract_drawn drawn
  | forcedRetractAddressing iteration admin target admitted addressing reason => exact forcedRetractAddressing_drawn drawn
  | merge first second admin a b reason => exact merge_drawn held drawn met
  | split iteration admin source groups strategy assignments reason => exact split_drawn fresh held drawn met
  | assertRelation plugin source predicate target reason => exact assertRelation_drawn drawn
  | retractRelation plugin source predicate target => exact retractRelation_drawn drawn
  | forcedRetractClaim admin target admitted source predicate addressing => exact forcedRetractClaim_drawn drawn
  | suppress admin source predicate target reason now => exact suppress_drawn drawn met
  | unsuppress source predicate target => exact unsuppress_drawn drawn

theorem step_calls (st : Steward) (request : Request) : Calls uuid st (StewardWiring.step uuid catalogue st request) := by
  cases request with
  | announce plugin announcement => exact announce_calls st
  | retract iteration plugin addressing reason => exact retract_calls st
  | forcedRetractAddressing iteration admin target admitted addressing reason => exact forcedRetractAddressing_calls st
  | merge first second admin a b reason => exact merge_calls st
  | split iteration admin source groups strategy assignments reason => exact split_calls st
  | assertRelation plugin source predicate target reason => exact .inl (SubjectRestart.assertRelation_frame st).1
  | retractRelation plugin source predicate target => exact .inl (SubjectRestart.retractRelation_frame st).1
  | forcedRetractClaim admin target admitted source predicate addressing =>
    exact .inl (SubjectRestart.forcedRetractClaim_frame st).1
  | suppress admin source predicate target reason now => exact .inl (SubjectRestart.suppress_frame st).1
  | unsuppress source predicate target => exact .inl (SubjectRestart.unsuppress_frame st).1

theorem restored_present (restores : RestoresGraph st) (stored : get st.store.relations key = some row) :
    Present st.graph.inner key := by
  have same := restores key
  rw [rehydrate_relations,stored] at same
  cases there : get st.graph.inner.relations key with
  | none =>
    rw [there] at same
    cases same
  | some record => exact ⟨record,there⟩

theorem stranded_untouched {st after : Steward} (edges : Edges st.graph.inner st.store) (restores : RestoresGraph after)
    (relations : after.store.relations = st.store.relations) (cleared : Untouched after.graph.inner id) : Untouched st.graph.inner id := by
  rintro key ⟨record,there⟩
  have stored : get after.store.relations key = some (rowOf record.suppression) := by
    rw [relations,edges.rows,there]
    rfl
  exact cleared key (restored_present restores stored)

theorem rewriteEdges_stays (oldId newId : String) (keys : List RelationKey) (outcome : RewriteSubjectOutcome)
    (apart : newId ≠ id) (untouched : Untouched g id) : Untouched (rewriteEdges oldId newId g keys outcome).2 id := by
  induction keys generalizing g outcome with
  | nil => exact untouched
  | cons oldKey rest ih =>
    simp only [rewriteEdges]
    split
    · exact untouched
    · rename_i record there
      apply ih
      intro k present
      rcases (settle_present _ _ _ k).mp present with rfl | left
      · have before := untouched oldKey ⟨record,there⟩
        simp only [RelationKey.touches,RelationKey.substitute,Bool.or_eq_false_iff,beq_eq_false_iff_ne] at before ⊢
        constructor <;> split <;> simp_all
      · have other : k ≠ oldKey := by
          rintro rfl
          simp [Present] at left
        exact untouched k (by simpa [Present,other] using left)

theorem rewriteSubjectTo_clears {oldId newId : String} (iteration : Iteration) (agrees : Agrees g) (oldNamed : oldId ≠ "")
    (newNamed : newId ≠ "") (apart : newId ≠ oldId) :
    ∃ outcome after,rewriteSubjectTo g iteration oldId newId = (.ok outcome,after) ∧ Agrees after ∧
      Untouched after oldId ∧ ∀ id,newId ≠ id → Untouched g id → Untouched after id := by
  have pending : ∀ k,k ∈ touching g iteration oldId → Present g k := fun k member => ((mem_touching iteration).mp member).1
  obtain ⟨result,after,run,still⟩ := rewriteEdges_agrees oldId newId (touching g iteration oldId) ⟨[],[],[]⟩ agrees
    (touching_nodup iteration) pending
  have cleared := rewriteEdges_clears oldId newId (touching g iteration oldId) ⟨[],[],[]⟩ apart (touching_nodup iteration)
    pending fun k present touches => (mem_touching iteration).mpr ⟨present,touches⟩
  rw [run] at cleared
  refine ⟨result,after,by simp [rewriteSubjectTo,oldNamed,newNamed,apart.symm,run],still,cleared,fun id other untouched => ?_⟩
  have stays := rewriteEdges_stays oldId newId (touching g iteration oldId) ⟨[],[],[]⟩ other untouched
  rwa [run] at stays

theorem rewriteBoth_clears (first second : Iteration) (calm : Calm st.graph) (namedA : sourceA ≠ "") (namedB : sourceB ≠ "")
    (named : newId ≠ "") (apartA : newId ≠ sourceA) (apartB : newId ≠ sourceB) :
    Untouched (rewriteBoth st first second sourceA sourceB newId).graph.inner sourceA ∧
      Untouched (rewriteBoth st first second sourceA sourceB newId).graph.inner sourceB := by
  obtain ⟨outcomeA,afterA,resultA,agreesA,clearedA,-⟩ := rewriteSubjectTo_clears first calm.2 namedA named apartA
  obtain ⟨outcomeB,afterB,resultB,-,clearedB,stays⟩ := rewriteSubjectTo_clears second agreesA namedB named apartB
  have final : (rewriteBoth st first second sourceA sourceB newId).graph.inner = afterB := by
    have calmA : Calm (⟨afterA,false⟩ : RelationGraph.RelationGraph) := ⟨rfl,agreesA⟩
    have one : rewrite st.graph first sourceA newId = (.ok outcomeA,⟨afterA,false⟩) := by
      rw [rewrite,graph_open calm,resultA]
      rfl
    simp only [rewriteBoth,one]
    rw [rewrite,graph_open calmA,resultB]
  rw [final]
  exact ⟨stays sourceA apartA clearedA,clearedB⟩

theorem source_named (named : ∀ n,uuid n ≠ "") (sound : SubjectAliases.Sound uuid s) (there : describe s id = some subject) :
    id ≠ "" := by
  obtain ⟨k,-,rfl⟩ := sound.known id (.inl (by simp [SubjectAliases.Live,there]))
  exact named k

theorem merge_needs (fresh : Function.Injective uuid) (named : ∀ n,uuid n ≠ "") (held : Held uuid st.registry)
    (drawn : Drawn st) (restores : RestoresGraph (merge uuid st first second admin targetA targetB reason)) :
    MergesUntouched st targetA targetB := by
  intro sourceA sourceB recordA recordB atA atB thereA thereB apart typed
  have apartA : uuid st.registry.inner.drawn ≠ sourceA :=
    Ne.symm (SubjectAliases.known_range held.2 (.inl (by simp [SubjectAliases.Live,thereA])) fresh (i := 0))
  have apartB : uuid st.registry.inner.drawn ≠ sourceB :=
    Ne.symm (SubjectAliases.known_range held.2 (.inl (by simp [SubjectAliases.Live,thereB])) fresh (i := 0))
  obtain ⟨before,graph,relations,result⟩ : ∃ before : Steward,before.graph = st.graph ∧
      before.store.relations = st.store.relations ∧
      merge uuid st first second admin targetA targetB reason =
        rewriteBoth before first second sourceA sourceB (uuid st.registry.inner.drawn) := by
    refine ⟨{st with
      registry := ⟨SubjectAliases.mergedInto uuid st.registry.inner sourceA sourceB recordA recordB admin reason,false⟩
      store := recordSubjectMerge st.store sourceA sourceB (uuid st.registry.inner.drawn) recordA.subjectType admin reason},
      rfl,rfl,?_⟩
    have merged := SubjectAliases.mergeAliases_exact admin reason held.2 thereA thereB apart typed
    simp [merge,atA,atB,apart,thereA,thereB,typed,SubjectRestart.locked_open held,merged,Reply.panics]
  rw [result] at restores
  obtain ⟨clearedA,clearedB⟩ := rewriteBoth_clears first second (graph ▸ drawn.1) (source_named named held.2 thereA)
    (source_named named held.2 thereB) (named _) apartA apartB
  have stored : (rewriteBoth before first second sourceA sourceB (uuid st.registry.inner.drawn)).store.relations =
      st.store.relations := by rw [(rewriteBoth_frame _ _ _ _ _ _).2,relations]
  exact ⟨stranded_untouched drawn.2 restores stored clearedA,stranded_untouched drawn.2 restores stored clearedB⟩

theorem routed_apart (ids : List String) (assignments : List ExplicitRelationAssignment) (inner : SubjectRegistry.RegistryInner)
    (outside : source ∉ ids) (inRange : ∀ a,a ∈ assignments → a.targetNewIdIndex < ids.length) :
    ∀ a,a ∈ resolvedAssignments ids (preResolved inner assignments) → a.targetNewId ≠ source := by
  intro a member
  obtain ⟨⟨i,s,p,t⟩,route,rfl⟩ := List.mem_map.mp member
  obtain ⟨assignment,listed,resolved⟩ := List.mem_filterMap.mp route
  obtain ⟨s',-,mapped⟩ := Option.bind_eq_some_iff.mp resolved
  obtain ⟨t',-,same⟩ := Option.map_eq_some_iff.mp mapped
  cases same
  have below := inRange assignment listed
  rintro rfl
  apply outside
  dsimp only
  rw [List.getD_eq_getElem ids "" below]
  exact List.getElem_mem below

theorem splitRelations_clears {source : String} (iteration : Iteration) (agrees : Agrees g) (named : source ≠ "")
    (some_id : newIds ≠ []) (outside : source ∉ newIds) (routed : ∀ a,a ∈ assignments → a.targetNewId ≠ source) :
    Untouched (splitRelations g iteration source newIds strategy assignments).2 source := by
  have pending : ∀ k,k ∈ touching g iteration source → Present g k := fun k member => ((mem_touching iteration).mp member).1
  obtain ⟨result,after,run,-⟩ := splitEdges_agrees source newIds strategy assignments (touching g iteration source) ⟨[],[],[]⟩
    agrees (touching_nodup iteration) pending
  have cleared := splitEdges_clears source newIds strategy assignments (touching g iteration source) ⟨[],[],[]⟩ outside routed
    agrees (touching_nodup iteration) pending fun k present touches => (mem_touching iteration).mpr ⟨present,touches⟩
  rw [run] at cleared
  simpa [splitRelations,named,some_id,run] using cleared

theorem split_needs (fresh : Function.Injective uuid) (named : ∀ n,uuid n ≠ "") (held : Held uuid st.registry)
    (drawn : Drawn st)
    (restores : RestoresGraph (StewardWiring.split uuid st iteration admin source groups strategy assignments reason)) :
    SplitsUntouched st source groups assignments := by
  intro sourceId record indexed there divides inRange
  obtain ⟨moves,placed,-,divided⟩ := SubjectAliases.splitSubject_exact admin reason fresh held.2 there divides
  have outside : sourceId ∉ SubjectRegistry.newIds uuid st.registry.inner groups.length := fun listed => by
    obtain ⟨i,-,same⟩ := SubjectAliases.mem_newIds.mp listed
    exact SubjectAliases.known_range held.2 (.inl (by simp [SubjectAliases.Live,there])) fresh same
  have some_id : SubjectRegistry.newIds uuid st.registry.inner groups.length ≠ [] := by
    rw [← List.length_pos_iff,SubjectAliases.newIds_length]
    have := divides.several
    omega
  have routed := routed_apart (SubjectRegistry.newIds uuid st.registry.inner groups.length) assignments st.registry.inner
    outside (by simpa only [SubjectAliases.newIds_length] using inRange)
  have cleared : Untouched (splitRelations st.graph.inner iteration sourceId _ strategy _).2 sourceId :=
    splitRelations_clears iteration drawn.1.2 (source_named named held.2 there) some_id outside routed
  have result : StewardWiring.split uuid st iteration admin source groups strategy assignments reason =
      ⟨⟨SubjectAliases.splitInto placed sourceId (SubjectRegistry.newIds uuid st.registry.inner groups.length) admin reason,false⟩,
        (RelationGraph.locked st.graph fun g => splitRelations g iteration sourceId
          (SubjectRegistry.newIds uuid st.registry.inner groups.length) strategy (resolvedAssignments
            (SubjectRegistry.newIds uuid st.registry.inner groups.length) (preResolved st.registry.inner assignments))).2,
        recordSubjectSplit st.store sourceId (SubjectRegistry.newIds uuid st.registry.inner groups.length)
          record.subjectType groups admin reason⟩ := by
    have noneOut : (assignments.any fun a => decide (groups.length ≤ a.targetNewIdIndex)) = false := by simpa using inRange
    simp [StewardWiring.split,indexed,noneOut,there,SubjectRestart.locked_open held,divided,Reply.panics]
  rw [result] at restores
  refine stranded_untouched drawn.2 restores rfl ?_
  rw [graph_open drawn.1]
  exact cleared

theorem suppress_needs (drawn : Drawn st) (restores : RestoresGraph (StewardWiring.suppress st admin source predicate target reason now)) :
    KeepsMarker st admin source predicate target reason now := by
  intro sourceId targetId record marker atSource atTarget there marked changed
  have updated : RelationGraph.suppress st.graph.inner sourceId predicate targetId admin reason now =
      (.ok (.reasonUpdated marker.reason reason),
        store st.graph.inner ⟨sourceId,predicate,targetId⟩ {record with suppression := some {marker with reason := reason}}) := by
    simp only [RelationGraph.suppress,there,marked,if_neg changed]
  have result : StewardWiring.suppress st admin source predicate target reason now = {st with
      graph := ⟨store st.graph.inner ⟨sourceId,predicate,targetId⟩
        {record with suppression := some {marker with reason := reason}},false⟩
      store := recordRelationSuppress st.store ⟨sourceId,predicate,targetId⟩ admin now reason} := by
    simp [StewardWiring.suppress,atSource,atTarget,graph_open drawn.1,updated,Reply.panics]
  rw [result] at restores
  have same := restores ⟨sourceId,predicate,targetId⟩
  have row : get st.store.relations ⟨sourceId,predicate,targetId⟩ = some (rowOf record.suppression) := by
    simp [drawn.2.rows,there]
  simp only [rehydrate_relations,recordRelationSuppress,get_modify,if_true,row,Option.map_some,relations_store,get_insert] at same
  cases same with
  | some same =>
    have markers := same.2
    simp only [suppressionOf,Option.some.injEq,SuppressionRecord.mk.injEq] at markers
    exact ⟨markers.1.symm,markers.2.1.symm⟩

theorem step_needs_untouched (fresh : Function.Injective uuid) (named : ∀ n,uuid n ≠ "") (held : Held uuid st.registry)
    (drawn : Drawn st) (request : Request) (restores : RestoresGraph (StewardWiring.step uuid catalogue st request)) :
    Uncascaded st request := by
  cases request with
  | merge first second admin a b reason => exact merge_needs fresh named held drawn restores
  | split iteration admin source groups strategy assignments reason => exact split_needs fresh named held drawn restores
  | suppress admin source predicate target reason now => exact suppress_needs drawn restores
  | _ => trivial

theorem restart_restores_relations_exactly (fresh : Function.Injective uuid) (named : ∀ n,uuid n ≠ "") (catalogue : Catalogue)
    (requests : List Request) :
    Throughout (StewardWiring.step uuid catalogue) RestoresGraph .new requests ↔
      Guarded (StewardWiring.step uuid catalogue) Uncascaded .new requests := by
  apply throughout_strong (fun st => Held uuid st.registry ∧ Drawn st)
  · exact fun st strong => edges_restore strong.2.2
  · exact fun st request strong met =>
      ⟨(step_calls st request).held fresh strong.1,step_drawn fresh strong.1 strong.2 request met⟩
  · exact fun st request strong restores => step_needs_untouched fresh named strong.1 strong.2 request restores
  · exact ⟨⟨rfl,SubjectAliases.new_sound⟩,⟨rfl,new_agrees⟩,new_edges⟩

def queue : Catalogue := ⟨["track"],[⟨"next",.single "track",.single "track"⟩]⟩

def queued : List Request :=
  [.announce "mpd" ⟨"track",[⟨"mpd","a"⟩],[],none⟩,.announce "mpd" ⟨"track",[⟨"mpd","b"⟩],[],none⟩,
    .assertRelation "mpd" ⟨"mpd","a"⟩ "next" ⟨"mpd","b"⟩ none]

theorem strokes_named (n : Nat) : SubjectAliases.strokes n ≠ "" := by
  intro empty
  have lists := congrArg (fun text => text.toList.length) empty
  simp [SubjectAliases.strokes] at lists

def resuppressed (admin : String) (now : Nat) : List Request :=
  queued ++ ([.suppress "alice" ⟨"mpd","a"⟩ "next" ⟨"mpd","b"⟩ none 5,
    .suppress admin ⟨"mpd","a"⟩ "next" ⟨"mpd","b"⟩ (some "stale") now] : List Request)

theorem queue_marker : ∀ n ∈ [3,4],∀ sourceId targetId record marker,
    resolve (run (StewardWiring.step SubjectAliases.strokes queue) .new ((resuppressed "alice" 5).take n)).registry.inner ⟨"mpd","a"⟩ = some sourceId →
    resolve (run (StewardWiring.step SubjectAliases.strokes queue) .new ((resuppressed "alice" 5).take n)).registry.inner ⟨"mpd","b"⟩ = some targetId →
    get (run (StewardWiring.step SubjectAliases.strokes queue) .new ((resuppressed "alice" 5).take n)).graph.inner.relations
      ⟨sourceId,"next",targetId⟩ = some record → record.suppression = some marker → marker = ⟨"alice",5,none⟩ := by
  intro n counted sourceId targetId record marker atSource atTarget there marked
  have shape : ∀ n ∈ [3,4],
      resolve (run (StewardWiring.step SubjectAliases.strokes queue) .new ((resuppressed "alice" 5).take n)).registry.inner ⟨"mpd","a"⟩ = some "u" ∧
      resolve (run (StewardWiring.step SubjectAliases.strokes queue) .new ((resuppressed "alice" 5).take n)).registry.inner ⟨"mpd","b"⟩ = some "uu" ∧
      (get (run (StewardWiring.step SubjectAliases.strokes queue) .new ((resuppressed "alice" 5).take n)).graph.inner.relations
        ⟨"u","next","uu"⟩).map (·.suppression) ∈ [some none,some (some ⟨"alice",5,none⟩)] := by decide
  obtain ⟨first,second,stands⟩ := shape n counted
  cases Option.some.inj (first.symm.trans atSource)
  cases Option.some.inj (second.symm.trans atTarget)
  rw [there,Option.map_some,marked] at stands
  simpa using stands

-- The administrator gives another reason within the millisecond.
theorem restart_restores_suppressed_queue :
    Throughout (StewardWiring.step SubjectAliases.strokes queue) RestoresGraph .new
      (resuppressed "alice" 5 ++ ([.retract .listed "mpd" ⟨"mpd","a"⟩ none] : List Request)) := by
  apply (restart_restores_relations_exactly SubjectAliases.strokes_fresh strokes_named queue _).mpr
  refine ⟨trivial,trivial,trivial,?_,?_,trivial,trivial⟩
  · intro sourceId targetId record marker atSource atTarget there marked changed
    cases queue_marker 3 (by decide) sourceId targetId record marker atSource atTarget there marked
    exact absurd rfl changed
  · intro sourceId targetId record marker atSource atTarget there marked _
    cases queue_marker 4 (by decide) sourceId targetId record marker atSource atTarget there marked
    exact ⟨rfl,rfl⟩

theorem unlike_markers {st : Steward} (stored : (get st.store.relations key).map suppressionOf = some one)
    (held : (get st.graph.inner.relations key).map (·.suppression) = some other) (unlike : one ≠ other) : ¬RestoresGraph st := by
  intro restores
  have same := restores key
  obtain ⟨row,there,rfl⟩ := Option.map_eq_some_iff.mp stored
  obtain ⟨record,here,rfl⟩ := Option.map_eq_some_iff.mp held
  rw [rehydrate_relations,there,here] at same
  cases same with
  | some same => exact unlike same.2

-- A merge rewrites the edge of its source in memory only; a new reason changes the administrator and the
-- time of the marker in the store only.
theorem cascade_not_persisted :
    ¬RestoresGraph (run (StewardWiring.step SubjectAliases.strokes queue) .new (queued ++
        ([.announce "mpd" ⟨"track",[⟨"mpd","c"⟩],[],none⟩,.merge .listed .listed "alice" ⟨"mpd","a"⟩ ⟨"mpd","c"⟩ none] : List Request))) ∧
      ¬RestoresGraph (run (StewardWiring.step SubjectAliases.strokes queue) .new (resuppressed "bob" 5)) ∧
      ¬RestoresGraph (run (StewardWiring.step SubjectAliases.strokes queue) .new (resuppressed "alice" 6)) := by
  refine ⟨?_,?_,?_⟩
  · intro restores
    have stored : get (run (StewardWiring.step SubjectAliases.strokes queue) .new (queued ++
        ([.announce "mpd" ⟨"track",[⟨"mpd","c"⟩],[],none⟩,
          .merge .listed .listed "alice" ⟨"mpd","a"⟩ ⟨"mpd","c"⟩ none] : List Request))).store.relations ⟨"u","next","uu"⟩ =
        some ⟨none,none,none⟩ := by decide
    obtain ⟨record,there⟩ := restored_present restores stored
    have moved : get (run (StewardWiring.step SubjectAliases.strokes queue) .new (queued ++
        ([.announce "mpd" ⟨"track",[⟨"mpd","c"⟩],[],none⟩,
          .merge .listed .listed "alice" ⟨"mpd","a"⟩ ⟨"mpd","c"⟩ none] : List Request))).graph.inner.relations ⟨"u","next","uu"⟩ =
        none := by decide
    cases moved.symm.trans there
  · have stored : (get (run (StewardWiring.step SubjectAliases.strokes queue) .new (resuppressed "bob" 5)).store.relations ⟨"u","next","uu"⟩).map
        suppressionOf = some (some ⟨"bob",5,some "stale"⟩) := by decide
    have held : (get (run (StewardWiring.step SubjectAliases.strokes queue) .new (resuppressed "bob" 5)).graph.inner.relations
        ⟨"u","next","uu"⟩).map (·.suppression) = some (some ⟨"alice",5,some "stale"⟩) := by decide
    exact unlike_markers stored held (by decide)
  · have stored : (get (run (StewardWiring.step SubjectAliases.strokes queue) .new (resuppressed "alice" 6)).store.relations ⟨"u","next","uu"⟩).map
        suppressionOf = some (some ⟨"alice",6,some "stale"⟩) := by decide
    have held : (get (run (StewardWiring.step SubjectAliases.strokes queue) .new (resuppressed "alice" 6)).graph.inner.relations
        ⟨"u","next","uu"⟩).map (·.suppression) = some (some ⟨"alice",5,some "stale"⟩) := by decide
    exact unlike_markers stored held (by decide)

end EvoCore.RelationRestart
