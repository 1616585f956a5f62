import EvoCore.MergeCascade

namespace EvoCore.SplitCascade
open Tables Runs RelationGraph GraphIndex RelationMoves MergeCascade
open SubjectRegistry (Reply)

variable {g : GraphInner} {iteration : Iteration} {source : String} {newIds : List String} {strategy : SplitRelationStrategy}
  {assignments : List ResolvedSplitAssignment} {record : RelationRecord} {key old k : RelationKey} {keys : List RelationKey}

def Assigned (newIds : List String) (strategy : SplitRelationStrategy) (assignments : List ResolvedSplitAssignment) (key : RelationKey)
    (id : String) : Prop :=
  match strategy with
  | .toBoth => id ∈ newIds
  | .toFirst => newIds.head? = some id
  | .explicit =>
    match assignment assignments key with
    | some a => id = a.targetNewId
    | none => id ∈ newIds

-- What a split owes the relations: over the graphs before and after.
structure Covered (before after : GraphInner) (source : String) (newIds : List String) (assigned : RelationKey → String → Prop) : Prop where
  gone : ∀ key,Present after key → key.touches source = false
  carried : ∀ old record id,get before.relations old = some record → old.touches source = true → assigned old id →
    get after.relations (old.substitute source id) = some ⟨old.substitute source id,record.claims,record.suppression⟩
  only : ∀ key,Present after key → (∃ id ∈ newIds,key.touches id = true) →
    ∃ old id,Present before old ∧ old.touches source = true ∧ assigned old id ∧ old.substitute source id = key
  others : ∀ key,key.touches source = false →
    (∀ old id,Present before old → old.touches source = true → assigned old id → old.substitute source id ≠ key) →
    get after.relations key = get before.relations key

def Fresh (g : GraphInner) (source id : String) : Prop := id ≠ source ∧ ∀ key,Present g key → key.touches id = false

def unmatched (strategy : SplitRelationStrategy) (assignments : List ResolvedSplitAssignment) (key : RelationKey) : Bool :=
  strategy == .explicit && (assignment assignments key).isNone

def gap (source : String) (newIds : List String) (key : RelationKey) : AmbiguousEdge :=
  ⟨source,key.predicate,if key.sourceId = source then key.targetId else key.sourceId,newIds⟩

def spreads (source : String) (newIds : List String) (strategy : SplitRelationStrategy) (assignments : List ResolvedSplitAssignment)
    (key : RelationKey) : List RelationKey :=
  (assignedNewIds source newIds strategy assignments key).1.map (key.substitute source)

theorem assigned_ids (id : String) : id ∈ (assignedNewIds source newIds strategy assignments key).1 ↔
    Assigned newIds strategy assignments key id := by
  unfold assignedNewIds Assigned
  cases strategy with
  | toBoth => exact Iff.rfl
  | toFirst => cases newIds <;> simp [eq_comm]
  | explicit => cases assignment assignments key <;> simp

theorem assigned_gaps : (assignedNewIds source newIds strategy assignments key).2 =
    if unmatched strategy assignments key then [gap source newIds key] else [] := by
  unfold assignedNewIds unmatched
  cases strategy with
  | toBoth => rfl
  | toFirst => rfl
  | explicit => cases assignment assignments key <;> simp [gap]

theorem mem_spreads : k ∈ spreads source newIds strategy assignments key ↔
    ∃ id,Assigned newIds strategy assignments key id ∧ key.substitute source id = k := by
  simp only [spreads,List.mem_map,assigned_ids]

theorem fanOut_moves (oldKey : RelationKey) (ids : List String) (outcome : SplitRelationsOutcome) :
    (fanOut source oldKey record g ids outcome).2 =
      (ids.map (oldKey.substitute source)).foldl (fun g newKey => (settle g newKey record).2) g ∧
    (fanOut source oldKey record g ids outcome).1.ambiguous = outcome.ambiguous := by
  induction ids generalizing g outcome with
  | nil => exact ⟨rfl,rfl⟩
  | cons id rest ih =>
    obtain ⟨moved,ambiguous⟩ := @ih (settle g (oldKey.substitute source id) record).2
      {outcome.collapsed (oldKey.substitute source id) (settle g (oldKey.substitute source id) record).1 with
        rewrites := (outcome.collapsed (oldKey.substitute source id) (settle g (oldKey.substitute source id) record).1).rewrites ++
          [⟨oldKey,oldKey.substitute source id,record.claims⟩]}
    refine ⟨moved,ambiguous.trans ?_⟩
    simp only [SplitRelationsOutcome.collapsed]
    split <;> rfl

theorem splitEdges_moves (outcome : SplitRelationsOutcome) :
    (splitEdges source newIds strategy assignments g keys outcome).2 =
      moveAll (spreads source newIds strategy assignments) g keys := by
  induction keys generalizing g outcome with
  | nil => rfl
  | cons oldKey rest ih =>
    simp only [splitEdges,moveAll]
    cases get g.relations oldKey with
    | none => rfl
    | some record =>
      dsimp only
      rw [ih,(fanOut_moves oldKey _ _).1]
      rfl

theorem splitEdges_gaps (outcome : SplitRelationsOutcome) (distinct : keys.Nodup) (pending : ∀ key ∈ keys,Present g key) :
    ∃ result,(splitEdges source newIds strategy assignments g keys outcome).1 = some result ∧
      result.ambiguous = outcome.ambiguous ++ (keys.filter (unmatched strategy assignments)).map (gap source newIds) := by
  induction keys generalizing g outcome with
  | nil => exact ⟨outcome,rfl,by simp⟩
  | cons oldKey rest ih =>
    obtain ⟨outside,others⟩ := List.nodup_cons.mp distinct
    obtain ⟨record,there⟩ := pending oldKey List.mem_cons_self
    simp only [splitEdges,there]
    obtain ⟨moved,ambiguous⟩ := @fanOut_moves (removeRelation g oldKey) source record oldKey
      (assignedNewIds source newIds strategy assignments oldKey).1
      {outcome with ambiguous := outcome.ambiguous ++ (assignedNewIds source newIds strategy assignments oldKey).2}
    have kept : ∀ keys : List RelationKey,∀ g : GraphInner,∀ k,Present g k →
        Present (keys.foldl (fun g newKey => (settle g newKey record).2) g) k := by
      intro keys
      induction keys with
      | nil => exact fun _ _ there => there
      | cons newKey more later =>
        intro g k there
        exact later _ k ((settle_present g newKey record k).mpr (.inr there))
    obtain ⟨result,done,noted⟩ := @ih
      (fanOut source oldKey record (removeRelation g oldKey) (assignedNewIds source newIds strategy assignments oldKey).1
        {outcome with ambiguous := outcome.ambiguous ++ (assignedNewIds source newIds strategy assignments oldKey).2}).2
      (fanOut source oldKey record (removeRelation g oldKey) (assignedNewIds source newIds strategy assignments oldKey).1
        {outcome with ambiguous := outcome.ambiguous ++ (assignedNewIds source newIds strategy assignments oldKey).2}).1 others (by
      intro k member
      rw [moved]
      exact kept _ _ k (removed_present (fun same => outside (same ▸ member)) (pending k (List.mem_cons_of_mem _ member))))
    refine ⟨result,done,?_⟩
    rw [noted,ambiguous,assigned_gaps]
    by_cases open_ : unmatched strategy assignments oldKey <;> simp [open_]

theorem unionClaims_known (existing moving : List RelationClaim)
    (known : ∀ claim ∈ moving,claim.claimant ∈ existing.map RelationClaim.claimant) : (unionClaims existing moving).1 = existing := by
  induction moving generalizing existing with
  | nil => rfl
  | cons claim rest ih =>
    have member := known claim List.mem_cons_self
    have any : existing.any (fun c => c.claimant == claim.claimant) = true := by simpa using member
    rw [unionClaims,if_pos any]
    exact ih existing fun other inside => known other (List.mem_cons_of_mem _ inside)

theorem gather_copies {records : List RelationRecord} (some_ : records ≠ []) (copies : ∀ r ∈ records,r = record) :
    gather k none records = some ⟨k,record.claims,record.suppression⟩ := by
  have again : ∀ records : List RelationRecord,(∀ r ∈ records,r = record) →
      gather k (some ⟨k,record.claims,record.suppression⟩) records = some ⟨k,record.claims,record.suppression⟩ := by
    intro records copies
    induction records with
    | nil => rfl
    | cons first rest ih =>
      have same := copies first List.mem_cons_self
      subst same
      rw [gather_cons,merged]
      dsimp only
      rw [unionClaims_known first.claims first.claims fun claim inside => List.mem_map_of_mem inside]
      exact ih fun r inside => copies r (List.mem_cons_of_mem _ inside)
  obtain ⟨first,rest,rfl⟩ := List.exists_cons_of_ne_nil some_
  have same := copies first List.mem_cons_self
  subst same
  exact again rest fun r inside => copies r (List.mem_cons_of_mem _ inside)

-- With fresh ids two relations never come to one key.
theorem substitute_apart {first second : RelationKey} {one two : String} (freshOne : Fresh g source one) (freshTwo : Fresh g source two)
    (thereFirst : Present g first) (thereSecond : Present g second)
    (same : first.substitute source one = second.substitute source two) : first = second := by
  obtain ⟨sourceOne,targetOne⟩ := touches_false.mp (freshOne.2 second thereSecond)
  obtain ⟨sourceTwo,targetTwo⟩ := touches_false.mp (freshTwo.2 first thereFirst)
  simp only [RelationKey.substitute,RelationKey.mk.injEq] at same
  obtain ⟨sources,predicates,targets⟩ := same
  have ends : ∀ {a b : String},a ≠ two → b ≠ one → (if a = source then one else a) = (if b = source then two else b) → a = b := by
    intro a b apartA apartB equal
    by_cases ownA : a = source <;> by_cases ownB : b = source
    · exact ownA.trans ownB.symm
    · rw [if_pos ownA,if_neg ownB] at equal
      exact absurd equal.symm apartB
    · rw [if_neg ownA,if_pos ownB] at equal
      exact absurd equal apartA
    · rw [if_neg ownA,if_neg ownB] at equal
      exact equal
  cases first
  cases second
  simp only [RelationKey.mk.injEq]
  exact ⟨ends sourceTwo sourceOne sources,predicates,ends targetTwo targetOne targets⟩

theorem substitute_mentions {id : String} (touches : old.touches source = true) : (old.substitute source id).touches id = true := by
  simp only [RelationKey.touches,Bool.or_eq_true,beq_iff_eq] at touches ⊢
  simp only [RelationKey.substitute]
  rcases touches with own | own
  · exact .inl (by rw [if_pos own])
  · exact .inr (by rw [if_pos own])

theorem assigned_new {id : String} (within : ∀ a ∈ assignments,a.targetNewId ∈ newIds)
    (assigned : Assigned newIds strategy assignments key id) : id ∈ newIds := by
  cases strategy with
  | toBoth => exact assigned
  | toFirst => exact List.mem_of_head? assigned
  | explicit =>
    simp only [Assigned] at assigned
    split at assigned
    · rename_i a found
      rw [assigned]
      exact within a (List.mem_of_find?_eq_some found)
    · exact assigned

theorem split_get (hsource : source ≠ "") (some_ : newIds ≠ []) (fresh : ∀ id ∈ newIds,Fresh g source id)
    (within : ∀ a ∈ assignments,a.targetNewId ∈ newIds) (k : RelationKey) :
    get (splitRelations g iteration source newIds strategy assignments).2.relations k = if k.touches source then none else
      gather k (get g.relations k) (arrivals (spreads source newIds strategy assignments) g (touching g iteration source) k) := by
  have after : (splitRelations g iteration source newIds strategy assignments).2 =
      moveAll (spreads source newIds strategy assignments) g (touching g iteration source) := by
    rw [← splitEdges_moves ⟨[],[],[]⟩,splitRelations]
    simp only [hsource,some_,if_false]
    split <;> rename_i shape <;> rw [shape]
  rw [after]
  refine touching_moved (fun key k meant => ?_) k
  obtain ⟨id,assigned,rfl⟩ := mem_spreads.mp meant
  exact substitute_clean (fresh id (assigned_new within assigned)).1.symm key

theorem split_covered (hsource : source ≠ "") (some_ : newIds ≠ []) (fresh : ∀ id ∈ newIds,Fresh g source id)
    (within : ∀ a ∈ assignments,a.targetNewId ∈ newIds) :
    Covered g (splitRelations g iteration source newIds strategy assignments).2 source newIds (Assigned newIds strategy assignments) := by
  have after := @split_get g iteration source newIds strategy assignments hsource some_ fresh within
  have gone : ∀ key,Present (splitRelations g iteration source newIds strategy assignments).2 key → key.touches source = false := by
    rintro key ⟨record,there⟩
    by_contra touches
    rw [Bool.not_eq_false] at touches
    rw [after,if_pos touches] at there
    cases there
  have others : ∀ key,key.touches source = false → (∀ old id,Present g old → old.touches source = true →
      Assigned newIds strategy assignments old id → old.substitute source id ≠ key) →
      get (splitRelations g iteration source newIds strategy assignments).2.relations key = get g.relations key := by
    intro key aside target
    have nobody : arrivals (spreads source newIds strategy assignments) g (touching g iteration source) key = [] := by
      refine List.eq_nil_iff_forall_not_mem.mpr fun record member => ?_
      obtain ⟨old,touches,meant,there⟩ := mem_arrivals.mp member
      obtain ⟨id,assigned,same⟩ := mem_spreads.mp meant
      exact target old id ⟨record,there⟩ touches assigned same
    rw [after,aside,nobody]
    rfl
  refine ⟨gone,?_,?_,others⟩
  · intro old record id there touches assigned
    have freshId := fresh id (assigned_new within assigned)
    have nobody : get g.relations (old.substitute source id) = none := by
      by_contra present
      have mentions := freshId.2 _ (Option.ne_none_iff_exists'.mp present)
      rw [substitute_mentions touches] at mentions
      cases mentions
    rw [after,substitute_clean freshId.1.symm,if_neg Bool.false_ne_true,nobody]
    refine gather_copies (List.ne_nil_of_mem (mem_arrivals.mpr ⟨old,touches,mem_spreads.mpr ⟨id,assigned,rfl⟩,there⟩)) ?_
    intro other member
    obtain ⟨key,_,meant,found⟩ := mem_arrivals.mp member
    obtain ⟨another,given_,same⟩ := mem_spreads.mp meant
    have one : key = old := substitute_apart (fresh another (assigned_new within given_)) freshId ⟨other,found⟩ ⟨record,there⟩ same
    rw [one,there] at found
    exact (Option.some.inj found).symm
  · rintro key there ⟨id,new,mentions⟩
    by_contra nobody
    push Not at nobody
    have same := others key (gone key there) nobody
    have before : Present g key := by rwa [Present,same] at there
    rw [(fresh id new).2 key before] at mentions
    cases mentions

theorem split_noted (hsource : source ≠ "") (some_ : newIds ≠ []) :
    ∃ outcome,(splitRelations g iteration source newIds strategy assignments).1 = .ok outcome ∧
      outcome.ambiguous = ((touching g iteration source).filter (unmatched strategy assignments)).map (gap source newIds) := by
  obtain ⟨result,done,noted⟩ := @splitEdges_gaps g source newIds strategy assignments (touching g iteration source) ⟨[],[],[]⟩
    (touching_nodup iteration) fun key member => ((mem_touching iteration).mp member).1
  refine ⟨result,?_,noted⟩
  simp only [splitRelations,hsource,some_,if_false]
  split <;> rename_i shape <;> rw [shape] at done <;> cases done
  rfl

-- The ambiguous edges are those of the unmatched relations, each as often as there are relations it stands for.
theorem split_cascade (hsource : source ≠ "") (some_ : newIds ≠ []) (fresh : ∀ id ∈ newIds,Fresh g source id)
    (within : ∀ a ∈ assignments,a.targetNewId ∈ newIds) (iteration : Iteration) (strategy : SplitRelationStrategy) :
    Covered g (splitRelations g iteration source newIds strategy assignments).2 source newIds (Assigned newIds strategy assignments) ∧
    ∃ outcome,(splitRelations g iteration source newIds strategy assignments).1 = .ok outcome ∧
      outcome.ambiguous.Perm (((g.relations.keys.filter (·.touches source)).filter (unmatched strategy assignments)).map
        (gap source newIds)) := by
  refine ⟨split_covered hsource some_ fresh within,?_⟩
  obtain ⟨outcome,done,noted⟩ := @split_noted g iteration source newIds strategy assignments hsource some_
  refine ⟨outcome,done,?_⟩
  rw [noted]
  exact (((iteration.complete g.relations.keys).filter _).filter _).map _

-- A relation for each place of the subject, one of them suppressed, and one assignment.
def shelves : GraphInner := (run step .new [.assert "a" "links" "a" "mpd" none,.assert "a" "album" "x" "mpd" none,
  .assert "x" "track" "a" "nas" none,.suppress "a" "album" "x" "admin" none 0]).inner

theorem shelves_split : Covered shelves (splitRelations shelves .listed "a" ["b","c"] .explicit [⟨"x","track","a","c"⟩]).2 "a" ["b","c"]
    (Assigned ["b","c"] .explicit [⟨"x","track","a","c"⟩]) := by
  have keys : ∀ key,Present shelves key → key ∈ shelves.relations.keys := fun key there => (mem_keys _).mpr there
  have fresh : ∀ id ∈ ["b","c"],∀ key ∈ shelves.relations.keys,key.touches id = false := by decide
  refine (split_cascade (by decide) (by decide) (fun id member => ⟨?_,fun key there => fresh id member key (keys key there)⟩)
    (by decide) .listed .explicit).1
  revert id
  decide

end EvoCore.SplitCascade
