import EvoCore.GraphIndex

namespace EvoCore.RelationMoves
open Tables RelationGraph GraphIndex

variable {g : GraphInner} {key newKey k : RelationKey} {record : RelationRecord} {there : Option RelationRecord}
  {records : List RelationRecord} {targets : RelationKey → List RelationKey} {keys : List RelationKey}

def merged (newKey : RelationKey) (there : Option RelationRecord) (record : RelationRecord) : RelationRecord :=
  match there with
  | some existing => {existing with claims := (unionClaims existing.claims record.claims).1}
  | none => ⟨newKey,record.claims,record.suppression⟩

def gather (newKey : RelationKey) (there : Option RelationRecord) (records : List RelationRecord) : Option RelationRecord :=
  records.foldl (fun there record => some (merged newKey there record)) there

@[simp] theorem gather_nil : gather newKey there [] = there := rfl
@[simp] theorem gather_cons : gather newKey there (record::records) = gather newKey (some (merged newKey there record)) records := rfl

theorem gather_append (first second : List RelationRecord) :
    gather newKey there (first ++ second) = gather newKey (gather newKey there first) second := List.foldl_append

theorem settle_get (g : GraphInner) (newKey : RelationKey) (record : RelationRecord) (k : RelationKey) :
    get (settle g newKey record).2.relations k =
      if k = newKey then some (merged newKey (get g.relations newKey) record) else get g.relations k := by
  unfold settle
  cases there : get g.relations newKey with
  | some existing => simp [merged]
  | none =>
    simp only [place]
    split <;> simp [merged]

def claimedBy (there : Option RelationRecord) : Set String := {c | ∃ record,there = some record ∧ c ∈ record.claimants}

theorem unionClaims_claimants (existing moving : List RelationClaim) (c : String) :
    c ∈ (unionClaims existing moving).1.map RelationClaim.claimant ↔
      c ∈ existing.map RelationClaim.claimant ∨ c ∈ moving.map RelationClaim.claimant := by
  induction moving generalizing existing with
  | nil => simp [unionClaims]
  | cons claim rest ih =>
    rw [unionClaims]
    split
    · rename_i known
      have member : claim.claimant ∈ existing.map RelationClaim.claimant := by simpa using known
      rw [ih,List.map_cons,List.mem_cons]
      constructor
      · rintro (old | moved)
        · exact .inl old
        · exact .inr (.inr moved)
      · rintro (old | rfl | moved)
        · exact .inl old
        · exact .inl member
        · exact .inr moved
    · rw [ih]
      simp only [List.map_append,List.map_cons,List.map_nil,List.mem_append,List.mem_cons,List.not_mem_nil,or_false,or_assoc]

theorem merged_claimants (c : String) : c ∈ (merged newKey there record).claimants ↔ c ∈ claimedBy there ∨ c ∈ record.claimants := by
  cases there with
  | none => simp [merged,claimedBy,RelationRecord.claimants]
  | some existing =>
    refine (unionClaims_claimants existing.claims record.claims c).trans ?_
    simp [claimedBy,RelationRecord.claimants]

theorem gather_claimants (c : String) : c ∈ claimedBy (gather newKey there records) ↔
    c ∈ claimedBy there ∨ ∃ record ∈ records,c ∈ record.claimants := by
  induction records generalizing there with
  | nil => simp
  | cons record rest ih =>
    have first : c ∈ claimedBy (some (merged newKey there record)) ↔ c ∈ claimedBy there ∨ c ∈ record.claimants := by
      have both : c ∈ (merged newKey there record).claimants ↔ c ∈ claimedBy there ∨ c ∈ record.claimants := merged_claimants c
      rw [← both]
      simp [claimedBy]
    rw [gather_cons,ih,first,List.exists_mem_cons_iff,or_assoc]

theorem gather_suppression : (gather newKey there records).map (·.suppression) = (there.or records.head?).map (·.suppression) := by
  induction records generalizing there with
  | nil => simp
  | cons record rest ih =>
    rw [gather_cons,ih]
    cases there <;> simp [merged]

theorem gather_present : (∃ record,gather newKey there records = some record) ↔ (∃ record,there = some record) ∨ records ≠ [] := by
  have same : (gather newKey there records).map (·.suppression) = (there.or records.head?).map (·.suppression) := gather_suppression
  have shapes := congrArg Option.isSome same
  simp only [Option.isSome_map] at shapes
  rw [← Option.isSome_iff_exists,shapes,← Option.isSome_iff_exists]
  cases there <;> cases records <;> simp

theorem settles_get (keys : List RelationKey) (g : GraphInner) (record : RelationRecord) (k : RelationKey) :
    get (keys.foldl (fun g newKey => (settle g newKey record).2) g).relations k =
      gather k (get g.relations k) ((keys.filter (· = k)).map fun _ => record) := by
  induction keys generalizing g with
  | nil => rfl
  | cons newKey rest ih =>
    rw [List.foldl_cons,ih,settle_get]
    by_cases same : k = newKey
    · subst same
      simp
    · simp [same,Ne.symm same]

def moveAll (targets : RelationKey → List RelationKey) : GraphInner → List RelationKey → GraphInner
  | g,[] => g
  | g,key::rest =>
    match get g.relations key with
    | none => g
    | some record => moveAll targets ((targets key).foldl (fun g newKey => (settle g newKey record).2) (removeRelation g key)) rest

def arrivals (targets : RelationKey → List RelationKey) (g : GraphInner) (keys : List RelationKey) (k : RelationKey) : List RelationRecord :=
  keys.flatMap fun key => ((targets key).filter (· = k)).filterMap fun _ => get g.relations key

theorem moveAll_get (distinct : keys.Nodup) (pending : ∀ key ∈ keys,Present g key)
    (apart : ∀ key ∈ keys,∀ other ∈ keys,key ∉ targets other) (k : RelationKey) :
    get (moveAll targets g keys).relations k =
      if k ∈ keys then none else gather k (get g.relations k) (arrivals targets g keys k) := by
  induction keys generalizing g with
  | nil => rfl
  | cons key rest ih =>
    obtain ⟨outside,others⟩ := List.nodup_cons.mp distinct
    obtain ⟨record,there⟩ := pending key List.mem_cons_self
    obtain ⟨next,shape⟩ : ∃ next,next = (targets key).foldl (fun g newKey => (settle g newKey record).2) (removeRelation g key) := ⟨_,rfl⟩
    have after : ∀ k,get next.relations k =
        gather k (if k = key then none else get g.relations k) (((targets key).filter (· = k)).map fun _ => record) := by
      intro k
      rw [shape,settles_get,relations_removeRelation,get_erase]
    -- A key that is not meant for anything is as it was.
    have aside : ∀ k ∈ key::rest,(targets key).filter (· = k) = [] := by
      intro k member
      refine List.filter_eq_nil_iff.mpr fun newKey inside same => ?_
      rw [decide_eq_true_eq] at same
      exact apart k member key List.mem_cons_self (same ▸ inside)
    have kept : ∀ other ∈ rest,get next.relations other = get g.relations other := by
      intro other member
      have different : other ≠ key := fun same => outside (same ▸ member)
      rw [after,aside other (List.mem_cons_of_mem _ member),if_neg different]
      rfl
    have same : ∀ k,arrivals targets next rest k = arrivals targets g rest k := by
      intro k
      refine List.flatMap_congr fun other member => ?_
      rw [kept other member]
    have still : ∀ other ∈ rest,Present next other := by
      intro other member
      rw [Present,kept other member]
      exact pending other (List.mem_cons_of_mem _ member)
    have step := ih others still fun a inside b among =>
      apart a (List.mem_cons_of_mem _ inside) b (List.mem_cons_of_mem _ among)
    simp only [moveAll,there]
    rw [← shape,step,same,after]
    by_cases own : k = key
    · subst own
      have none_ : arrivals targets g rest k = [] := by
        refine List.flatMap_eq_nil_iff.mpr fun other member => ?_
        have empty : (targets other).filter (· = k) = [] := by
          refine List.filter_eq_nil_iff.mpr fun newKey inside equal => ?_
          rw [decide_eq_true_eq] at equal
          exact apart k List.mem_cons_self other (List.mem_cons_of_mem _ member) (equal ▸ inside)
        rw [empty]
        rfl
      rw [if_neg outside,if_pos rfl,if_pos List.mem_cons_self,none_,aside k List.mem_cons_self]
      rfl
    · have lists : arrivals targets g (key::rest) k =
          (((targets key).filter (· = k)).map fun _ => record) ++ arrivals targets g rest k := by
        simp only [arrivals,List.flatMap_cons,there,List.filterMap_eq_map']
      simp only [own,if_false,List.mem_cons,false_or,lists,gather_append]

variable {iteration : Iteration} {subjectId : String}

theorem mem_arrivals : record ∈ arrivals targets g (touching g iteration subjectId) k ↔
    ∃ key : RelationKey,key.touches subjectId = true ∧ k ∈ targets key ∧ get g.relations key = some record := by
  simp only [arrivals,List.mem_flatMap,mem_touching]
  constructor
  · rintro ⟨key,⟨_,touches⟩,member⟩
    obtain ⟨newKey,inside,there⟩ := List.mem_filterMap.mp member
    obtain ⟨meant,same⟩ := List.mem_filter.mp inside
    rw [decide_eq_true_eq] at same
    exact ⟨key,touches,same ▸ meant,there⟩
  · rintro ⟨key,touches,meant,there⟩
    exact ⟨key,⟨⟨record,there⟩,touches⟩,List.mem_filterMap.mpr ⟨k,List.mem_filter.mpr ⟨meant,decide_eq_true rfl⟩,there⟩⟩

theorem touching_moved (clean : ∀ key k,k ∈ targets key → k.touches subjectId = false) (k : RelationKey) :
    get (moveAll targets g (touching g iteration subjectId)).relations k = if k.touches subjectId then none else
      gather k (get g.relations k) (arrivals targets g (touching g iteration subjectId) k) := by
  have pending : ∀ key ∈ touching g iteration subjectId,Present g key := fun key member => ((mem_touching iteration).mp member).1
  have apart : ∀ key ∈ touching g iteration subjectId,∀ other ∈ touching g iteration subjectId,key ∉ targets other := by
    intro key member other _ inside
    have touches := ((mem_touching iteration).mp member).2
    rw [clean other key inside] at touches
    cases touches
  rw [moveAll_get (touching_nodup iteration) pending apart]
  by_cases touches : k.touches subjectId = true
  · rw [if_pos touches]
    split
    · rfl
    · rename_i absent
      have missing : get g.relations k = none := by
        by_contra present
        obtain ⟨record,there⟩ := Option.ne_none_iff_exists'.mp present
        exact absent ((mem_touching iteration).mpr ⟨⟨record,there⟩,touches⟩)
      have nobody : arrivals targets g (touching g iteration subjectId) k = [] := by
        refine List.eq_nil_iff_forall_not_mem.mpr fun record member => ?_
        obtain ⟨key,_,meant,_⟩ := mem_arrivals.mp member
        rw [clean key k meant] at touches
        cases touches
      rw [missing,nobody]
      rfl
  · have outside : k ∉ touching g iteration subjectId := fun member => touches ((mem_touching iteration).mp member).2
    rw [if_neg outside,if_neg touches]

end EvoCore.RelationMoves
