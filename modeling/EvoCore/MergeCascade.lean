import EvoCore.RelationMoves

namespace EvoCore.MergeCascade
open Tables Runs RelationGraph GraphIndex RelationMoves
open SubjectRegistry (Reply)

variable {g : GraphInner} {iteration : Iteration} {oldId newId : String} {key k : RelationKey} {record : RelationRecord}
  {there other : Option RelationRecord} {keys : List RelationKey}

-- What a merge owes the relations: over the graphs before and after.
structure Merged (before after : GraphInner) (oldId newId : String) : Prop where
  gone : ∀ key,Present after key → key.touches oldId = false
  keys : ∀ key,Present after key ↔ ∃ old,Present before old ∧ old.substitute oldId newId = key
  claimants : ∀ key,claimedBy (get after.relations key) =
    {c | ∃ old,old.substitute oldId newId = key ∧ c ∈ claimedBy (get before.relations old)}
  others : ∀ key,key.touches oldId = false → (∀ old,Present before old → old.touches oldId = true → old.substitute oldId newId ≠ key) →
    get after.relations key = get before.relations key

-- The claimants of each relation and whether it is suppressed.
def seenOf (there : Option RelationRecord) : Option (Set String × Bool) :=
  there.map fun record => ({c | c ∈ record.claimants},record.suppression.isSome)

def seen (g : GraphInner) (key : RelationKey) : Option (Set String × Bool) := seenOf (get g.relations key)

-- Relations that come to a key nothing is at are all suppressed or none of them is.
def Agreed (g : GraphInner) (oldId newId : String) : Prop :=
  ∀ (first second : RelationKey) (one two : RelationRecord),first.touches oldId = true → second.touches oldId = true →
    get g.relations first = some one → get g.relations second = some two →
    first.substitute oldId newId = second.substitute oldId newId → ¬ Present g (first.substitute oldId newId) →
    one.suppression.isSome = two.suppression.isSome

theorem touches_false : key.touches oldId = false ↔ key.sourceId ≠ oldId ∧ key.targetId ≠ oldId := by
  simp [RelationKey.touches]

theorem substitute_clean (apart : oldId ≠ newId) (key : RelationKey) : (key.substitute oldId newId).touches oldId = false := by
  rw [touches_false]
  simp only [RelationKey.substitute]
  constructor
  · split
    · exact Ne.symm apart
    · assumption
  · split
    · exact Ne.symm apart
    · assumption

theorem substitute_other (aside : key.touches oldId = false) : key.substitute oldId newId = key := by
  obtain ⟨source,target⟩ := touches_false.mp aside
  simp [RelationKey.substitute,source,target]

def goes (oldId newId : String) (key : RelationKey) : List RelationKey := [key.substitute oldId newId]

theorem rewriteEdges_moves (outcome : RewriteSubjectOutcome) :
    (rewriteEdges oldId newId g keys outcome).2 = moveAll (goes oldId newId) g keys := by
  induction keys generalizing g outcome with
  | nil => rfl
  | cons oldKey rest ih =>
    simp only [rewriteEdges,moveAll]
    cases get g.relations oldKey with
    | none => rfl
    | some record => exact ih _

theorem rewriteEdges_done (outcome : RewriteSubjectOutcome) (distinct : keys.Nodup) (pending : ∀ key ∈ keys,Present g key) :
    ∃ result,(rewriteEdges oldId newId g keys outcome).1 = some result := by
  induction keys generalizing g outcome with
  | nil => exact ⟨outcome,rfl⟩
  | cons oldKey rest ih =>
    obtain ⟨outside,others⟩ := List.nodup_cons.mp distinct
    obtain ⟨record,there⟩ := pending oldKey List.mem_cons_self
    simp only [rewriteEdges,there]
    refine ih _ others fun k member => ?_
    rw [settle_present]
    exact .inr (removed_present (fun same => outside (same ▸ member)) (pending k (List.mem_cons_of_mem _ member)))

theorem mem_coming : record ∈ arrivals (goes oldId newId) g (touching g iteration oldId) k ↔
    ∃ key : RelationKey,key.touches oldId = true ∧ key.substitute oldId newId = k ∧ get g.relations key = some record := by
  simp only [mem_arrivals,goes,List.mem_singleton,eq_comm]

theorem rewrite_get (hold : oldId ≠ "") (hnew : newId ≠ "") (apart : oldId ≠ newId) (k : RelationKey) :
    get (rewriteSubjectTo g iteration oldId newId).2.relations k = if k.touches oldId then none else
      gather k (get g.relations k) (arrivals (goes oldId newId) g (touching g iteration oldId) k) := by
  have after : (rewriteSubjectTo g iteration oldId newId).2 = moveAll (goes oldId newId) g (touching g iteration oldId) := by
    rw [← rewriteEdges_moves ⟨[],[],[]⟩,rewriteSubjectTo]
    simp only [hold,hnew,apart,or_self,if_false]
    split <;> rename_i shape <;> rw [shape]
  rw [after]
  refine touching_moved (fun key k meant => ?_) k
  rw [goes,List.mem_singleton] at meant
  rw [meant]
  exact substitute_clean apart key

theorem rewrite_replies (hold : oldId ≠ "") (hnew : newId ≠ "") (apart : oldId ≠ newId) :
    ∃ outcome,(rewriteSubjectTo g iteration oldId newId).1 = .ok outcome := by
  obtain ⟨result,done⟩ := @rewriteEdges_done g oldId newId (touching g iteration oldId) ⟨[],[],[]⟩ (touching_nodup iteration)
    fun key member => ((mem_touching iteration).mp member).1
  refine ⟨result,?_⟩
  simp only [rewriteSubjectTo,hold,hnew,apart,or_self,if_false]
  split <;> rename_i shape <;> rw [shape] at done <;> cases done
  rfl

theorem rewrite_merged (hold : oldId ≠ "") (hnew : newId ≠ "") (apart : oldId ≠ newId) :
    Merged g (rewriteSubjectTo g iteration oldId newId).2 oldId newId := by
  have present : ∀ key,Present (rewriteSubjectTo g iteration oldId newId).2 key ↔
      ∃ old,Present g old ∧ old.substitute oldId newId = key := by
    intro key
    rw [Present,rewrite_get hold hnew apart]
    by_cases touches : key.touches oldId = true
    · simp only [touches,if_true,reduceCtorEq,exists_false,false_iff,not_exists,not_and]
      intro old _ goes_
      rw [← goes_,substitute_clean apart] at touches
      cases touches
    · rw [if_neg touches,gather_present]
      rw [Bool.not_eq_true] at touches
      constructor
      · rintro (old | some_)
        · exact ⟨key,old,substitute_other touches⟩
        · obtain ⟨record,member⟩ := List.exists_mem_of_ne_nil _ some_
          obtain ⟨old,_,goes_,there⟩ := mem_coming.mp member
          exact ⟨old,⟨record,there⟩,goes_⟩
      · rintro ⟨old,⟨record,there⟩,goes_⟩
        by_cases moving : old.touches oldId = true
        · exact .inr (List.ne_nil_of_mem (mem_coming.mpr ⟨old,moving,goes_,there⟩))
        · rw [Bool.not_eq_true] at moving
          rw [substitute_other moving] at goes_
          exact .inl ⟨record,goes_ ▸ there⟩
  refine ⟨?_,present,?_,?_⟩
  · intro key there
    obtain ⟨old,_,goes_⟩ := (present key).mp there
    exact goes_ ▸ substitute_clean apart old
  · intro key
    ext c
    rw [rewrite_get hold hnew apart,Set.mem_ofPred_eq]
    by_cases touches : key.touches oldId = true
    · rw [if_pos touches]
      refine iff_of_false (fun member => ?_) ?_
      · obtain ⟨record,none_,_⟩ := member
        cases none_
      · rintro ⟨old,goes_,_⟩
        rw [← goes_,substitute_clean apart] at touches
        cases touches
    · rw [if_neg touches,gather_claimants]
      rw [Bool.not_eq_true] at touches
      constructor
      · rintro (old | ⟨record,member,claimed⟩)
        · exact ⟨key,substitute_other touches,old⟩
        · obtain ⟨old,_,goes_,there⟩ := mem_coming.mp member
          exact ⟨old,goes_,record,there,claimed⟩
      · rintro ⟨old,goes_,record,there,claimed⟩
        by_cases moving : old.touches oldId = true
        · exact .inr ⟨record,mem_coming.mpr ⟨old,moving,goes_,there⟩,claimed⟩
        · rw [Bool.not_eq_true] at moving
          rw [substitute_other moving] at goes_
          exact .inl ⟨record,goes_ ▸ there,claimed⟩
  · intro key aside target
    have nobody : arrivals (goes oldId newId) g (touching g iteration oldId) key = [] := by
      refine List.eq_nil_iff_forall_not_mem.mpr fun record member => ?_
      obtain ⟨old,touches,goes_,there⟩ := mem_coming.mp member
      exact target old ⟨record,there⟩ touches goes_
    rw [rewrite_get hold hnew apart,aside,nobody]
    rfl

theorem seen_same : seenOf there = seenOf other ↔
    claimedBy there = claimedBy other ∧ there.map (·.suppression.isSome) = other.map (·.suppression.isSome) := by
  have claimed : ∀ record : RelationRecord,claimedBy (some record) = {c | c ∈ record.claimants} := by
    intro record
    ext c
    simp [claimedBy]
  cases there <;> cases other <;> simp [seenOf,claimed]

-- What decides whether a key is suppressed: the record that is there, else the first that comes.
theorem gather_hidden (newKey : RelationKey) (records : List RelationRecord) :
    (gather newKey there records).map (·.suppression.isSome) = (there.or records.head?).map (·.suppression.isSome) := by
  have same : (gather newKey there records).map (·.suppression) = (there.or records.head?).map (·.suppression) := gather_suppression
  have shapes := congrArg (Option.map Option.isSome) same
  rw [Option.map_map,Option.map_map] at shapes
  exact shapes

-- The iteration that visits one key first.
def firstly (key : RelationKey) : Iteration where
  order keys := if key ∈ keys then key::keys.erase key else keys
  complete keys := by
    split
    · rename_i member
      exact (List.perm_cons_erase member).symm
    · exact .refl _

theorem firstly_arrival (touches : key.touches oldId = true) (there : get g.relations key = some record) :
    (arrivals (goes oldId newId) g (touching g (firstly key) oldId) (key.substitute oldId newId)).head? = some record := by
  have member : key ∈ g.relations.keys := (mem_keys _).mpr ⟨record,there⟩
  simp [touching,firstly,member,touches,arrivals,goes,there]

theorem rewrite_seen (hold : oldId ≠ "") (hnew : newId ≠ "") (apart : oldId ≠ newId) (agreed : Agreed g oldId newId)
    (iteration_ : Iteration) : seen (rewriteSubjectTo g iteration oldId newId).2 = seen (rewriteSubjectTo g iteration_ oldId newId).2 := by
  funext key
  rw [seen,seen,seen_same,(rewrite_merged hold hnew apart).claimants,(rewrite_merged hold hnew apart).claimants]
  refine ⟨rfl,?_⟩
  rw [rewrite_get hold hnew apart,rewrite_get hold hnew apart]
  split
  · rfl
  · rw [gather_hidden,gather_hidden]
    cases there : get g.relations key with
    | some existing => rfl
    | none =>
      have members : ∀ record,record ∈ arrivals (goes oldId newId) g (touching g iteration oldId) key ↔
          record ∈ arrivals (goes oldId newId) g (touching g iteration_ oldId) key := by
        intro record
        rw [mem_coming,mem_coming]
      cases one : arrivals (goes oldId newId) g (touching g iteration oldId) key with
      | nil =>
        cases two : arrivals (goes oldId newId) g (touching g iteration_ oldId) key with
        | nil => rfl
        | cons second more =>
          have inside := (members second).mpr (by rw [two]; exact List.mem_cons_self)
          rw [one] at inside
          cases inside
      | cons first rest =>
        cases two : arrivals (goes oldId newId) g (touching g iteration_ oldId) key with
        | nil =>
          have inside := (members first).mp (by rw [one]; exact List.mem_cons_self)
          rw [two] at inside
          cases inside
        | cons second more =>
          obtain ⟨a,touchesA,goesA,thereA⟩ := mem_coming.mp (one ▸ List.mem_cons_self : first ∈ _)
          obtain ⟨b,touchesB,goesB,thereB⟩ := mem_coming.mp (two ▸ List.mem_cons_self : second ∈ _)
          have absent : ¬ Present g (a.substitute oldId newId) := by
            rw [goesA]
            rintro ⟨record,found⟩
            rw [there] at found
            cases found
          have flags := agreed a b first second touchesA touchesB thereA thereB (goesA.trans goesB.symm) absent
          simp [flags]

theorem agreed_seen (hold : oldId ≠ "") (hnew : newId ≠ "") (apart : oldId ≠ newId)
    (same : ∀ iteration iteration_,seen (rewriteSubjectTo g iteration oldId newId).2 = seen (rewriteSubjectTo g iteration_ oldId newId).2) :
    Agreed g oldId newId := by
  intro first second one two touchesOne touchesTwo thereOne thereTwo goes_ absent
  have missing : get g.relations (first.substitute oldId newId) = none := by
    by_contra present
    exact absent (Option.ne_none_iff_exists'.mp present)
  have flag : ∀ {key : RelationKey} {record : RelationRecord},key.touches oldId = true → get g.relations key = some record →
      key.substitute oldId newId = first.substitute oldId newId →
      (get (rewriteSubjectTo g (firstly key) oldId newId).2.relations (first.substitute oldId newId)).map (·.suppression.isSome) =
        some record.suppression.isSome := by
    intro key record touches there same
    rw [rewrite_get hold hnew apart,substitute_clean apart,if_neg Bool.false_ne_true,gather_hidden,missing,← same,
      firstly_arrival touches there]
    rfl
  have equal := congrFun (same (firstly first) (firstly second)) (first.substitute oldId newId)
  rw [seen,seen,seen_same] at equal
  have flags := equal.2
  rw [flag touchesOne thereOne rfl,flag touchesTwo thereTwo goes_.symm] at flags
  exact Option.some.inj flags

theorem merge_cascade (hold : oldId ≠ "") (hnew : newId ≠ "") (apart : oldId ≠ newId) :
    (∀ iteration,(∃ outcome,(rewriteSubjectTo g iteration oldId newId).1 = .ok outcome) ∧
      Merged g (rewriteSubjectTo g iteration oldId newId).2 oldId newId) ∧
    ((∀ iteration iteration_,seen (rewriteSubjectTo g iteration oldId newId).2 = seen (rewriteSubjectTo g iteration_ oldId newId).2) ↔
      Agreed g oldId newId) :=
  ⟨fun _ => ⟨rewrite_replies hold hnew apart,rewrite_merged hold hnew apart⟩,agreed_seen hold hnew apart,
    fun agreed _ iteration_ => rewrite_seen hold hnew apart agreed iteration_⟩

def duplicates : GraphInner := (run step .new [.assert "a" "album" "x" "mpd" none,.assert "b" "album" "x" "nas" none]).inner

theorem duplicates_merged : Merged duplicates (rewriteSubjectTo duplicates .listed "a" "b").2 "a" "b" :=
  ((merge_cascade (by decide) (by decide) (by decide)).1 .listed).2

-- A suppressed edge of the old subject to itself and a visible one to the new subject.
def selfEdges : List Call := [.assert "a" "links" "a" "mpd" none,.assert "a" "links" "b" "nas" none,.suppress "a" "links" "a" "admin" none 0]

theorem order_shows : ¬ ∀ (calls : List Call) (oldId newId : String),oldId ≠ "" → newId ≠ "" → oldId ≠ newId →
    ∀ iteration iteration_,seen (rewriteSubjectTo (run step .new calls).inner iteration oldId newId).2 =
      seen (rewriteSubjectTo (run step .new calls).inner iteration_ oldId newId).2 := by
  intro always
  have same := congrFun (always selfEdges "a" "b" (by decide) (by decide) (by decide) (firstly ⟨"a","links","a"⟩)
    (firstly ⟨"a","links","b"⟩)) ⟨"b","links","b"⟩
  rw [seen,seen,seen_same] at same
  have flags := same.2
  revert flags
  decide

end EvoCore.MergeCascade
