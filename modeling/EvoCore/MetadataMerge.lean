import EvoCore.MetadataChain
import EvoCore.UnionFind

namespace EvoCore.Metadata
open UnionFind (merged_same)

-- The orders in which the two hash maps of a merge give out what they hold.
structure MapOrders where
  byValue : List (List Nat) → List (List Nat)
  byRoot : List (List Nat) → List (List Nat)
  byValue_perm : ∀ lists,(byValue lists).Perm lists
  byRoot_perm : ∀ lists,(byRoot lists).Perm lists

def MapOrders.plain : MapOrders := ⟨id,id,fun _ => .refl _,fun _ => .refl _⟩

def flattened (perProvider : List (String × List ProviderItem)) : List (String × ProviderItem) :=
  perProvider.flatMap fun entry => entry.2.map fun item => (entry.1,item)

def byValue (all : List (String × ProviderItem)) (key : String) : List (List Nat) :=
  (all.filterMap fun entry => entry.2.joinKey key).dedup.map (sharing all key)

-- windows(2) of the indices that carry one value.
def unions (maps : MapOrders) (all : List (String × ProviderItem)) (joinKeys : List String) : List (Nat × Nat) :=
  joinKeys.flatMap fun key => (maps.byValue (byValue all key)).flatMap fun indices => indices.zip indices.tail

def rootsOf (maps : MapOrders) (all : List (String × ProviderItem)) (joinKeys : List String) : List Nat :=
  UnionFind.roots ((unions maps all joinKeys).foldl UnionFind.unite (List.range all.length)) (List.range all.length)

-- merge_by_join_keys over the parent pointers, whatever order the maps have.
def mergeByRoots (maps : MapOrders) (config : ChainConfig) (perProvider : List (String × List ProviderItem))
    (joinKeys order : List String) : List MergedItem :=
  let all := flattened perProvider
  let groups := (maps.byRoot (groupsOf (rootsOf maps all joinKeys))).insertionSort fun a b => groupBefore all order a b
  groups.map fun group => mergeGroup config joinKeys order (group.filterMap fun i => all[i]?)

def valueAt (all : List (String × ProviderItem)) (key : String) (i : Nat) : Option String :=
  all[i]?.bind fun entry => entry.2.joinKey key

def Shares (all : List (String × ProviderItem)) (joinKeys : List String) (i j : Nat) : Prop :=
  ∃ key ∈ joinKeys,∃ value,valueAt all key i = some value ∧ valueAt all key j = some value

def Connected (all : List (String × ProviderItem)) (joinKeys : List String) : Nat → Nat → Prop :=
  Relation.EqvGen (Shares all joinKeys)

variable {all : List (String × ProviderItem)} {joinKeys order : List String} {maps : MapOrders} {key value : String}
  {i j n : Nat} {root : Nat → Nat} {pairs : List (Nat × Nat)} {indices group : List Nat} {config : ChainConfig}
  {perProvider others : List (String × List ProviderItem)} {members : List (String × ProviderItem)}
  {field current candidate provider : String}

theorem mem_sharing : i ∈ sharing all key value ↔ i < all.length ∧ valueAt all key i = some value := by
  simp [sharing,valueAt]

theorem mem_byValue : indices ∈ byValue all key ↔ ∃ entry ∈ all,∃ value,entry.2.joinKey key = some value ∧ indices = sharing all key value := by
  simp only [byValue,List.mem_map,List.mem_dedup,List.mem_filterMap]
  constructor
  · intro found
    obtain ⟨value,⟨entry,member,at_⟩,rfl⟩ := found
    exact ⟨entry,member,value,at_,rfl⟩
  · intro found
    obtain ⟨entry,member,value,at_,rfl⟩ := found
    exact ⟨value,⟨entry,member,at_⟩,rfl⟩

theorem chain_joined {first : Nat} (member : j ∈ first::indices) (inside : (first::indices).zip indices ⊆ pairs) : UnionFind.Joined pairs first j := by
  induction indices generalizing first with
  | nil =>
    rw [List.mem_singleton.mp member]
    exact .refl _
  | cons next rest ih =>
    rw [List.zip_cons_cons] at inside
    rcases List.mem_cons.mp member with rfl | later
    · exact .refl _
    · exact .trans _ _ _ (.rel _ _ (inside List.mem_cons_self)) (ih later fun p more => inside (List.mem_cons_of_mem _ more))

theorem windows_joined (inI : i ∈ indices) (inJ : j ∈ indices) (inside : indices.zip indices.tail ⊆ pairs) : UnionFind.Joined pairs i j := by
  cases indices with
  | nil => cases inI
  | cons first rest => exact .trans _ _ _ (.symm _ _ (chain_joined inI inside)) (chain_joined inJ inside)

theorem mem_unions : (i,j) ∈ unions maps all joinKeys ↔
    ∃ key ∈ joinKeys,∃ indices ∈ byValue all key,(i,j) ∈ indices.zip indices.tail := by
  simp only [unions,List.mem_flatMap,(maps.byValue_perm _).mem_iff]

-- The windows join what the join keys join, in whatever order they come.
theorem joined_unions : UnionFind.Joined (unions maps all joinKeys) i j ↔ Connected all joinKeys i j := by
  constructor
  · refine Relation.EqvGen.mono (fun a b member => ?_) i j
    obtain ⟨key,inKeys,indices,inMap,pair⟩ := mem_unions.mp member
    obtain ⟨entry,_,value,_,rfl⟩ := mem_byValue.mp inMap
    obtain ⟨inA,inB⟩ := List.of_mem_zip pair
    exact ⟨key,inKeys,value,(mem_sharing.mp inA).2,(mem_sharing.mp (List.mem_of_mem_tail inB)).2⟩
  · intro connected
    induction connected with
    | rel a b shares =>
      obtain ⟨key,inKeys,value,atA,atB⟩ := shares
      obtain ⟨entry,there,carried⟩ := Option.bind_eq_some_iff.mp atA
      have bound : ∀ k,valueAt all key k = some value → k ∈ sharing all key value := by
        intro k atK
        obtain ⟨other,present,_⟩ := Option.bind_eq_some_iff.mp atK
        exact mem_sharing.mpr ⟨(List.getElem?_eq_some_iff.mp present).1,atK⟩
      refine windows_joined (bound a atA) (bound b atB) fun pair member => ?_
      exact mem_unions.mpr ⟨key,inKeys,_,mem_byValue.mpr ⟨entry,List.mem_of_getElem? there,value,carried,rfl⟩,member⟩
    | refl a => exact .refl _
    | symm a b _ ih => exact .symm _ _ ih
    | trans a b c _ _ one two => exact .trans _ _ _ one two

theorem unions_within : ∀ pair ∈ unions maps all joinKeys,pair.1 < all.length ∧ pair.2 < all.length := by
  intro pair member
  obtain ⟨key,_,indices,inMap,window⟩ := mem_unions.mp member
  obtain ⟨entry,_,value,_,rfl⟩ := mem_byValue.mp inMap
  obtain ⟨first,second⟩ := List.of_mem_zip window
  exact ⟨(mem_sharing.mp first).1,(mem_sharing.mp (List.mem_of_mem_tail second)).1⟩

-- Indices under labels that tell the components apart.
def Labelled (all : List (String × ProviderItem)) (joinKeys : List String) (labels : List Nat) : Prop :=
  ∃ root : Nat → Nat,labels = (List.range all.length).map root ∧ ∀ i j,root i = root j ↔ Connected all joinKeys i j

theorem rootsOf_labelled : Labelled all joinKeys (rootsOf maps all joinKeys) := by
  obtain ⟨root,height,forest,length,same⟩ := UnionFind.united_spec all.length (unions maps all joinKeys) unions_within
  refine ⟨root,UnionFind.roots_spec forest fun i member => ?_,fun i j => (same i j).trans joined_unions⟩
  rw [length]
  exact List.mem_range.mp member

theorem relabelled_spec (n : Nat) (pairs : List (Nat × Nat)) (within : ∀ pair ∈ pairs,pair.1 < n ∧ pair.2 < n) :
    ∃ root : Nat → Nat,pairs.foldl unite (List.range n) = (List.range n).map root ∧ ∀ i j,root i = root j ↔ UnionFind.Joined pairs i j := by
  induction pairs using List.reverseRecOn with
  | nil => exact ⟨id,by simp,fun i j => UnionFind.joined_nil.symm⟩
  | append_singleton before pair ih =>
    obtain ⟨root,labels,same⟩ := ih fun p member => within p (List.mem_append_left _ member)
    obtain ⟨first,second⟩ := within pair (by simp)
    refine ⟨UnionFind.merged root (root pair.1) (root pair.2),?_,fun i j => ?_⟩
    · rw [List.foldl_append,List.foldl_cons,List.foldl_nil,labels]
      simp only [unite,List.getElem?_map,List.getElem?_range first,List.getElem?_range second,Option.map_some,List.map_map]
      rfl
    · rw [merged_same,UnionFind.joined_snoc,same,same,same,same,same]

theorem unitedLabels_labelled : Labelled all joinKeys (unitedLabels all joinKeys) := by
  have plain : joinKeys.flatMap (neighbours all) = unions .plain all joinKeys := by
    simp only [unions,MapOrders.plain,byValue,id_eq,List.flatMap_map]
    rfl
  obtain ⟨root,labels,same⟩ := relabelled_spec all.length (unions .plain all joinKeys) unions_within
  refine ⟨root,?_,fun i j => (same i j).trans joined_unions⟩
  rw [unitedLabels,plain,labels]

noncomputable def component (all : List (String × ProviderItem)) (joinKeys : List String) (i : Nat) : List Nat := by
  classical exact (List.range all.length).filter fun j => Connected all joinKeys i j

theorem mem_component : j ∈ component all joinKeys i ↔ j < all.length ∧ Connected all joinKeys i j := by
  simp [component]

theorem groupsOf_labelled {labels : List Nat} (labelled : Labelled all joinKeys labels) :
    (groupsOf labels).Nodup ∧ ∀ group,group ∈ groupsOf labels ↔ ∃ i < all.length,group = component all joinKeys i := by
  obtain ⟨root,rfl,same⟩ := labelled
  have group_ : ∀ i,((List.range ((List.range all.length).map root).length).filter fun k =>
      ((List.range all.length).map root)[k]? == some (root i)) = component all joinKeys i := by
    intro i
    rw [component,List.length_map,List.length_range]
    refine List.filter_congr fun k member => ?_
    rw [List.getElem?_map,List.getElem?_range (List.mem_range.mp member)]
    rw [Option.map_some,Bool.eq_iff_iff]
    simp only [beq_iff_eq,Option.some.injEq,decide_eq_true_eq]
    rw [eq_comm,same]
  constructor
  · rw [groupsOf]
    refine List.Nodup.map_on ?_ (List.nodup_dedup _)
    intro a inA b inB equal
    obtain ⟨i,inI,rfl⟩ := List.mem_map.mp (List.mem_dedup.mp inA)
    obtain ⟨j,inJ,rfl⟩ := List.mem_map.mp (List.mem_dedup.mp inB)
    rw [group_,group_] at equal
    have itself : j ∈ component all joinKeys j := mem_component.mpr ⟨List.mem_range.mp inJ,.refl _⟩
    rw [← equal] at itself
    exact (same i j).mpr (mem_component.mp itself).2
  · intro group
    simp only [groupsOf,List.mem_map,List.mem_dedup]
    constructor
    · intro found
      obtain ⟨_,⟨i,inI,rfl⟩,rfl⟩ := found
      exact ⟨i,List.mem_range.mp inI,group_ i⟩
    · intro found
      obtain ⟨i,bound,rfl⟩ := found
      exact ⟨root i,⟨i,List.mem_range.mpr bound,rfl⟩,group_ i⟩

theorem lexLe_iff (a b : List Nat) : lexLe a b = true ↔ a ≤ b := by
  rw [← not_lt]
  induction a generalizing b with
  | nil => simp [lexLe]
  | cons x xs ih =>
    cases b with
    | nil => simp [lexLe]
    | cons y ys =>
      simp only [lexLe,Bool.or_eq_true,decide_eq_true_eq,Bool.and_eq_true,beq_iff_eq,ih,List.cons_lt_cons_iff]
      rcases Nat.lt_trichotomy x y with less | equal | more
      · simp [less,less.ne',less.not_gt]
      · simp [equal]
      · simp [more,more.ne',more.not_gt]

-- Where a group is put: its first provider in registration, then its indices.
def place (all : List (String × ProviderItem)) (order : List String) (group : List Nat) : Nat ×ₗ List Nat :=
  toLex (earliest all order group,group)

theorem groupBefore_iff {a b : List Nat} : groupBefore all order a b = true ↔ place all order a ≤ place all order b := by
  simp [groupBefore,place,Prod.Lex.toLex_le_toLex,lexLe_iff]

theorem place_inj {a b : List Nat} (same : place all order a = place all order b) : a = b :=
  congrArg (fun placed => (ofLex placed).2) same

instance groupBefore_total : Std.Total fun a b => groupBefore all order a b = true :=
  ⟨fun a b => by simp only [groupBefore_iff]; exact le_total _ _⟩

instance groupBefore_trans : IsTrans (List Nat) fun a b => groupBefore all order a b = true :=
  ⟨fun a b c one two => by rw [groupBefore_iff] at one two ⊢; exact one.trans two⟩

instance groupBefore_antisymm : Std.Antisymm fun a b => groupBefore all order a b = true :=
  ⟨fun a b one two => by rw [groupBefore_iff] at one two; exact place_inj (one.antisymm two)⟩

def arranged (maps : MapOrders) (all : List (String × ProviderItem)) (joinKeys order : List String) : List (List Nat) :=
  (maps.byRoot (groupsOf (rootsOf maps all joinKeys))).insertionSort fun a b => groupBefore all order a b

-- The components in their order, whatever the labels that found them.
structure Arranged (all : List (String × ProviderItem)) (joinKeys order : List String) (groups : List (List Nat)) : Prop where
  nodup : groups.Nodup
  components : ∀ group,group ∈ groups ↔ ∃ i < all.length,group = component all joinKeys i
  sorted : groups.Pairwise fun a b => groupBefore all order a b = true

theorem Arranged.unique {groups other : List (List Nat)} (one : Arranged all joinKeys order groups)
    (two : Arranged all joinKeys order other) : groups = other := by
  refine List.Perm.eq_of_pairwise' one.sorted two.sorted ?_
  rw [List.perm_ext_iff_of_nodup one.nodup two.nodup]
  exact fun group => (one.components group).trans (two.components group).symm

theorem sorted_arranged {labels : List Nat} (labelled : Labelled all joinKeys labels) {groups : List (List Nat)}
    (given : groups.Perm (groupsOf labels)) : Arranged all joinKeys order (groups.insertionSort fun a b => groupBefore all order a b) := by
  obtain ⟨nodup,components⟩ := groupsOf_labelled labelled
  have sorted := List.perm_insertionSort (fun a b => groupBefore all order a b = true) groups
  refine ⟨(sorted.trans given).nodup_iff.mpr nodup,fun group => ?_,List.pairwise_insertionSort _ _⟩
  rw [(sorted.trans given).mem_iff]
  exact components group

theorem arranged_spec : Arranged all joinKeys order (arranged maps all joinKeys order) :=
  sorted_arranged rootsOf_labelled (maps.byRoot_perm _)

-- Path halving and the order of the maps leave no trace.
theorem mergeByRoots_same : mergeByRoots maps config perProvider joinKeys order = mergeByJoinKeys config perProvider joinKeys order := by
  have same := (@arranged_spec (flattened perProvider) joinKeys order maps).unique
    (sorted_arranged (@unitedLabels_labelled (flattened perProvider) joinKeys) (List.Perm.refl _))
  exact congrArg (List.map fun group => mergeGroup config joinKeys order (group.filterMap fun i => (flattened perProvider)[i]?)) same

-- What precedence says of a provider of a field, then registration.
def rank (config : ChainConfig) (order : List String) (field provider : String) : Nat ×ₗ Nat :=
  toLex (((config.precedence field).getD []).idxOf provider,registrationIndex provider order)

theorem find_first (list : List String) :
    match list.find? fun p => p == current || p == candidate with
    | none => list.idxOf current = list.length ∧ list.idxOf candidate = list.length
    | some p => p = current ∧ (candidate = current ∨ list.idxOf current < list.idxOf candidate) ∨
        p = candidate ∧ p ≠ current ∧ list.idxOf candidate < list.idxOf current := by
  induction list with
  | nil => simp
  | cons first rest ih =>
    by_cases isCurrent : first = current
    · by_cases isCandidate : candidate = current
      · simp [isCurrent,isCandidate]
      · simp [isCurrent,isCandidate,List.idxOf_cons_ne rest (Ne.symm isCandidate)]
    · by_cases isCandidate : first = candidate
      · subst isCandidate
        simp [isCurrent,List.idxOf_cons_ne rest isCurrent]
      · have passed : (first == current || first == candidate) = false := by simp [isCurrent,isCandidate]
        rw [List.find?_cons_of_neg (by simp [passed]),List.idxOf_cons_ne rest isCurrent,List.idxOf_cons_ne rest isCandidate]
        split at ih
        · simp [ih]
        · simpa using ih

theorem pickProvider_spec :
    pickProvider config field current candidate order =
      if rank config order field candidate < rank config order field current then candidate else current := by
  have first := @find_first current candidate ((config.precedence field).getD [])
  simp only [pickProvider,rank,Prod.Lex.toLex_lt_toLex]
  split at first
  next found =>
    rw [found,first.1,first.2]
    simp
  next p found =>
    rw [found]
    dsimp only
    rcases first with ⟨rfl,rfl | before⟩ | ⟨rfl,_,before⟩
    · simp
    · rw [if_neg (by omega)]
    · rw [if_pos (.inl before)]

structure Contribution where
  provider : String
  field : NamedField

def contributions (members : List (String × ProviderItem)) : List Contribution :=
  members.flatMap fun member => member.2.fields.map fun field => ⟨member.1,field⟩

def mergedFields (config : ChainConfig) (order : List String) (members : List (String × ProviderItem)) :
    Std.ExtTreeMap String (FieldValue × String) :=
  members.foldl (fun fields member => member.2.fields.foldl (mergeField config order member.1) fields) ∅

-- Each field stands with the value and the provider that rank first among those that brought it.
def Chosen (config : ChainConfig) (order : List String) (brought : List Contribution)
    (fields : Std.ExtTreeMap String (FieldValue × String)) : Prop :=
  ∀ name,match fields[name]? with
    | none => ∀ one ∈ brought,one.field.name ≠ name
    | some (value,provider) => ⟨provider,⟨name,value⟩⟩ ∈ brought ∧
        ∀ one ∈ brought,one.field.name = name → rank config order name provider ≤ rank config order name one.provider

theorem mergeField_chosen {brought : List Contribution} {fields : Std.ExtTreeMap String (FieldValue × String)} {one : Contribution}
    (chosen : Chosen config order brought fields) :
    Chosen config order (brought ++ [one]) (mergeField config order one.provider fields one.field) := by
  intro name
  have before := chosen name
  by_cases same : one.field.name = name
  · subst same
    unfold mergeField
    split at before
    next absent =>
      simp only [absent,Std.ExtTreeMap.getElem?_insert_self]
      refine ⟨by simp,fun other member named => ?_⟩
      rcases List.mem_append.mp member with old | new
      · exact absurd named (before other old)
      · rw [List.mem_singleton.mp new]
    next value provider there =>
      simp only [there,pickProvider_spec]
      obtain ⟨brought_,least⟩ := before
      by_cases better : rank config order one.field.name one.provider < rank config order one.field.name provider
      · have other : one.provider ≠ provider := by
          intro equal
          rw [equal] at better
          exact lt_irrefl _ better
        simp only [if_pos better,if_neg other,Std.ExtTreeMap.getElem?_insert_self]
        refine ⟨by simp,fun other member named => ?_⟩
        rcases List.mem_append.mp member with old | new
        · exact better.le.trans (least other old named)
        · rw [List.mem_singleton.mp new]
      · simp only [if_neg better,if_true,there]
        refine ⟨List.mem_append_left _ brought_,fun other member named => ?_⟩
        rcases List.mem_append.mp member with old | new
        · exact least other old named
        · rw [List.mem_singleton.mp new]
          exact not_lt.mp better
  · have kept : (mergeField config order one.provider fields one.field)[name]? = fields[name]? := by
      unfold mergeField
      split
      · rw [Std.ExtTreeMap.getElem?_insert,if_neg (by simpa using same)]
      · split
        · rfl
        · rw [Std.ExtTreeMap.getElem?_insert,if_neg (by simpa using same)]
    rw [kept]
    split at before
    next absent =>
      rw [absent]
      intro other member
      rcases List.mem_append.mp member with old | new
      · exact before other old
      · rw [List.mem_singleton.mp new]
        exact same
    next value provider there =>
      rw [there]
      refine ⟨List.mem_append_left _ before.1,fun other member named => ?_⟩
      rcases List.mem_append.mp member with old | new
      · exact before.2 other old named
      · rw [List.mem_singleton.mp new] at named
        exact absurd named same

theorem mergedFields_chosen (members : List (String × ProviderItem)) :
    Chosen config order (contributions members) (mergedFields config order members) := by
  have flat : mergedFields config order members =
      (contributions members).foldl (fun fields one => mergeField config order one.provider fields one.field) ∅ := by
    rw [contributions,List.foldl_flatMap]
    simp only [List.foldl_map]
    rfl
  rw [flat]
  induction contributions members using List.reverseRecOn with
  | nil =>
    intro name
    simp
  | append_singleton before one ih =>
    rw [List.foldl_append,List.foldl_cons,List.foldl_nil]
    exact mergeField_chosen ih

def providersOf (members : List (String × ProviderItem)) : List String :=
  members.foldl (fun seen member => if seen.contains member.1 then seen else seen ++ [member.1]) []

theorem providersOf_spec {R : String → String → Prop} (rising : (members.map Prod.fst).Pairwise fun p q => p = q ∨ R p q) :
    (providersOf members).Nodup ∧ (∀ p,p ∈ providersOf members ↔ p ∈ members.map Prod.fst) ∧ (providersOf members).Pairwise R := by
  induction members using List.reverseRecOn with
  | nil => exact ⟨List.nodup_nil,fun p => Iff.rfl,List.Pairwise.nil⟩
  | append_singleton before member ih =>
    rw [List.map_append,List.map_singleton,List.pairwise_append] at rising
    obtain ⟨nodup,same,pairwise⟩ := ih rising.1
    have grown : providersOf (before ++ [member]) =
        if (providersOf before).contains member.1 then providersOf before else providersOf before ++ [member.1] := by
      rw [providersOf,List.foldl_append,List.foldl_cons,List.foldl_nil]
      rfl
    rw [grown]
    split
    next seen =>
      refine ⟨nodup,fun p => ?_,pairwise⟩
      rw [List.contains_iff_mem,same] at seen
      rw [same,List.map_append,List.map_singleton,List.mem_append,List.mem_singleton]
      constructor
      · exact .inl
      · rintro (old | rfl)
        · exact old
        · exact seen
    next new =>
      have absent : member.1 ∉ providersOf before := fun there => new (List.contains_iff_mem.mpr there)
      refine ⟨List.nodup_append.mpr ⟨nodup,List.nodup_singleton _,?_⟩,fun p => ?_,List.pairwise_append.mpr ⟨pairwise,List.pairwise_singleton _ _,?_⟩⟩
      · intro p old q alone equal
        rw [List.mem_singleton.mp alone] at equal
        exact absent (equal ▸ old)
      · simp only [List.mem_append,List.mem_singleton,same,List.map_append,List.map_singleton]
      · intro p old q alone
        rw [List.mem_singleton.mp alone]
        rcases rising.2.2 p ((same p).mp old) member.1 (List.mem_singleton.mpr rfl) with equal | less
        · exact absurd (equal ▸ old) absent
        · exact less

def matchedOf (keys : List NamedJoinKey) : List NamedJoinKey :=
  keys.foldl (fun seen key => if seen.any (fun old => old.name == key.name) then seen else seen ++ [key]) []

theorem matchedOf_spec (keys : List NamedJoinKey) : ((matchedOf keys).map NamedJoinKey.name).Nodup ∧ matchedOf keys ⊆ keys ∧
    ∀ key ∈ keys,key.name ∈ (matchedOf keys).map NamedJoinKey.name := by
  induction keys using List.reverseRecOn with
  | nil => simp [matchedOf]
  | append_singleton before key ih =>
    obtain ⟨nodup,within,all_⟩ := ih
    have grown : matchedOf (before ++ [key]) =
        if (matchedOf before).any (fun old => old.name == key.name) then matchedOf before else matchedOf before ++ [key] := by
      rw [matchedOf,List.foldl_append,List.foldl_cons,List.foldl_nil]
      rfl
    have seen_iff : ((matchedOf before).any fun old => old.name == key.name) = true ↔ key.name ∈ (matchedOf before).map NamedJoinKey.name := by
      simp [List.any_eq_true]
    rw [grown]
    split
    next seen =>
      refine ⟨nodup,List.subset_append_of_subset_left _ within,fun other member => ?_⟩
      rcases List.mem_append.mp member with old | new
      · exact all_ other old
      · rw [List.mem_singleton.mp new]
        exact seen_iff.mp seen
    next new =>
      have absent := fun there => new (seen_iff.mpr there)
      rw [List.map_append,List.map_singleton]
      refine ⟨List.nodup_append.mpr ⟨nodup,List.nodup_singleton _,?_⟩,?_,fun other member => ?_⟩
      · intro p old q alone equal
        rw [List.mem_singleton.mp alone] at equal
        exact absent (equal ▸ old)
      · exact List.append_subset.mpr ⟨List.subset_append_of_subset_left _ within,List.subset_append_right _ _⟩
      · rcases List.mem_append.mp member with old | last
        · exact List.mem_append_left _ (all_ other old)
        · rw [List.mem_singleton.mp last]
          exact List.mem_append_right _ (List.mem_singleton.mpr rfl)

-- What one merged item says of the items that it merges.
structure Merges (config : ChainConfig) (joinKeys order : List String) (members : List (String × ProviderItem)) (item : MergedItem) :
    Prop where
  owned : ∃ member ∈ members,item.uri = member.2.uri ∧
    ∀ other ∈ members,registrationIndex member.1 order ≤ registrationIndex other.1 order
  providers : item.providersContributing.Nodup ∧ ∀ provider,provider ∈ item.providersContributing ↔ provider ∈ members.map Prod.fst
  once : (item.fields.map NamedField.name).Nodup
  aligned : item.provenancePerField.map FieldProvenance.field = item.fields.map NamedField.name
  complete : ∀ one ∈ contributions members,one.field.name ∈ item.fields.map NamedField.name
  chosen : ∀ entry ∈ item.fields.zip item.provenancePerField,⟨entry.2.provider,entry.1⟩ ∈ contributions members ∧
    ∀ one ∈ contributions members,one.field.name = entry.1.name →
      rank config order entry.1.name entry.2.provider ≤ rank config order entry.1.name one.provider
  matched : (item.joinKeysMatched.map NamedJoinKey.name).Nodup ∧
    (∀ key ∈ item.joinKeysMatched,key.name ∈ joinKeys ∧ ∃ member ∈ members,key ∈ member.2.joinKeys) ∧
    ∀ member ∈ members,∀ key ∈ member.2.joinKeys,key.name ∈ joinKeys → key.name ∈ item.joinKeysMatched.map NamedJoinKey.name

theorem mergeGroup_uri (someone : members ≠ []) : ∃ member ∈ members,(mergeGroup config joinKeys order members).uri = member.2.uri ∧
    ∀ other ∈ members,registrationIndex member.1 order ≤ registrationIndex other.1 order := by
  obtain ⟨least,min_⟩ : ∃ least,(members.map fun member => registrationIndex member.1 order).min? = some least :=
    Option.isSome_iff_exists.mp (by simpa using someone)
  obtain ⟨reached,below⟩ := List.min?_eq_some_iff.mp min_
  obtain ⟨first,there,index⟩ := List.mem_map.mp reached
  obtain ⟨member,found⟩ : ∃ member,members.find? (fun member => some (registrationIndex member.1 order) == some least) = some member := by
    rw [← Option.isSome_iff_exists,List.find?_isSome]
    exact ⟨first,there,by simp [index]⟩
  refine ⟨member,List.mem_of_find?_eq_some found,?_,fun other also => ?_⟩
  · simp only [mergeGroup,min_,found,Option.map_some,Option.getD_some]
  · have equal : registrationIndex member.1 order = least := by simpa using List.find?_some found
    rw [equal]
    exact below _ (List.mem_map_of_mem also)

theorem mergeGroup_merges (someone : members ≠ []) : Merges config joinKeys order members (mergeGroup config joinKeys order members) := by
  have chosen := @mergedFields_chosen order config members
  have fields : (mergeGroup config joinKeys order members).fields =
      (mergedFields config order members).toList.map fun entry => ⟨entry.1,entry.2.1⟩ := rfl
  have provenance : (mergeGroup config joinKeys order members).provenancePerField =
      (mergedFields config order members).toList.map fun entry => ⟨entry.1,entry.2.2⟩ := rfl
  have names : (mergeGroup config joinKeys order members).fields.map NamedField.name =
      (mergedFields config order members).toList.map Prod.fst := by
    rw [fields,List.map_map]
    rfl
  have distinct := @providersOf_spec members (fun _ _ => True) (List.pairwise_of_forall fun _ _ => .inr trivial)
  have keys := matchedOf_spec (members.flatMap fun member => member.2.joinKeys.filter fun key => joinKeys.contains key.name)
  constructor
  case owned => exact mergeGroup_uri someone
  case providers => exact ⟨distinct.1,distinct.2.1⟩
  case once =>
    rw [names]
    refine List.Pairwise.map _ ?_ (Std.ExtTreeMap.distinct_keys_toList (t := mergedFields config order members))
    intro a b apart equal
    exact apart (Std.LawfulEqCmp.compare_eq_iff_eq.mpr equal)
  case aligned =>
    rw [names,provenance,List.map_map]
    rfl
  case complete =>
    intro one brought
    have here := chosen one.field.name
    rw [names]
    split at here
    · exact absurd rfl (here one brought)
    · rename_i there
      exact List.mem_map.mpr ⟨_,Std.ExtTreeMap.mem_toList_iff_getElem?_eq_some.mpr there,rfl⟩
  case chosen =>
    intro entry member
    rw [fields,provenance,List.zip_map'] at member
    obtain ⟨⟨name,value,provider⟩,there,rfl⟩ := List.mem_map.mp member
    have here := chosen name
    rw [Std.ExtTreeMap.mem_toList_iff_getElem?_eq_some.mp there] at here
    exact here
  case matched =>
    refine ⟨keys.1,fun key member => ?_,fun member there key carried wanted => ?_⟩
    · obtain ⟨one,there,carried⟩ := List.mem_flatMap.mp (keys.2.1 member)
      obtain ⟨inside,wanted⟩ := List.mem_filter.mp carried
      exact ⟨List.contains_iff_mem.mp wanted,one,there,inside⟩
    · exact keys.2.2 key (List.mem_flatMap.mpr ⟨member,there,List.mem_filter.mpr ⟨carried,List.contains_iff_mem.mpr wanted⟩⟩)

end EvoCore.Metadata
