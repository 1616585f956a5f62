import EvoCore.MetadataMerge

namespace EvoCore.Metadata

variable {all others : List (String × ProviderItem)} {joinKeys order : List String} {maps : MapOrders} {config : ChainConfig}
  {perProvider arrived : List (String × List ProviderItem)} {group groups : List Nat} {fwd back : Nat → Nat} {i j : Nat}

-- A merge of each component, in which every item has its one place.
def MergesComponents (config : ChainConfig) (perProvider : List (String × List ProviderItem)) (joinKeys order : List String)
    (result : List MergedItem) : Prop :=
  ∃ groups : List (List Nat),groups.flatten.Perm (List.range (flattened perProvider).length) ∧
    (∀ group ∈ groups,∃ i ∈ group,∀ j,j ∈ group ↔ j < (flattened perProvider).length ∧ Connected (flattened perProvider) joinKeys i j) ∧
    List.Forall₂ (fun group item => Merges config joinKeys order (group.filterMap fun i => (flattened perProvider)[i]?) item) groups result

-- The providers' lists in another order, and the maps in whatever order, give the same.
def ArrivalBlind (config : ChainConfig) (perProvider : List (String × List ProviderItem)) (joinKeys order : List String) : Prop :=
  ∀ arrived maps maps',arrived.Perm perProvider →
    mergeByRoots maps config arrived joinKeys order = mergeByRoots maps' config perProvider joinKeys order

-- Nothing is merged across providers, and at most one provider that brings items is missing from the order.
structure Unmixed (perProvider : List (String × List ProviderItem)) (joinKeys order : List String) : Prop where
  apart : ∀ a ∈ flattened perProvider,∀ b ∈ flattened perProvider,∀ key ∈ joinKeys,∀ value,
    a.2.joinKey key = some value → b.2.joinKey key = some value → a.1 = b.1
  registered : ∀ a ∈ flattened perProvider,∀ b ∈ flattened perProvider,a.1 ∉ order → b.1 ∉ order → a.1 = b.1

theorem component_same (joined : Connected all joinKeys i j) : component all joinKeys i = component all joinKeys j := by
  classical
  refine List.filter_congr fun k _ => decide_eq_decide.mpr ⟨fun one => ?_,fun one => ?_⟩
  · exact .trans _ _ _ (.symm _ _ joined) one
  · exact .trans _ _ _ joined one

theorem component_self (within : i < all.length) : i ∈ component all joinKeys i := mem_component.mpr ⟨within,.refl _⟩

theorem component_nodup : (component all joinKeys i).Nodup := List.Nodup.filter _ List.nodup_range

theorem component_sorted : (component all joinKeys i).Pairwise (· < ·) := List.Pairwise.filter _ List.pairwise_lt_range

theorem arranged_flatten {groups : List (List Nat)} (arranged_ : Arranged all joinKeys order groups) :
    groups.flatten.Perm (List.range all.length) := by
  refine (List.perm_ext_iff_of_nodup ?_ List.nodup_range).mpr fun i => ?_
  · refine List.nodup_flatten.mpr ⟨fun group member => ?_,?_⟩
    · obtain ⟨k,_,rfl⟩ := (arranged_.components group).mp member
      exact component_nodup
    · refine arranged_.nodup.imp_of_mem fun inA inB apart k one two => apart ?_
      obtain ⟨a,_,rfl⟩ := (arranged_.components _).mp inA
      obtain ⟨b,_,rfl⟩ := (arranged_.components _).mp inB
      exact (component_same (mem_component.mp one).2).trans (component_same (mem_component.mp two).2).symm
  · rw [List.mem_flatten,List.mem_range]
    constructor
    · intro found
      obtain ⟨group,member,inside⟩ := found
      obtain ⟨k,_,rfl⟩ := (arranged_.components group).mp member
      exact (mem_component.mp inside).1
    · intro bound
      exact ⟨_,(arranged_.components _).mpr ⟨i,bound,rfl⟩,component_self bound⟩

theorem members_some (within : i < all.length) : (component all joinKeys i).filterMap (fun k => all[k]?) ≠ [] := by
  refine List.ne_nil_of_mem (a := all[i]) (List.mem_filterMap.mpr ⟨i,component_self within,?_⟩)
  exact List.getElem?_eq_getElem within

theorem merges_components (maps : MapOrders) :
    MergesComponents config perProvider joinKeys order (mergeByRoots maps config perProvider joinKeys order) := by
  have spec := @arranged_spec (flattened perProvider) joinKeys order maps
  refine ⟨_,arranged_flatten spec,fun group member => ?_,?_⟩
  · obtain ⟨i,bound,rfl⟩ := (spec.components group).mp member
    exact ⟨i,component_self bound,fun j => mem_component⟩
  · refine List.forall₂_map_right_iff.mpr (List.forall₂_same.mpr fun group member => ?_)
    obtain ⟨i,bound,rfl⟩ := (spec.components group).mp member
    exact mergeGroup_merges (members_some bound)

section Rearranging

-- Another order of the items that keeps each provider's own: where each index goes, and back.
structure Rearranges (all others : List (String × ProviderItem)) (fwd back : Nat → Nat) : Prop where
  there : ∀ i,others[fwd i]? = all[i]?
  returns : ∀ i,back (fwd i) = i
  returnsBack : ∀ i,fwd (back i) = i
  rises : ∀ i j a b,i < j → all[i]? = some a → all[j]? = some b → a.1 = b.1 → fwd i < fwd j

theorem Rearranges.back_there (moved : Rearranges all others fwd back) (i : Nat) : all[back i]? = others[i]? := by
  rw [← moved.there,moved.returnsBack]

theorem Rearranges.bound (moved : Rearranges all others fwd back) : fwd i < others.length ↔ i < all.length := by
  rw [← not_iff_not,not_lt,not_lt,← List.getElem?_eq_none_iff,← List.getElem?_eq_none_iff,moved.there]

theorem Rearranges.refl : Rearranges all all id id :=
  ⟨fun _ => rfl,fun _ => rfl,fun _ => rfl,fun _ _ _ _ less _ _ _ => less⟩

theorem Rearranges.trans {more : List (String × ProviderItem)} {fwd' back' : Nat → Nat} (one : Rearranges all others fwd back)
    (two : Rearranges others more fwd' back') : Rearranges all more (fwd' ∘ fwd) (back ∘ back') := by
  refine ⟨fun i => ?_,fun i => ?_,fun i => ?_,fun i j a b less atI atJ same => ?_⟩
  · rw [Function.comp_apply,two.there,one.there]
  · simp only [Function.comp_apply,two.returns,one.returns]
  · simp only [Function.comp_apply,one.returnsBack,two.returnsBack]
  · exact two.rises _ _ a b (one.rises i j a b less atI atJ same) ((one.there i).trans atI) ((one.there j).trans atJ) same

theorem Rearranges.cons (block : List (String × ProviderItem)) (moved : Rearranges all others fwd back) :
    Rearranges (block ++ all) (block ++ others) (fun i => if i < block.length then i else fwd (i-block.length)+block.length)
      (fun i => if i < block.length then i else back (i-block.length)+block.length) := by
  refine ⟨fun i => ?_,fun i => ?_,fun i => ?_,fun i j a b less atI atJ same => ?_⟩
  · split
    next inside => rw [List.getElem?_append_left inside,List.getElem?_append_left inside]
    next outside =>
      rw [List.getElem?_append_right (by omega),List.getElem?_append_right (by omega),Nat.add_sub_cancel,moved.there]
  · split
    · rfl
    · rw [if_neg (by omega),Nat.add_sub_cancel,moved.returns]
      omega
  · split
    · rfl
    · rw [if_neg (by omega),Nat.add_sub_cancel,moved.returnsBack]
      omega
  · split <;> split
    · exact less
    · omega
    · omega
    · rename_i iOut jOut
      rw [List.getElem?_append_right (by omega)] at atI atJ
      exact Nat.add_lt_add_right (moved.rises _ _ a b (by omega) atI atJ same) _

theorem Rearranges.swap {first second rest : List (String × ProviderItem)} (apart : ∀ a ∈ first,∀ b ∈ second,a.1 ≠ b.1) :
    Rearranges (second ++ (first ++ rest)) (first ++ (second ++ rest))
      (fun i => if i < second.length then i+first.length else if i < second.length+first.length then i-second.length else i)
      (fun i => if i < first.length then i+second.length else if i < first.length+second.length then i-first.length else i) := by
  have split_ : ∀ (one two three : List (String × ProviderItem)) (k : Nat),(one ++ (two ++ three))[k]? =
      if k < one.length then one[k]?
      else if k < one.length+two.length then two[k-one.length]? else three[k-one.length-two.length]? := by
    intro one two three k
    split
    next inside => rw [List.getElem?_append_left inside]
    next outside =>
      rw [List.getElem?_append_right (by omega)]
      split
      next inside => rw [List.getElem?_append_left (by omega)]
      next outside => rw [List.getElem?_append_right (by omega)]
  refine ⟨fun i => ?_,fun i => ?_,fun i => ?_,fun i j a b less atI atJ same => ?_⟩
  · rw [split_ second first rest]
    split
    next inSecond => rw [split_,if_neg (by omega),if_pos (by omega),Nat.add_sub_cancel]
    next outSecond =>
      split
      next inFirst => rw [split_,if_pos (by omega)]
      next outFirst =>
        rw [split_,if_neg (by omega),if_neg (by omega)]
        congr 1
        omega
  · split_ifs <;> omega
  · split_ifs <;> omega
  · rw [split_] at atI atJ
    split at atI
    next iSecond =>
      rw [if_pos iSecond]
      split at atJ
      next jSecond =>
        rw [if_pos jSecond]
        omega
      next jOut =>
        rw [if_neg jOut]
        split at atJ
        next jFirst =>
          exact absurd same.symm (apart b (List.mem_of_getElem? atJ) a (List.mem_of_getElem? atI))
        next jRest =>
          rw [if_neg jRest]
          omega
    next iOut =>
      split_ifs <;> omega

theorem flattened_perm (apart : (perProvider.map Prod.fst).Nodup) (perm : perProvider.Perm arrived) :
    ∃ fwd back,Rearranges (flattened perProvider) (flattened arrived) fwd back := by
  induction perm with
  | nil => exact ⟨id,id,.refl⟩
  | cons entry _ ih =>
    obtain ⟨fwd,back,moved⟩ := ih (List.nodup_cons.mp apart).2
    exact ⟨_,_,moved.cons (entry.2.map fun item => (entry.1,item))⟩
  | swap first second rest =>
    simp only [flattened,List.flatMap_cons]
    refine ⟨_,_,Rearranges.swap fun a inFirst b inSecond equal => ?_⟩
    obtain ⟨_,_,rfl⟩ := List.mem_map.mp inFirst
    obtain ⟨_,_,rfl⟩ := List.mem_map.mp inSecond
    exact (List.nodup_cons.mp apart).1 (List.mem_cons.mpr (.inl equal.symm))
  | trans one _ first second =>
    obtain ⟨fwd,back,moved⟩ := first apart
    obtain ⟨fwd',back',again⟩ := second ((one.map Prod.fst).nodup_iff.mp apart)
    exact ⟨_,_,moved.trans again⟩

theorem moved_connected (moved : Rearranges all others fwd back) :
    Connected others joinKeys (fwd i) (fwd j) ↔ Connected all joinKeys i j := by
  constructor
  · intro joined
    have carried : ∀ a b,Connected others joinKeys a b → Connected all joinKeys (back a) (back b) := by
      intro a b joined
      induction joined with
      | rel a b shares =>
        obtain ⟨key,inKeys,value,atA,atB⟩ := shares
        refine .rel _ _ ⟨key,inKeys,value,?_,?_⟩
        · rw [valueAt,moved.back_there]
          exact atA
        · rw [valueAt,moved.back_there]
          exact atB
      | refl => exact .refl _
      | symm _ _ _ ih => exact .symm _ _ ih
      | trans _ _ _ _ _ one two => exact .trans _ _ _ one two
    have here := carried _ _ joined
    rwa [moved.returns,moved.returns] at here
  · intro joined
    induction joined with
    | rel a b shares =>
      obtain ⟨key,inKeys,value,atA,atB⟩ := shares
      refine .rel _ _ ⟨key,inKeys,value,?_,?_⟩
      · rw [valueAt,moved.there]
        exact atA
      · rw [valueAt,moved.there]
        exact atB
    | refl => exact .refl _
    | symm _ _ _ ih => exact .symm _ _ ih
    | trans _ _ _ _ _ one two => exact .trans _ _ _ one two

-- Items that are joined have one provider.
def OneProvider (all : List (String × ProviderItem)) (joinKeys : List String) : Prop :=
  ∀ i j a b,Connected all joinKeys i j → all[i]? = some a → all[j]? = some b → a.1 = b.1

theorem apart_oneProvider (apart : ∀ a ∈ all,∀ b ∈ all,∀ key ∈ joinKeys,∀ value,
    a.2.joinKey key = some value → b.2.joinKey key = some value → a.1 = b.1) : OneProvider all joinKeys := by
  have carried : ∀ i j,Connected all joinKeys i j → (all[i]?).map Prod.fst = (all[j]?).map Prod.fst := by
    intro i j joined
    induction joined with
    | rel i j shares =>
      obtain ⟨key,inKeys,value,atI,atJ⟩ := shares
      obtain ⟨a,thereA,carriedA⟩ := Option.bind_eq_some_iff.mp atI
      obtain ⟨b,thereB,carriedB⟩ := Option.bind_eq_some_iff.mp atJ
      rw [thereA,thereB,Option.map_some,Option.map_some,
        apart a (List.mem_of_getElem? thereA) b (List.mem_of_getElem? thereB) key inKeys value carriedA carriedB]
    | refl => rfl
    | symm _ _ _ ih => exact ih.symm
    | trans _ _ _ _ _ one two => exact one.trans two
  intro i j a b joined atI atJ
  have same := carried i j joined
  rw [atI,atJ] at same
  exact Option.some.inj same

theorem moved_component (moved : Rearranges all others fwd back) (one : OneProvider all joinKeys) :
    component others joinKeys (fwd i) = (component all joinKeys i).map fwd := by
  have rising : ((component all joinKeys i).map fwd).Pairwise (· < ·) := by
    refine List.pairwise_map.mpr (component_sorted.imp_of_mem fun inA inB less => ?_)
    obtain ⟨boundA,joinedA⟩ := mem_component.mp inA
    obtain ⟨boundB,joinedB⟩ := mem_component.mp inB
    have atA := List.getElem?_eq_getElem boundA
    have atB := List.getElem?_eq_getElem boundB
    exact moved.rises _ _ _ _ less atA atB (one _ _ _ _ (.trans _ _ _ (.symm _ _ joinedA) joinedB) atA atB)
  refine List.Perm.eq_of_pairwise' (r := (· < ·)) component_sorted rising ?_
  refine (List.perm_ext_iff_of_nodup component_nodup (rising.imp fun less => Nat.ne_of_lt less)).mpr fun k => ?_
  rw [mem_component,List.mem_map]
  constructor
  · intro found
    refine ⟨back k,mem_component.mpr ⟨moved.bound.mp ?_,(moved_connected moved).mp ?_⟩,moved.returnsBack k⟩
    · rw [moved.returnsBack]
      exact found.1
    · rw [moved.returnsBack]
      exact found.2
  · intro found
    obtain ⟨k',member,rfl⟩ := found
    obtain ⟨bound,joined⟩ := mem_component.mp member
    exact ⟨moved.bound.mpr bound,(moved_connected moved).mpr joined⟩

theorem moved_earliest (moved : Rearranges all others fwd back) : earliest others order (group.map fwd) = earliest all order group := by
  rw [earliest,earliest,List.filterMap_map]
  simp only [Function.comp_def,moved.there]

theorem moved_lexLe {inside : Nat → Prop} (rises : ∀ i j,inside i → inside j → i < j → fwd i < fwd j) {a b : List Nat}
    (inA : ∀ i ∈ a,inside i) (inB : ∀ i ∈ b,inside i) (before : lexLe a b = true) : lexLe (a.map fwd) (b.map fwd) = true := by
  induction a generalizing b with
  | nil => rfl
  | cons x xs ih =>
    cases b with
    | nil => cases before
    | cons y ys =>
      simp only [lexLe,Bool.or_eq_true,decide_eq_true_eq,Bool.and_eq_true,beq_iff_eq,List.map_cons] at before ⊢
      rcases before with less | ⟨rfl,rest⟩
      · exact .inl (rises x y (inA x List.mem_cons_self) (inB y List.mem_cons_self) less)
      · exact .inr ⟨rfl,ih (fun i member => inA i (List.mem_cons_of_mem _ member)) (fun i member => inB i (List.mem_cons_of_mem _ member)) rest⟩

theorem earliest_one {provider : String} (some_ : group ≠ []) (one : ∀ i ∈ group,∃ item,all[i]? = some (provider,item)) :
    earliest all order group = registrationIndex provider order := by
  have all_ : (group.filterMap fun i => (all[i]?).map fun entry => registrationIndex entry.1 order) =
      group.map fun _ => registrationIndex provider order := by
    rw [← List.filterMap_eq_map]
    refine List.filterMap_congr fun i member => ?_
    obtain ⟨item,there⟩ := one i member
    rw [there]
    rfl
  rw [earliest,all_]
  obtain ⟨first,rest,rfl⟩ := List.exists_cons_of_ne_nil some_
  rw [List.map_const',List.min?_replicate_of_pos (by simp)]
  rfl

theorem component_provider (one : OneProvider all joinKeys) {provider : String} {item : ProviderItem}
    (there : all[i]? = some (provider,item)) : ∀ k ∈ component all joinKeys i,∃ item',all[k]? = some (provider,item') := by
  intro k member
  obtain ⟨bound,joined⟩ := mem_component.mp member
  have at_ := List.getElem?_eq_getElem bound
  have same : provider = (all[k]).1 := one _ _ _ _ joined there at_
  exact ⟨(all[k]).2,at_.trans (by rw [same])⟩

theorem moved_arranged {groups : List (List Nat)} (moved : Rearranges all others fwd back) (one : OneProvider all joinKeys)
    (registered : ∀ a ∈ all,∀ b ∈ all,a.1 ∉ order → b.1 ∉ order → a.1 = b.1) (arranged_ : Arranged all joinKeys order groups) :
    Arranged others joinKeys order (groups.map (List.map fwd)) := by
  have injective : Function.Injective fwd := Function.LeftInverse.injective moved.returns
  constructor
  case nodup => exact arranged_.nodup.map (List.map_injective_iff.mpr injective)
  case components =>
    intro group
    rw [List.mem_map]
    constructor
    · intro found
      obtain ⟨before,member,rfl⟩ := found
      obtain ⟨k,bound,rfl⟩ := (arranged_.components before).mp member
      exact ⟨fwd k,moved.bound.mpr bound,(moved_component moved one).symm⟩
    · intro found
      obtain ⟨k,bound,rfl⟩ := found
      rw [← moved.returnsBack k] at bound
      refine ⟨_,(arranged_.components _).mpr ⟨back k,moved.bound.mp bound,rfl⟩,?_⟩
      rw [← moved_component moved one,moved.returnsBack]
  case sorted =>
    refine List.pairwise_map.mpr (arranged_.sorted.imp_of_mem fun inA inB before => ?_)
    obtain ⟨i,boundI,rfl⟩ := (arranged_.components _).mp inA
    obtain ⟨j,boundJ,rfl⟩ := (arranged_.components _).mp inB
    have atI : all[i]? = some ((all[i]).1,(all[i]).2) := List.getElem?_eq_getElem boundI
    have atJ : all[j]? = some ((all[j]).1,(all[j]).2) := List.getElem?_eq_getElem boundJ
    have membersI := component_provider one atI
    have membersJ := component_provider one atJ
    simp only [groupBefore,moved_earliest moved,Bool.or_eq_true,decide_eq_true_eq,Bool.and_eq_true,beq_iff_eq] at before ⊢
    rcases before with less | ⟨equal,lexical⟩
    · exact .inl less
    · refine .inr ⟨equal,?_⟩
      rw [earliest_one (List.ne_nil_of_mem (component_self boundI)) membersI,
        earliest_one (List.ne_nil_of_mem (component_self boundJ)) membersJ] at equal
      have same : (all[i]).1 = (all[j]).1 := by
        by_cases known : (all[i]).1 ∈ order
        · exact (List.idxOf_inj known).mp equal
        · refine registered _ (List.getElem_mem boundI) _ (List.getElem_mem boundJ) known fun knownJ => ?_
          rw [registrationIndex,registrationIndex,List.idxOf_eq_length known] at equal
          exact absurd (List.idxOf_lt_length_of_mem knownJ) (by omega)
      rw [← same] at membersJ
      refine @moved_lexLe _ (fun k => ∃ item,all[k]? = some ((all[i]).1,item)) ?_ _ _ membersI membersJ lexical
      intro k l inK inL less
      obtain ⟨_,atK⟩ := inK
      obtain ⟨_,atL⟩ := inL
      exact moved.rises k l _ _ less atK atL rfl

end Rearranging

theorem unmixed_blind (apart : (perProvider.map Prod.fst).Nodup) (unmixed : Unmixed perProvider joinKeys order) :
    ArrivalBlind config perProvider joinKeys order := by
  intro arrived maps maps' perm
  obtain ⟨fwd,back,moved⟩ := flattened_perm apart perm.symm
  have one := apart_oneProvider unmixed.apart
  have carried := moved_arranged moved one unmixed.registered (@arranged_spec _ _ order maps')
  have same := (@arranged_spec _ _ _ maps).unique carried
  change (arranged maps (flattened arrived) joinKeys order).map _ = (arranged maps' (flattened perProvider) joinKeys order).map _
  rw [same,List.map_map]
  refine List.map_congr_left fun group _ => ?_
  simp only [Function.comp_def,List.filterMap_map,moved.there]

section Contributing

variable {R : String → String → Prop}

theorem flattened_rising (rising : (perProvider.map Prod.fst).Pairwise R) :
    (flattened perProvider).Pairwise fun a b => a.1 = b.1 ∨ R a.1 b.1 := by
  rw [flattened,List.pairwise_flatMap]
  constructor
  · intro entry _
    exact List.pairwise_map.mpr (List.pairwise_of_forall fun _ _ => .inl rfl)
  · refine (List.pairwise_map.mp rising).imp fun less a inA b inB => ?_
    obtain ⟨_,_,rfl⟩ := List.mem_map.mp inA
    obtain ⟨_,_,rfl⟩ := List.mem_map.mp inB
    exact .inr less

theorem rising_at {S : String × ProviderItem → String × ProviderItem → Prop} (rising : all.Pairwise S) {a b : String × ProviderItem}
    (less : i < j) (atI : all[i]? = some a) (atJ : all[j]? = some b) : S a b := by
  obtain ⟨boundI,rfl⟩ := List.getElem?_eq_some_iff.mp atI
  obtain ⟨boundJ,rfl⟩ := List.getElem?_eq_some_iff.mp atJ
  exact List.pairwise_iff_getElem.mp rising i j boundI boundJ less

theorem mergeGroup_provider {member : String × ProviderItem} (there : member ∈ all) :
    member.1 ∈ (mergeGroup config joinKeys order all).providersContributing :=
  ((mergeGroup_merges (List.ne_nil_of_mem there)).providers.2 _).mpr (List.mem_map_of_mem there)

theorem contributing_rising (rising : (perProvider.map Prod.fst).Pairwise R) :
    ∀ item ∈ mergeByRoots maps config perProvider joinKeys order,item.providersContributing.Pairwise R := by
  intro item member
  obtain ⟨group,inside,rfl⟩ := List.mem_map.mp member
  obtain ⟨i,_,rfl⟩ := ((@arranged_spec _ _ _ maps).components _).mp inside
  refine (providersOf_spec (List.pairwise_map.mpr (List.pairwise_filterMap.mpr ?_))).2.2
  exact component_sorted.imp fun less a atA b atB => rising_at (flattened_rising rising) less atA atB

-- S of the providers of two items, where each item has one and neither is registered.
def Strangers (order : List String) (S : String → String → Prop) (x y : MergedItem) : Prop :=
  ∀ p q,x.providersContributing = [p] → y.providersContributing = [q] → p ∉ order → q ∉ order → S p q

theorem strangers_rising (rising : (perProvider.map Prod.fst).Pairwise R) :
    (mergeByRoots maps config perProvider joinKeys order).Pairwise (Strangers order fun p q => p = q ∨ R p q) := by
  have spec := @arranged_spec (flattened perProvider) joinKeys order maps
  refine List.pairwise_map.mpr (spec.sorted.imp_of_mem fun inA inB before p q soleA soleB outA outB => ?_)
  obtain ⟨i,boundI,rfl⟩ := (spec.components _).mp inA
  obtain ⟨j,boundJ,rfl⟩ := (spec.components _).mp inB
  have provided : ∀ k provider,(mergeGroup config joinKeys order ((component (flattened perProvider) joinKeys k).filterMap
      fun l => (flattened perProvider)[l]?)).providersContributing = [provider] →
      ∀ l ∈ component (flattened perProvider) joinKeys k,∃ item,(flattened perProvider)[l]? = some (provider,item) := by
    intro k provider sole l member
    have at_ := List.getElem?_eq_getElem (mem_component.mp member).1
    have contributes := @mergeGroup_provider _ joinKeys order config _ (List.mem_filterMap.mpr ⟨l,member,at_⟩)
    rw [sole,List.mem_singleton] at contributes
    exact ⟨_,at_.trans (by rw [← contributes])⟩
  have fromA := provided i p soleA
  have fromB := provided j q soleB
  simp only [groupBefore,earliest_one (List.ne_nil_of_mem (component_self boundI)) fromA,
    earliest_one (List.ne_nil_of_mem (component_self boundJ)) fromB,registrationIndex,List.idxOf_eq_length outA,
    List.idxOf_eq_length outB,Nat.lt_irrefl,decide_false,Bool.false_or,beq_self_eq_true,Bool.true_and] at before
  obtain ⟨x,xs,shapeA⟩ := List.exists_cons_of_ne_nil (List.ne_nil_of_mem (@component_self _ joinKeys _ boundI))
  obtain ⟨y,ys,shapeB⟩ := List.exists_cons_of_ne_nil (List.ne_nil_of_mem (@component_self _ joinKeys _ boundJ))
  rw [shapeA] at before fromA
  rw [shapeB] at before fromB
  obtain ⟨_,atX⟩ := fromA x List.mem_cons_self
  obtain ⟨_,atY⟩ := fromB y List.mem_cons_self
  simp only [lexLe,Bool.or_eq_true,decide_eq_true_eq,Bool.and_eq_true,beq_iff_eq] at before
  rcases before with less | ⟨rfl,_⟩
  · exact rising_at (flattened_rising rising) less atX atY
  · rw [atX] at atY
    exact .inl (congrArg Prod.fst (Option.some.inj atY))

theorem single {α : Type} {S : α → α → Prop} {items : List α} {a : α} (asymm : ∀ p q,S p q → ¬ S q p) (one : items.Pairwise S)
    (other : items.Pairwise (flip S)) (member : a ∈ items) : items = [a] := by
  cases items with
  | nil => cases member
  | cons p rest =>
    cases rest with
    | nil => rw [List.mem_singleton.mp member]
    | cons q more =>
      have first := (List.pairwise_cons.mp one).1 q List.mem_cons_self
      exact absurd ((List.pairwise_cons.mp other).1 q List.mem_cons_self) (asymm p q first)

end Contributing

-- One list of merged items cannot follow both an order of arrival and its reverse.
theorem blind_unmixed (apart : (perProvider.map Prod.fst).Nodup) (blind : ArrivalBlind config perProvider joinKeys order) :
    Unmixed perProvider joinKeys order := by
  let before (p q : String) : Prop := (perProvider.map Prod.fst).idxOf p < (perProvider.map Prod.fst).idxOf q
  have asymm : ∀ p q,before p q → ¬ before q p := fun p q less => Nat.not_lt_of_gt less
  have forwards : (perProvider.map Prod.fst).Pairwise before := by
    refine List.pairwise_iff_getElem.mpr fun i j boundI boundJ less => ?_
    simp only [before,apart.idxOf_getElem]
    exact less
  have backwards : (perProvider.reverse.map Prod.fst).Pairwise (flip before) := by
    rw [List.map_reverse,List.pairwise_reverse]
    exact forwards
  have same := blind perProvider.reverse .plain .plain perProvider.reverse_perm
  have rising := @contributing_rising joinKeys order .plain config _ _ forwards
  have falling := @contributing_rising joinKeys order .plain config _ _ backwards
  have strangers := @strangers_rising joinKeys order .plain config _ _ forwards
  have strangersBack := @strangers_rising joinKeys order .plain config _ _ backwards
  rw [same] at falling strangersBack
  have spec := @arranged_spec (flattened perProvider) joinKeys order .plain
  have sole : ∀ i a b,(flattened perProvider)[i]? = some a → ∀ j,Connected (flattened perProvider) joinKeys i j →
      (flattened perProvider)[j]? = some b → ∃ item ∈ mergeByRoots .plain config perProvider joinKeys order,
        item.providersContributing = [a.1] ∧ item.providersContributing = [b.1] := by
    intro i a b atI j joined atJ
    have boundI := (List.getElem?_eq_some_iff.mp atI).1
    have boundJ := (List.getElem?_eq_some_iff.mp atJ).1
    have inside := List.mem_map_of_mem (f := fun group => mergeGroup config joinKeys order
      (group.filterMap fun k => (flattened perProvider)[k]?)) ((spec.components _).mpr ⟨i,boundI,rfl⟩)
    refine ⟨_,inside,single asymm (rising _ inside) (falling _ inside) (mergeGroup_provider ?_),
      single asymm (rising _ inside) (falling _ inside) (mergeGroup_provider ?_)⟩
    · exact List.mem_filterMap.mpr ⟨i,component_self boundI,atI⟩
    · exact List.mem_filterMap.mpr ⟨j,mem_component.mpr ⟨boundJ,joined⟩,atJ⟩
  constructor
  case apart =>
    intro a inA b inB key inKeys value carriedA carriedB
    obtain ⟨i,atI⟩ := List.getElem?_of_mem inA
    obtain ⟨j,atJ⟩ := List.getElem?_of_mem inB
    obtain ⟨_,_,one,two⟩ := sole i a b atI j (.rel _ _ ⟨key,inKeys,value,by simp [valueAt,atI,carriedA],by simp [valueAt,atJ,carriedB]⟩) atJ
    exact (List.singleton_inj.mp (one.symm.trans two))
  case registered =>
    intro a inA b inB outA outB
    obtain ⟨i,atI⟩ := List.getElem?_of_mem inA
    obtain ⟨j,atJ⟩ := List.getElem?_of_mem inB
    obtain ⟨x,inX,soleX,_⟩ := sole i a a atI i (.refl _) atI
    obtain ⟨y,inY,soleY,_⟩ := sole j b b atJ j (.refl _) atJ
    have one : (mergeByRoots .plain config perProvider joinKeys order).Pairwise (Strangers order Eq) := by
      refine (strangers.and strangersBack).imp fun pair p q soleP soleQ outP outQ => ?_
      rcases pair.1 p q soleP soleQ outP outQ with equal | less
      · exact equal
      · rcases pair.2 p q soleP soleQ outP outQ with equal | more
        · exact equal
        · exact absurd more (asymm p q less)
    have symmetric : Std.Symm (Strangers order Eq) := ⟨fun x y held p q soleP soleQ outP outQ => (held q p soleQ soleP outQ outP).symm⟩
    refine one.forall_of_forall (fun x _ p q soleP soleQ _ _ => ?_) inX inY a.1 b.1 soleX soleY outA outB
    exact List.singleton_inj.mp (soleP.symm.trans soleQ)

-- Over every list of providers' lists: the merge is one of each component, from the providers that rank
-- first, and arrival leaves no trace in it exactly when nothing is merged across providers and no two
-- providers are missing from the registration order.
theorem merge_arrival_exactly (maps : MapOrders) (config : ChainConfig) (perProvider : List (String × List ProviderItem))
    (joinKeys order : List String) (apart : (perProvider.map Prod.fst).Nodup) :
    MergesComponents config perProvider joinKeys order (mergeByRoots maps config perProvider joinKeys order) ∧
      ArrivalBlind config perProvider joinKeys order ↔ Unmixed perProvider joinKeys order :=
  ⟨fun both => blind_unmixed apart both.2,fun unmixed => ⟨merges_components maps,unmixed_blind apart unmixed⟩⟩

section Albums

def album (uri : String) (keys : List NamedJoinKey) : ProviderItem := ⟨uri,[⟨"title",.str "Heavy Weather"⟩],keys⟩

def shelves (keys : List NamedJoinKey) : List (String × List ProviderItem) :=
  [("near",[album "near:1" keys]),("far",[album "far:1" keys])]

-- The near shelf has two copies of one album.
def copies : List (String × List ProviderItem) :=
  [("near",[album "near:1" [⟨"mbid","4f9c"⟩],album "near:2" [⟨"mbid","4f9c"⟩]]),("far",[album "far:1" [⟨"mbid","77aa"⟩]])]

theorem shelves_disjoint : MergesComponents plainConfig copies ["mbid"] ["near","far"]
      (mergeByRoots .plain plainConfig copies ["mbid"] ["near","far"]) ∧
    ArrivalBlind plainConfig copies ["mbid"] ["near","far"] := by
  refine (merge_arrival_exactly .plain plainConfig copies ["mbid"] ["near","far"] (by decide)).mpr ⟨?_,?_⟩
  · intro a inA b inB key asked value carriedA carriedB
    cases List.mem_singleton.mp asked
    have owner : ∀ a ∈ flattened copies,∀ value ∈ a.2.joinKey "mbid",a.1 = if value = "4f9c" then "near" else "far" := by decide
    rw [owner a inA value carriedA,owner b inB value carriedB]
  · intro a inA b inB outA
    have known : ∀ a ∈ flattened copies,a.1 ∈ ["near","far"] := by simp [flattened,copies]
    exact absurd (known a inA) outA

-- One album on both shelves: whichever comes first leads the merged item.
theorem shelves_shared : ¬ ArrivalBlind plainConfig (shelves [⟨"mbid","4f9c"⟩]) ["mbid"] ["near","far"] := by
  intro blind
  have same := blind (shelves [⟨"mbid","4f9c"⟩]).reverse .plain .plain (List.reverse_perm _)
  have first := congrArg (List.map MergedItem.providersContributing) same
  revert first
  decide

end Albums

end EvoCore.Metadata
