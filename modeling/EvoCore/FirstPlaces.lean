import Mathlib

namespace EvoCore.FirstPlaces

-- Keys walked in an order, each with its items; every item is listed where it comes first.
-- Nothing below knows what the keys or the items are.
variable {α β γ : Type} [DecidableEq β]

theorem nodup_eraseDups (items : List β) : items.eraseDups.Nodup := by
  match items with
  | [] => exact .nil
  | a::rest =>
    have shorter : (rest.filter fun b => !b == a).length < rest.length+1 := Nat.lt_succ_of_le (List.length_filter_le _ _)
    rw [List.eraseDups_cons,List.nodup_cons,List.mem_eraseDups]
    exact ⟨by simp,nodup_eraseDups _⟩
termination_by items.length

theorem eraseDups_filter (keep : β → Bool) (items : List β) : (items.filter keep).eraseDups = items.eraseDups.filter keep := by
  match items with
  | [] => rfl
  | a::rest =>
    have shorter : (rest.filter fun b => !b == a).length < rest.length+1 := Nat.lt_succ_of_le (List.length_filter_le _ _)
    have tail := eraseDups_filter keep (rest.filter fun b => !b == a)
    rw [List.eraseDups_cons,List.filter_cons,List.filter_cons,← tail,List.filter_filter]
    cases here : keep a with
    | true =>
      rw [if_pos rfl,if_pos rfl,List.eraseDups_cons,List.filter_filter]
      simp only [Bool.and_comm]
    | false =>
      rw [if_neg Bool.false_ne_true,if_neg Bool.false_ne_true]
      congr 1
      apply List.filter_congr
      intro b _
      by_cases same : b = a
      · simp [same,here]
      · simp [same]
termination_by items.length

theorem eraseDups_map [DecidableEq γ] {change : β → γ} (items : List β) (apart : ∀ a ∈ items,∀ b ∈ items,change a = change b → a = b) :
    (items.map change).eraseDups = items.eraseDups.map change := by
  match items with
  | [] => rfl
  | a::rest =>
    have shorter : (rest.filter fun b => !b == a).length < rest.length+1 := Nat.lt_succ_of_le (List.length_filter_le _ _)
    have tail := eraseDups_map (rest.filter fun b => !b == a) (by
      intro b first c second
      exact apart b (List.mem_cons_of_mem _ (List.mem_of_mem_filter first)) c (List.mem_cons_of_mem _ (List.mem_of_mem_filter second)))
    rw [List.map_cons,List.eraseDups_cons,List.eraseDups_cons,List.map_cons,← tail,List.filter_map]
    congr 3
    apply List.filter_congr
    intro b member
    by_cases same : b = a
    · simp [same]
    · have other : change b ≠ change a := fun equal => same (apart b (List.mem_cons_of_mem _ member) a List.mem_cons_self equal)
      simp [same,other]
termination_by items.length

theorem eraseDups_append_filter (first second : List β) :
    (first++second).eraseDups = first.eraseDups++second.eraseDups.filter fun b => b ∉ first := by
  rw [List.eraseDups_append,← eraseDups_filter]
  congr 2
  apply List.filter_congr
  intro b _
  simp

theorem foldl_firsts (seen items : List β) : items.foldl (fun seen item => if item ∈ seen then seen else seen++[item]) seen =
    seen++items.eraseDups.filter fun b => b ∉ seen := by
  induction items generalizing seen with
  | nil => simp
  | cons a rest ih =>
    rw [List.foldl_cons,ih,List.eraseDups_cons,eraseDups_filter,List.filter_cons]
    split
    · rename_i known
      rw [List.filter_filter]
      simp only [known,not_true_eq_false,decide_false,Bool.false_eq_true,if_false]
      congr 1
      apply List.filter_congr
      intro b _
      by_cases same : b = a
      · simp [same,known]
      · simp [same]
    · rename_i fresh
      rw [List.filter_filter]
      simp only [fresh,not_false_eq_true,decide_true,if_true,List.append_assoc,List.singleton_append]
      congr 2
      apply List.filter_congr
      intro b _
      by_cases same : b = a <;> simp [same,fresh]

theorem prefix_exact (first second : List β) : (first++second).eraseDups = second.eraseDups ↔ first.eraseDups <+: second.eraseDups := by
  rw [eraseDups_append_filter]
  constructor
  · intro same
    exact ⟨_,same⟩
  · rintro ⟨rest,shape⟩
    have apart := nodup_eraseDups second
    rw [← shape] at apart ⊢
    rw [List.filter_append]
    have gone : first.eraseDups.filter (fun b => decide (b ∉ first)) = [] := by
      rw [List.filter_eq_nil_iff]
      intro b member
      simpa using List.mem_eraseDups.mp member
    have stay : rest.filter (fun b => decide (b ∉ first)) = rest := by
      rw [List.filter_eq_self]
      intro b member
      simpa using fun here => (List.nodup_append.mp apart).2.2 b (List.mem_eraseDups.mpr here) b member rfl
    rw [gone,stay,List.nil_append]

theorem last_covers {items known before after : List β} {item a : β} (shape : items = before++item::after)
    (last : items.eraseDups = known++[item]) (member : a ∈ known) : a ∈ before := by
  have apart := nodup_eraseDups items
  rw [last,List.nodup_append] at apart
  have other : a ≠ item := fun same => apart.2.2 a member item (by simp) same
  have split_ : items = (before++[item])++after := by simp [shape]
  rw [split_,eraseDups_append_filter] at last
  rcases List.eq_nil_or_concat (after.eraseDups.filter fun b => b ∉ before++[item]) with none_ | ⟨more,b,some_⟩
  · rw [none_,List.append_nil] at last
    have here : a ∈ (before++[item]).eraseDups := by rw [last]; exact List.mem_append_left _ member
    rw [List.mem_eraseDups] at here
    simpa [other] using here
  · rw [some_,List.concat_eq_append,← List.append_assoc] at last
    have same := (List.append_inj' last rfl).2
    have outside : b ∈ after.eraseDups.filter fun b => b ∉ before++[item] := by rw [some_]; simp
    cases List.singleton_inj.mp same
    simp at outside

theorem covered_last {items before after : List β} {item : β} (shape : items = before++item::after) (fresh : item ∉ before)
    (covered : ∀ a ∈ after,a ≠ item → a ∈ before) : items.eraseDups = before.eraseDups++[item] := by
  have split_ : items = (before++[item])++after := by simp [shape]
  have nothing : (after.eraseDups.filter fun b => b ∉ before++[item]) = [] := by
    rw [List.filter_eq_nil_iff]
    intro b member
    simp only [List.mem_append,List.mem_singleton,decide_eq_true_eq,not_not]
    by_cases same : b = item
    · exact .inr same
    · exact .inl (covered b (List.mem_eraseDups.mp member) same)
  rw [split_,eraseDups_append_filter,nothing,List.append_nil,eraseDups_append_filter]
  simp [fresh,List.eraseDups_cons]

def listing (items : α → List β) (order : List α) : List β := (order.flatMap items).eraseDups

section
variable {items : α → List β} {order keys : List α} {item : β}

theorem mem_listing : a ∈ listing items order ↔ ∃ key ∈ order,a ∈ items key := by
  rw [listing,List.mem_eraseDups,List.mem_flatMap]

theorem listing_filter (keep : β → Bool) : listing (fun key => (items key).filter keep) order = (listing items order).filter keep := by
  unfold listing
  rw [← eraseDups_filter,List.filter_flatMap]

theorem listing_map [DecidableEq γ] {change : β → γ} (apart : ∀ a ∈ listing items order,∀ b ∈ listing items order,change a = change b → a = b) :
    listing (fun key => (items key).map change) order = (listing items order).map change := by
  unfold listing
  rw [← eraseDups_map,List.map_flatMap]
  intro a first b second
  exact apart a (List.mem_eraseDups.mpr first) b (List.mem_eraseDups.mpr second)

theorem listing_prune (keep : α → Bool) (idle : ∀ key ∈ order,keep key = false → items key = []) :
    listing items (order.filter keep) = listing items order := by
  unfold listing
  congr 1
  induction order with
  | nil => rfl
  | cons key rest ih =>
    have tail := ih fun key member => idle key (List.mem_cons_of_mem _ member)
    cases here : keep key with
    | true => rw [List.filter_cons_of_pos here,List.flatMap_cons,List.flatMap_cons,tail]
    | false =>
      rw [List.filter_cons_of_neg (by simp [here]),List.flatMap_cons,idle key List.mem_cons_self here,tail,List.nil_append]

variable [DecidableEq α]

-- One more item at the end of the items of some keys.
def extended (items : α → List β) (keys : List α) (item : β) (key : α) : List β :=
  if key ∈ keys then items key++[item] else items key

theorem extended_strip (keys : List α) (fresh : ∀ key,item ∉ items key) (order : List α) :
    (order.flatMap (extended items keys item)).filter (fun a => a ≠ item) = order.flatMap items := by
  rw [List.filter_flatMap]
  congr 1
  funext key
  have whole : (items key).filter (fun a => decide (a ≠ item)) = items key := by
    rw [List.filter_eq_self]
    intro a member
    simpa using fun same : a = item => fresh key (same ▸ member)
  unfold extended
  split
  · rw [List.filter_append,whole]
    simp
  · exact whole

theorem listing_extended (keys : List α) (fresh : ∀ key,item ∉ items key) (order : List α) :
    (listing (extended items keys item) order).filter (fun a => a ≠ item) = listing items order := by
  unfold listing
  rw [← eraseDups_filter,extended_strip keys fresh]

theorem first_key {wanted : List α} {order : List α} (some_ : ∃ key ∈ order,key ∈ wanted) :
    ∃ before key after,order = before++key::after ∧ key ∈ wanted ∧ ∀ earlier ∈ before,earlier ∉ wanted := by
  induction order with
  | nil =>
    obtain ⟨_,none_,_⟩ := some_
    cases none_
  | cons key rest ih =>
    by_cases here : key ∈ wanted
    · exact ⟨[],key,rest,rfl,here,fun _ none_ => nomatch none_⟩
    · obtain ⟨other,member,chosen⟩ := some_
      rcases List.mem_cons.mp member with rfl | later
      · exact absurd chosen here
      · obtain ⟨before,first,after,shape,found,free⟩ := ih ⟨other,later,chosen⟩
        refine ⟨key::before,first,after,by rw [shape]; rfl,found,?_⟩
        intro earlier member
        rcases List.mem_cons.mp member with rfl | member
        · exact here
        · exact free earlier member

omit [DecidableEq β] in
theorem extended_outside {before : List α} (free : ∀ key ∈ before,key ∉ keys) :
    before.flatMap (extended items keys item) = before.flatMap items := by
  induction before with
  | nil => rfl
  | cons key rest ih =>
    rw [List.flatMap_cons,List.flatMap_cons,ih fun key member => free key (List.mem_cons_of_mem _ member)]
    unfold extended
    rw [if_neg (free key List.mem_cons_self)]

omit [DecidableEq β] in
theorem mem_extended {before : List α} (other : a ≠ item) : a ∈ before.flatMap (extended items keys item) ↔ a ∈ before.flatMap items := by
  simp only [List.mem_flatMap]
  constructor
  · rintro ⟨key,member,there⟩
    refine ⟨key,member,?_⟩
    unfold extended at there
    split at there
    · simpa [other] using there
    · exact there
  · rintro ⟨key,member,there⟩
    refine ⟨key,member,?_⟩
    unfold extended
    split
    · exact List.mem_append_left _ there
    · exact there

-- Where every item is known before the first of the keys is over.
def Settled (items : α → List β) (order keys : List α) : Prop :=
  ∀ before key after,order = before++key::after → key ∈ keys → ∀ a ∈ listing items order,a ∈ (before++[key]).flatMap items

omit [DecidableEq α] in
theorem listing_known (known : ∀ key ∈ keys,∀ a ∈ items key,a ∈ listing items order) :
    listing items (order++keys) = listing items order := by
  unfold listing
  rw [List.flatMap_append,eraseDups_append_filter]
  have nothing : ((keys.flatMap items).eraseDups.filter fun b => b ∉ order.flatMap items) = [] := by
    rw [List.filter_eq_nil_iff]
    intro b member
    obtain ⟨key,chosen,there⟩ := List.mem_flatMap.mp (List.mem_eraseDups.mp member)
    simpa [listing,List.mem_eraseDups] using known key chosen b there
  rw [nothing,List.append_nil]

theorem listing_newest (fresh : ∀ key,item ∉ items key) (some_ : keys ≠ [])
    (known : ∀ key ∈ keys,∀ a ∈ items key,a ∈ listing items order) :
    listing (extended items keys item) (order++keys) = listing items order++[item] ↔ Settled items order keys := by
  have apart : ∀ a ∈ listing items order,a ≠ item := by
    rintro a member rfl
    obtain ⟨key,-,there⟩ := mem_listing.mp member
    exact fresh key there
  constructor
  · intro last before key after shape chosen a member
    have cut : (order++keys).flatMap (extended items keys item) =
        (before.flatMap (extended items keys item)++items key)++item::(after++keys).flatMap (extended items keys item) := by
      simp [shape,extended,chosen]
    have there := last_covers cut last member
    rw [List.mem_append,mem_extended (apart a member)] at there
    rw [List.flatMap_append,List.mem_append]
    simpa using there
  · intro settled
    obtain ⟨first,rest,rfl⟩ := List.exists_cons_of_ne_nil some_
    obtain ⟨before,key,after,shape,chosen,free⟩ : ∃ before key after,order++first::rest = before++key::after ∧
        key ∈ first::rest ∧ ∀ earlier ∈ before,earlier ∉ first::rest :=
      first_key ⟨first,List.mem_append_right _ List.mem_cons_self,List.mem_cons_self⟩
    have cut : (order++first::rest).flatMap (extended items (first::rest) item) =
        (before.flatMap items++items key)++item::after.flatMap (extended items (first::rest) item) := by
      rw [shape,List.flatMap_append,List.flatMap_cons,extended_outside free]
      simp [extended,chosen]
    have unseen : item ∉ before.flatMap items++items key := by
      rw [List.mem_append,List.mem_flatMap]
      rintro (⟨other,-,there⟩ | there)
      · exact fresh other there
      · exact fresh key there
    have covers : ∀ a ∈ listing items order,a ∈ before.flatMap items++items key := by
      intro a member
      rcases List.append_eq_append_iff.mp shape with ⟨more,same,-⟩ | ⟨more,same,tail⟩
      · rw [listing,List.mem_eraseDups] at member
        rw [same,List.flatMap_append]
        exact List.mem_append_left _ (List.mem_append_left _ member)
      · cases more with
        | nil =>
          rw [List.append_nil] at same
          rw [listing,List.mem_eraseDups,same] at member
          exact List.mem_append_left _ member
        | cons head more =>
          cases (List.cons.inj tail).1
          have there := settled before key more same chosen a member
          simpa [List.flatMap_append] using there
    have every : ∀ a ∈ after.flatMap (extended items (first::rest) item),a ≠ item → a ∈ before.flatMap items++items key := by
      intro a member other
      rw [mem_extended other] at member
      apply covers
      obtain ⟨place,among,there⟩ := List.mem_flatMap.mp member
      have inside : place ∈ order++first::rest := by rw [shape]; simp [among]
      rcases List.mem_append.mp inside with old | new
      · exact mem_listing.mpr ⟨place,old,there⟩
      · exact known place new a there
    have whole := covered_last cut unseen every
    have stripped : (before.flatMap items++items key).eraseDups = listing items order := by
      have all := listing_extended (first::rest) fresh (order++first::rest)
      have still : (before.flatMap items++items key).filter (fun a => decide (a ≠ item)) = before.flatMap items++items key := by
        rw [List.filter_eq_self]
        intro a member
        simpa using fun same : a = item => unseen (same ▸ member)
      rw [listing,whole,List.filter_append,← eraseDups_filter,still] at all
      rw [← listing_known known,← all]
      simp
    rw [listing,whole,stripped]

-- Walked before the rest, the keys put the item first where the first of them holds nothing
-- else, and the others where they were when what the keys hold already came first.
theorem listing_oldest (order : List α) (fresh : ∀ key,item ∉ items key) (some_ : keys ≠ []) :
    listing (extended items keys item) (keys++order) = item::listing items order ↔
      (∀ key ∈ keys.head?,items key = []) ∧ listing items keys <+: listing items order := by
  obtain ⟨first,rest,rfl⟩ := List.exists_cons_of_ne_nil some_
  simp only [List.head?_cons,Option.mem_def,Option.some.injEq,forall_eq']
  have head : (first::rest++order).flatMap (extended items (first::rest) item) =
      items first++item::(rest++order).flatMap (extended items (first::rest) item) := by
    simp [extended]
  cases held : items first with
  | nil =>
    have stripped : ((rest++order).flatMap (extended items (first::rest) item)).filter (fun b => !b == item) =
        rest.flatMap items++order.flatMap items := by
      rw [← List.flatMap_append,← extended_strip (first::rest) fresh (rest++order)]
      apply List.filter_congr
      intro b _
      by_cases same : b = item <;> simp [same]
    have bare : listing items (first::rest) = (rest.flatMap items).eraseDups := by rw [listing,List.flatMap_cons,held,List.nil_append]
    rw [bare,listing,head,held,List.nil_append,List.eraseDups_cons,stripped,List.cons.injEq]
    simpa [listing] using prefix_exact (rest.flatMap items) (order.flatMap items)
  | cons a more =>
    refine iff_of_false ?_ ?_
    · intro oldest
      rw [listing,head,held,List.cons_append,List.eraseDups_cons] at oldest
      cases (List.cons.inj oldest).1
      exact absurd (held ▸ List.mem_cons_self) (fresh first)
    · rintro ⟨none_,-⟩
      cases none_

end

end EvoCore.FirstPlaces
