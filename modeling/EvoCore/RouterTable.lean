import EvoCore.FirstPlaces
import EvoCore.RouterOccupancy

namespace EvoCore.Router
open Tables Runs FirstPlaces

section
variable {inner after : RouterInner} {entry previous : PluginEntry} {shelf : String} {shelves : List String}

def PluginEntry.homes (entry : PluginEntry) : List String := if entry.stockings = [] then [entry.shelf] else entry.shelves

theorem homes_apart (entry : PluginEntry) : entry.homes.Nodup := by
  unfold PluginEntry.homes
  split
  · exact List.nodup_singleton _
  · exact entry.apart

theorem homes_some (entry : PluginEntry) : entry.homes ≠ [] := by
  unfold PluginEntry.homes
  split
  · simp
  · simpa [PluginEntry.shelves]

theorem collect_all (entries items : List PluginEntry) : items.foldl collect entries = entries++items.eraseDups.filter fun e => e ∉ entries :=
  foldl_firsts entries items

theorem mem_collect (entries items : List PluginEntry) : entry ∈ items.foldl collect entries ↔ entry ∈ entries ∨ entry ∈ items := by
  rw [collect_all,List.mem_append,List.mem_filter,List.mem_eraseDups]
  by_cases here : entry ∈ entries <;> simp [here]

theorem collect_known {entries items : List PluginEntry} (known : ∀ e ∈ items,e ∈ entries) : items.foldl collect entries = entries := by
  have nothing : (items.eraseDups.filter fun e => e ∉ entries) = [] := by
    rw [List.filter_eq_nil_iff]
    intro e member
    simpa using known e (List.mem_eraseDups.mp member)
  rw [collect_all,nothing,List.append_nil]

theorem drainShelves_entries (inner : RouterInner) (order : List String) {byShelf : Table String (List PluginEntry)} {entries : List PluginEntry}
    (left : ∀ x,get byShelf x = get inner.byShelf x ∨ get byShelf x = none ∧ ∀ e ∈ inner.occupants x,e ∈ entries) :
    (drainShelves byShelf entries order).2 = (order.flatMap inner.occupants).foldl collect entries := by
  induction order generalizing byShelf entries with
  | nil => rfl
  | cons shelf rest ih =>
    rw [List.flatMap_cons,List.foldl_append]
    unfold drainShelves
    split
    · rename_i occupants there
      have here : inner.occupants shelf = occupants := by
        rcases left shelf with same | ⟨none_,-⟩
        · exact occupants_some (same ▸ there)
        · rw [none_] at there
          cases there
      rw [here]
      apply ih
      intro x
      rw [get_erase]
      by_cases same : x = shelf
      · subst same
        rw [if_pos rfl,here]
        exact .inr ⟨rfl,fun e member => (mem_collect _ _).mpr (.inr member)⟩
      · rw [if_neg same]
        exact (left x).imp id fun gone => ⟨gone.1,fun e member => (mem_collect _ _).mpr (.inl (gone.2 e member))⟩
    · rename_i none_
      have known : ∀ e ∈ inner.occupants shelf,e ∈ entries := by
        rcases left shelf with same | ⟨-,known⟩
        · intro e member
          rw [RouterInner.occupants,← same,none_] at member
          cases member
        · exact known
      rw [collect_known known]
      exact ih left

theorem drain_listing (inner : RouterInner) :
    (drainInReverseAdmissionOrder inner).2 = listing inner.occupants inner.admissionOrder.reverse := by
  have drained : (drainShelves inner.byShelf [] inner.admissionOrder.reverse).2 =
      (inner.admissionOrder.reverse.flatMap inner.occupants).foldl collect [] := drainShelves_entries inner _ fun _ => .inl rfl
  rw [collect_all] at drained
  simpa [drainInReverseAdmissionOrder,listing] using drained

structure Tracked where
  router : RouterInner
  admitted : List PluginEntry

def Tracked.new : Tracked := ⟨.new,[]⟩

def track (t : Tracked) : Action → Tracked
  | .insert entry =>
    ⟨(insert t.router entry).1,if (insert t.router entry).2 = none then t.admitted++[entry] else t.admitted⟩
  | .remove shelf =>
    ⟨(remove t.router shelf).1,
      match (remove t.router shelf).2 with
      | some evicted => t.admitted.erase evicted
      | none => t.admitted⟩
  | .replaceInPlace shelf entry =>
    ⟨(replaceInPlace t.router shelf entry).1,
      match (replaceInPlace t.router shelf entry).2 with
      | some previous => t.admitted.map fun e => if e = previous then entry else e
      | none => t.admitted⟩
  | .drain => ⟨(drainInReverseAdmissionOrder t.router).1,[]⟩

-- A plugin is inserted under a name of its own, and replaced by one of its name and stockings.
def Called (t : Tracked) : Action → Prop
  | .insert entry => ∀ e ∈ t.admitted,e.name ≠ entry.name
  | .replaceInPlace shelf entry => ∃ previous,(replaceInPlace t.router shelf entry).2 = some previous ∧
    entry.name = previous.name ∧ entry.stockings = previous.stockings
  | _ => True

structure Tracks (t : Tracked) : Prop where
  listed : ∀ shelf entry,entry ∈ t.router.occupants shelf ↔ entry ∈ t.admitted ∧ shelf ∈ entry.homes
  ordered : entriesInOrder t.router = t.admitted
  drained : (drainInReverseAdmissionOrder t.router).2 = t.admitted.reverse
  emptied : (drainInReverseAdmissionOrder t.router).1.admissionOrder = [] ∧
    ∀ shelf,get (drainInReverseAdmissionOrder t.router).1.byShelf shelf = none

structure Firm (t : Tracked) : Prop where
  listed : ∀ shelf entry,entry ∈ t.router.occupants shelf ↔ entry ∈ t.admitted ∧ shelf ∈ entry.homes
  ordered : listing t.router.occupants t.router.admissionOrder = t.admitted
  drained : listing t.router.occupants t.router.admissionOrder.reverse = t.admitted.reverse
  noEmpty : NoEmpty t.router
  keys : ∀ shelf,shelf ∈ t.router.admissionOrder ↔ t.router.occupants shelf ≠ []
  named : (t.admitted.map PluginEntry.name).Nodup
  single : ∀ shelf,((t.router.occupants shelf).map PluginEntry.name).Nodup

theorem firm_tracks {t : Tracked} (firm : Firm t) : Tracks t := by
  refine ⟨firm.listed,firm.ordered,(drain_listing t.router).trans firm.drained,rfl,?_⟩
  intro shelf
  rw [get_drain]
  split
  · rfl
  · rename_i outside
    rw [firm.keys,not_not] at outside
    cases there : get t.router.byShelf shelf with
    | none => rfl
    | some occupants =>
      rw [occupants_some there] at outside
      exact absurd (outside ▸ there) (firm.noEmpty shelf)

def Passes (inner : RouterInner) (entry : PluginEntry) : Prop :=
  if entry.stockings = [] then inner.occupants entry.shelf = [] else ∀ s ∈ entry.stockings,¬Clashes inner s

theorem insert_passes (noEmpty : NoEmpty inner) (passes : Passes inner entry) :
    (insert inner entry).2 = none ∧ (insert inner entry).1.admissionOrder = inner.admissionOrder++entry.homes ∧
      (insert inner entry).1.occupants = extended inner.occupants entry.homes entry := by
  unfold Passes at passes
  by_cases bare : entry.stockings = []
  · rw [if_pos bare] at passes
    have absent : get inner.byShelf entry.shelf = none := by
      cases there : get inner.byShelf entry.shelf with
      | none => rfl
      | some occupants =>
        rw [occupants_some there] at passes
        exact absurd (passes ▸ there) (noEmpty entry.shelf)
    have result : insert inner entry = (⟨inner.byShelf.insert entry.shelf [entry],inner.admissionOrder++[entry.shelf]⟩,none) := by
      simp [insert,bare,absent]
    rw [result]
    refine ⟨rfl,by simp [PluginEntry.homes,bare],?_⟩
    funext x
    unfold extended PluginEntry.homes RouterInner.occupants
    simp only [bare,if_true,List.mem_singleton,get_insert]
    by_cases same : x = entry.shelf
    · simp [same,absent]
    · simp [same]
  · rw [if_neg bare] at passes
    have homes : entry.homes = entry.shelves := if_neg bare
    rcases insert_cases inner bare with ⟨-,result⟩ | ⟨before,s,_,_,shape,-,refused,-⟩
    · rw [result,homes]
      refine ⟨rfl,occupyAll_order,?_⟩
      funext x
      exact occupants_occupyAll
    · exact absurd refused (passes s (by simp [shape]))

theorem insert_refused (noEmpty : NoEmpty inner) (outside : ∀ x,entry ∉ inner.occupants x) (refuses : ¬Passes inner entry) :
    (insert inner entry).2 ≠ none ∧ Unchanged inner (insert inner entry).1 := by
  unfold Passes at refuses
  by_cases bare : entry.stockings = []
  · rw [if_pos bare] at refuses
    have taken : (get inner.byShelf entry.shelf).isSome := by
      unfold RouterInner.occupants at refuses
      cases there : get inner.byShelf entry.shelf with
      | none => simp [there] at refuses
      | some occupants => rfl
    have result : insert inner entry = (inner,some (.occupied entry.name entry.shelf)) := by simp [insert,bare,taken]
    rw [result]
    exact ⟨by simp,fun _ => rfl,rfl⟩
  · rw [if_neg bare] at refuses
    rcases insert_cases inner bare with ⟨passed,-⟩ | ⟨before,s,after,error,shape,-,-,result⟩
    · exact absurd passed refuses
    · have apart := shelves_apart entry
      rw [PluginEntry.shelves,shape,List.map_append] at apart
      rw [result]
      exact ⟨by simp,(rolled_exact noEmpty (List.nodup_append.mp apart).1).mpr fun x _ => outside x⟩

theorem unchanged_occupants (same : Unchanged inner after) : after.occupants = inner.occupants := by
  funext x
  unfold RouterInner.occupants
  rw [same.1]

theorem named_eq {t : Tracked} {e : PluginEntry} (firm : Firm t) (first : entry ∈ t.admitted) (second : e ∈ t.admitted) :
    entry.name = e.name → entry = e := List.inj_on_of_nodup_map firm.named first second

-- An entry that is let in comes last in the order and first in the drain: its last shelf is
-- free, its shelves from the last to the first hold the latest plugins, latest first, and
-- wherever the order already names a shelf of its own, every plugin has been named.
structure Trails (t : Tracked) (entry : PluginEntry) : Prop where
  free : ∀ shelf ∈ entry.homes.getLast?,t.router.occupants shelf = []
  recent : listing t.router.occupants entry.homes.reverse <+: t.admitted.reverse
  settled : Settled t.router.occupants t.router.admissionOrder entry.homes

theorem extended_reverse (items : String → List PluginEntry) (keys : List String) : extended items keys.reverse entry = extended items keys entry := by
  funext x
  simp [extended]

section
variable {t : Tracked}

theorem fresh_outside (firm : Firm t) (fresh : ∀ e ∈ t.admitted,e.name ≠ entry.name) (x : String) :
    entry ∉ t.router.occupants x := fun member => fresh entry ((firm.listed x entry).mp member).1 rfl

theorem passed_track (firm : Firm t) (passes : Passes t.router entry) :
    (track t (.insert entry)).admitted = t.admitted++[entry] ∧
    (track t (.insert entry)).router.admissionOrder = t.router.admissionOrder++entry.homes ∧
    (track t (.insert entry)).router.occupants = extended t.router.occupants entry.homes entry := by
  obtain ⟨ok,order,occupants⟩ := insert_passes firm.noEmpty passes
  exact ⟨if_pos ok,order,occupants⟩

theorem passed_exact (firm : Firm t) (fresh : ∀ e ∈ t.admitted,e.name ≠ entry.name)
    (passes : Passes t.router entry) : entriesInOrder (track t (.insert entry)).router = t.admitted++[entry] ∧
    (drainInReverseAdmissionOrder (track t (.insert entry)).router).2 = (t.admitted++[entry]).reverse ↔ Trails t entry := by
  obtain ⟨-,order,occupants⟩ := passed_track firm passes
  have outside := fresh_outside firm fresh
  have known : ∀ key ∈ entry.homes,∀ a ∈ t.router.occupants key,a ∈ listing t.router.occupants t.router.admissionOrder := by
    intro key _ a member
    rw [firm.ordered]
    exact ((firm.listed key a).mp member).1
  have newest := listing_newest outside (homes_some entry) known
  have some_ : entry.homes.reverse ≠ [] := by simpa using homes_some entry
  have oldest := listing_oldest t.router.admissionOrder.reverse outside some_
  rw [drain_listing,entriesInOrder,← listing,order,occupants,List.reverse_append,List.reverse_append,List.reverse_singleton,
    List.singleton_append,← firm.ordered,newest]
  rw [extended_reverse,List.head?_reverse] at oldest
  rw [firm.ordered,← firm.drained,oldest,firm.drained]
  constructor
  · rintro ⟨settled,free,recent⟩
    exact ⟨free,recent,settled⟩
  · intro trails
    exact ⟨trails.settled,trails.free,trails.recent⟩

theorem passed_firm (firm : Firm t) (fresh : ∀ e ∈ t.admitted,e.name ≠ entry.name)
    (passes : Passes t.router entry) (trails : Trails t entry) : Firm (track t (.insert entry)) := by
  obtain ⟨admitted,order,occupants⟩ := passed_track firm passes
  obtain ⟨ordered,drained⟩ := (passed_exact firm fresh passes).mpr trails
  rw [drain_listing] at drained
  have outside := fresh_outside firm fresh
  have held : ∀ shelf e,e ∈ extended t.router.occupants entry.homes entry shelf ↔
      e ∈ t.router.occupants shelf ∨ e = entry ∧ shelf ∈ entry.homes := by
    intro shelf e
    unfold extended
    split
    · rename_i mine
      simp [mine]
    · rename_i other
      simp [other]
  constructor
  · intro shelf e
    rw [occupants,admitted,held,firm.listed,List.mem_append,List.mem_singleton]
    constructor
    · rintro (⟨old,home⟩ | ⟨rfl,home⟩)
      · exact ⟨.inl old,home⟩
      · exact ⟨.inr rfl,home⟩
    · rintro ⟨old | rfl,home⟩
      · exact .inl ⟨old,home⟩
      · exact .inr ⟨rfl,home⟩
  · rw [admitted]
    exact ordered
  · rw [admitted]
    exact drained
  · exact insert_noEmpty firm.noEmpty entry
  · intro shelf
    rw [order,occupants,List.mem_append,firm.keys]
    unfold extended
    split
    · rename_i mine
      simp [mine]
    · rename_i other
      simp [other]
  · rw [admitted,List.map_append,List.nodup_append]
    refine ⟨firm.named,List.nodup_singleton _,?_⟩
    intro name old other new
    obtain ⟨e,member,rfl⟩ := List.mem_map.mp old
    cases List.mem_singleton.mp new
    exact fresh e member
  · intro shelf
    rw [occupants]
    unfold extended
    split
    · rw [List.map_append,List.nodup_append]
      refine ⟨firm.single shelf,List.nodup_singleton _,?_⟩
      intro name old other new
      obtain ⟨e,member,rfl⟩ := List.mem_map.mp old
      cases List.mem_singleton.mp new
      exact fresh e ((firm.listed shelf e).mp member).1
    · exact firm.single shelf

theorem refused_firm (firm : Firm t) (fresh : ∀ e ∈ t.admitted,e.name ≠ entry.name)
    (refuses : ¬Passes t.router entry) : Firm (track t (.insert entry)) := by
  obtain ⟨error,same⟩ := insert_refused firm.noEmpty (fresh_outside firm fresh) refuses
  have admitted : (track t (.insert entry)).admitted = t.admitted := if_neg error
  have occupants : (track t (.insert entry)).router.occupants = t.router.occupants := unchanged_occupants same
  have order : (track t (.insert entry)).router.admissionOrder = t.router.admissionOrder := same.2
  constructor
  · rw [occupants,admitted]
    exact firm.listed
  · rw [occupants,order,admitted]
    exact firm.ordered
  · rw [occupants,order,admitted]
    exact firm.drained
  · exact insert_noEmpty firm.noEmpty entry
  · rw [occupants,order]
    exact firm.keys
  · rw [admitted]
    exact firm.named
  · rw [occupants]
    exact firm.single

end

-- The order loses the shelves that an eviction leaves without occupants.
def gone (plugin : String) (inner : RouterInner) (x : String) : Bool :=
  (get inner.byShelf x).isSome && ((get inner.byShelf x).bind (kept (·.name ≠ plugin))).isNone

theorem evict_order (plugin : String) (inner : RouterInner) (shelf : String) : (evict plugin inner shelf).admissionOrder =
    inner.admissionOrder.filter fun x => !(x = shelf && gone plugin inner shelf) := by
  unfold evict gone
  cases there : get inner.byShelf shelf with
  | none => simp
  | some occupants =>
    simp only [Option.isSome_some,Option.bind_some,Bool.true_and]
    cases left : kept (fun e => decide (e.name ≠ plugin)) occupants with
    | none => simp
    | some _ => simp

theorem gone_evict (plugin : String) (inner : RouterInner) (shelf x : String) : gone plugin (evict plugin inner shelf) x =
    (x ≠ shelf && gone plugin inner x) := by
  unfold gone
  rw [get_evict]
  by_cases same : x = shelf
  · subst same
    rw [if_pos rfl,kept_again]
    cases (get inner.byShelf x).bind (kept fun e => decide (e.name ≠ plugin)) <;> simp
  · simp [same]

theorem evictAll_order (plugin : String) (inner : RouterInner) (shelves : List String) :
    (shelves.foldl (evict plugin) inner).admissionOrder = inner.admissionOrder.filter fun x => !(x ∈ shelves && gone plugin inner x) := by
  induction shelves generalizing inner with
  | nil => simp
  | cons shelf rest ih =>
    rw [List.foldl_cons,ih,evict_order,List.filter_filter]
    apply List.filter_congr
    intro x _
    rw [gone_evict]
    by_cases same : x = shelf
    · subst same
      simp
    · simp [same]

section
variable {t : Tracked}

theorem first_home (entry : PluginEntry) (mine : shelf ∈ entry.homes) (x : String) : x ∈ entry.homes ↔ x ∈ entry.shelves++[shelf] := by
  unfold PluginEntry.homes PluginEntry.shelves at *
  split at mine
  · rename_i bare
    cases List.mem_singleton.mp mine
    simp [bare]
  · rename_i full
    simp only [full,if_false,List.mem_append,List.mem_singleton]
    constructor
    · exact .inl
    · rintro (inside | rfl)
      · exact inside
      · exact mine

theorem remove_parts (firm : Firm t) (found : lookup t.router shelf = some entry) :
    entry ∈ t.admitted ∧
    (remove t.router shelf).1.occupants = (fun x => (t.router.occupants x).filter fun e => e ≠ entry) ∧
    (remove t.router shelf).1.admissionOrder =
      t.router.admissionOrder.filter fun x => ((t.router.occupants x).filter fun e => e ≠ entry) ≠ [] := by
  have here : entry ∈ t.router.occupants shelf := by
    obtain ⟨occupants,there,first⟩ := Option.bind_eq_some_iff.mp found
    rw [occupants_some there]
    exact List.mem_of_mem_head? first
  obtain ⟨mine,home⟩ := (firm.listed shelf entry).mp here
  have result : remove t.router shelf = ((entry.shelves++[shelf]).foldl (evict entry.name) t.router,some entry) := by
    unfold remove
    rw [found]
  -- Names tell the admitted apart, so that the name and the entry leave the same.
  have byName : ∀ x,(t.router.occupants x).filter (fun e => decide (e.name ≠ entry.name)) =
      (t.router.occupants x).filter fun e => decide (e ≠ entry) := by
    intro x
    apply List.filter_congr
    intro e member
    have known := ((firm.listed x e).mp member).1
    by_cases same : e = entry
    · simp [same]
    · have other : e.name ≠ entry.name := fun name => same (named_eq firm known mine name)
      simp [same,other]
  have elsewhere : ∀ x,x ∉ entry.shelves++[shelf] → (t.router.occupants x).filter (fun e => decide (e ≠ entry)) = t.router.occupants x := by
    intro x outside
    rw [List.filter_eq_self]
    intro e member
    have other : e ≠ entry := by
      rintro rfl
      exact outside ((first_home e home x).mp ((firm.listed x e).mp member).2)
    simpa using other
  have left : ∀ x,((get t.router.byShelf x).bind (kept fun e => decide (e.name ≠ entry.name))).getD [] =
      (t.router.occupants x).filter fun e => decide (e ≠ entry) := by
    intro x
    rw [← byName]
    unfold RouterInner.occupants kept
    cases get t.router.byShelf x with
    | none => rfl
    | some occupants =>
      simp only [Option.bind_some,Option.getD_some]
      split
      · rename_i nothing
        rw [nothing]
        rfl
      · rfl
  refine ⟨mine,?_,?_⟩
  · funext x
    rw [result,RouterInner.occupants,get_evictAll]
    split
    · exact left x
    · rename_i outside
      exact (elsewhere x outside).symm
  · rw [result,evictAll_order]
    apply List.filter_congr
    intro x member
    have full := (firm.keys x).mp member
    by_cases inside : x ∈ entry.shelves++[shelf]
    · have there := left x
      simp only [inside,decide_true,Bool.true_and,gone]
      unfold RouterInner.occupants at full there ⊢
      cases found : get t.router.byShelf x with
      | none => simp [found] at full
      | some occupants =>
        rw [found] at there
        simp only [Option.isSome_some,Option.bind_some,Bool.true_and,Option.getD_some] at there ⊢
        cases after : kept (fun e => decide (e.name ≠ entry.name)) occupants with
        | none =>
          rw [after,Option.getD_none] at there
          simp only [← there]
          simp
        | some rest =>
          rw [after,Option.getD_some] at there
          simp only [← there]
          simp [(kept_some after).2]
    · rw [elsewhere x inside]
      simp [inside,full]

theorem remove_firm (firm : Firm t) (shelf : String) : Firm (track t (.remove shelf)) := by
  cases found : lookup t.router shelf with
  | none =>
    have same : track t (.remove shelf) = t := by simp [track,remove,found]
    rw [same]
    exact firm
  | some entry =>
    obtain ⟨mine,occupants,order⟩ := remove_parts firm found
    have evicted : (remove t.router shelf).2 = some entry := by simp [remove,found]
    have admitted : (track t (.remove shelf)).admitted = t.admitted.filter fun e => e ≠ entry := by
      have apart : t.admitted.Nodup := List.Nodup.of_map _ firm.named
      unfold track
      dsimp only
      rw [evicted]
      dsimp only
      rw [apart.erase_eq_filter]
      apply List.filter_congr
      intro e _
      by_cases same : e = entry <;> simp [same]
    have occupants' : (track t (.remove shelf)).router.occupants = fun x => (t.router.occupants x).filter fun e => e ≠ entry := occupants
    have order' : (track t (.remove shelf)).router.admissionOrder =
      t.router.admissionOrder.filter fun x => ((t.router.occupants x).filter fun e => e ≠ entry) ≠ [] := order
    have idle : ∀ keys : List String,∀ x ∈ keys,decide (((t.router.occupants x).filter fun e => decide (e ≠ entry)) ≠ []) = false →
        ((t.router.occupants x).filter fun e => decide (e ≠ entry)) = [] := by
      intro keys x _ none_
      simpa using none_
    constructor
    · intro x e
      rw [occupants',admitted,List.mem_filter,List.mem_filter,firm.listed]
      tauto
    · rw [occupants',order',admitted,listing_prune _ (idle _),listing_filter,firm.ordered]
    · rw [occupants',order',admitted,← List.filter_reverse,listing_prune _ (idle _),listing_filter,firm.drained,List.filter_reverse]
    · exact thins_noEmpty (remove_thins t.router shelf) firm.noEmpty
    · intro x
      rw [occupants',order',List.mem_filter,firm.keys,decide_eq_true_iff]
      refine ⟨And.right,fun left => ⟨?_,left⟩⟩
      intro none_
      exact left (by simp [none_])
    · rw [admitted]
      exact firm.named.sublist (List.filter_sublist.map _)
    · intro x
      rw [occupants']
      exact (firm.single x).sublist (List.filter_sublist.map _)

end

theorem set_map {occupants : List PluginEntry} {pos : Nat} (apart : occupants.Nodup) (there : occupants[pos]? = some previous) :
    occupants.set pos entry = occupants.map fun e => if e = previous then entry else e := by
  obtain ⟨bound,at_⟩ := List.getElem?_eq_some_iff.mp there
  apply List.ext_getElem?
  intro j
  rw [List.getElem?_set,List.getElem?_map]
  by_cases same : pos = j
  · subst same
    simp [bound,at_]
  · rw [if_neg same]
    cases other : occupants[j]? with
    | none => rfl
    | some e =>
      obtain ⟨bound',here⟩ := List.getElem?_eq_some_iff.mp other
      have apart_ : e ≠ previous := by
        rintro rfl
        exact same ((List.Nodup.getElem_inj_iff apart).mp (at_.trans here.symm))
      simp [apart_]

theorem replace_parts (found : (replaceInPlace inner shelf entry).2 = some previous) :
    previous.name = entry.name ∧ (replaceInPlace inner shelf entry).1.admissionOrder = inner.admissionOrder ∧
    ∃ pos,(inner.occupants shelf)[pos]? = some previous ∧
      ∀ x,(replaceInPlace inner shelf entry).1.occupants x = if x = shelf then (inner.occupants shelf).set pos entry else inner.occupants x := by
  unfold replaceInPlace at found ⊢
  dsimp only at found ⊢
  cases which : (inner.occupants shelf).findIdx? fun e => e.name = entry.name with
  | none =>
    rw [which] at found
    cases found
  | some pos =>
    rw [which] at found
    obtain ⟨bound,name,-⟩ := List.findIdx?_eq_some_iff_getElem.mp which
    obtain ⟨bound',at_⟩ := List.getElem?_eq_some_iff.mp found
    rw [at_] at name
    exact ⟨by simpa using name,rfl,pos,found,fun x => occupants_replaced _⟩

section
variable {t : Tracked}

theorem replaced_firm (firm : Firm t) (found : (replaceInPlace t.router shelf entry).2 = some previous)
    (stockings : entry.stockings = previous.stockings) (alone : entry ∈ t.router.occupants shelf ∨ entry.homes = [shelf]) :
    Firm (track t (.replaceInPlace shelf entry)) := by
  obtain ⟨name,order,pos,there,shelves⟩ := replace_parts found
  have here := List.mem_of_getElem? there
  obtain ⟨mine,home⟩ := (firm.listed shelf previous).mp here
  have homes : entry.homes = previous.homes := by
    rcases alone with again | only
    · rw [named_eq firm ((firm.listed shelf entry).mp again).1 mine name.symm]
    · unfold PluginEntry.homes PluginEntry.shelves at *
      rw [stockings] at only ⊢
      split
      · rename_i bare
        rw [if_pos bare] at only home
        rw [only,List.mem_singleton.mp home]
      · rfl
  have swapped : ∀ x,(replaceInPlace t.router shelf entry).1.occupants x =
      (t.router.occupants x).map fun e => if e = previous then entry else e := by
    intro x
    rw [shelves]
    split
    · rename_i same
      subst same
      exact set_map (List.Nodup.of_map _ (firm.single x)) there
    · rename_i other
      have still : (t.router.occupants x).map (fun e => if e = previous then entry else e) = (t.router.occupants x).map id := by
        apply List.map_congr_left
        intro e member
        by_cases same : e = previous
        · subst same
          rw [if_pos rfl]
          rcases alone with again | only
          · exact named_eq firm ((firm.listed shelf entry).mp again).1 mine name.symm
          · have inside := ((firm.listed x e).mp member).2
            rw [← homes,only,List.mem_singleton] at inside
            exact absurd inside other
        · exact if_neg same
      rw [still,List.map_id]
  have admitted : (track t (.replaceInPlace shelf entry)).admitted = t.admitted.map fun e => if e = previous then entry else e := by
    unfold track
    dsimp only
    rw [found]
  have occupants : (track t (.replaceInPlace shelf entry)).router.occupants =
      fun x => (t.router.occupants x).map fun e => if e = previous then entry else e := funext swapped
  have order' : (track t (.replaceInPlace shelf entry)).router.admissionOrder = t.router.admissionOrder := order
  have names : ∀ items : List PluginEntry,(items.map fun e => if e = previous then entry else e).map PluginEntry.name =
      items.map PluginEntry.name := by
    intro items
    rw [List.map_map]
    apply List.map_congr_left
    intro e _
    by_cases same : e = previous
    · simp [same,name]
    · simp [same]
  have apart : ∀ a ∈ t.admitted,∀ b ∈ t.admitted,(if a = previous then entry else a) = (if b = previous then entry else b) → a = b := by
    intro a first b second equal
    have named_ := congrArg PluginEntry.name equal
    apply named_eq firm first second
    have one := names [a]
    have two := names [b]
    simp only [List.map_cons,List.map_nil,List.cons.injEq,and_true] at one two
    rw [← one,← two,named_]
  constructor
  · intro x e
    rw [occupants,admitted,List.mem_map,List.mem_map]
    constructor
    · rintro ⟨a,member,rfl⟩
      obtain ⟨known,inside⟩ := (firm.listed x a).mp member
      refine ⟨⟨a,known,rfl⟩,?_⟩
      split
      · rename_i same
        rw [homes,← same]
        exact inside
      · exact inside
    · rintro ⟨⟨a,known,rfl⟩,inside⟩
      refine ⟨a,(firm.listed x a).mpr ⟨known,?_⟩,rfl⟩
      split at inside
      · rename_i same
        rw [same,← homes]
        exact inside
      · exact inside
  · rw [occupants,order',admitted,← firm.ordered]
    apply listing_map
    rw [firm.ordered]
    exact apart
  · rw [occupants,order',admitted,← List.map_reverse,← firm.drained]
    apply listing_map
    rw [firm.drained]
    simpa using apart
  · exact replace_noEmpty firm.noEmpty shelf entry
  · intro x
    rw [occupants,order',firm.keys]
    simp
  · rw [admitted,names]
    exact firm.named
  · intro x
    rw [occupants,names]
    exact firm.single x

theorem replaced_needs (firm : Firm t) (found : (replaceInPlace t.router shelf entry).2 = some previous)
    (tracks : Tracks (track t (.replaceInPlace shelf entry))) : entry ∈ t.router.occupants shelf ∨ entry.homes = [shelf] := by
  obtain ⟨name,-,pos,there,shelves⟩ := replace_parts found
  have here := List.mem_of_getElem? there
  have bound := (List.getElem?_eq_some_iff.mp there).1
  have swapped : entry ∈ (track t (.replaceInPlace shelf entry)).router.occupants shelf := by
    change entry ∈ (replaceInPlace t.router shelf entry).1.occupants shelf
    rw [shelves,if_pos rfl]
    exact List.mem_set bound entry
  obtain ⟨admitted,home⟩ := (tracks.listed shelf entry).mp swapped
  by_cases only : ∀ x ∈ entry.homes,x = shelf
  · right
    have apart := homes_apart entry
    cases shape : entry.homes with
    | nil => exact absurd shape (homes_some entry)
    | cons first rest =>
      rw [shape] at only apart
      cases rest with
      | nil => rw [only first List.mem_cons_self]
      | cons second _ =>
        rw [only first (by simp),only second (by simp)] at apart
        simp at apart
  · left
    push Not at only
    obtain ⟨x,inside,other⟩ := only
    have still := (tracks.listed x entry).mpr ⟨admitted,inside⟩
    change entry ∈ (replaceInPlace t.router shelf entry).1.occupants x at still
    rw [shelves,if_neg other] at still
    rw [named_eq firm ((firm.listed x entry).mp still).1 ((firm.listed shelf previous).mp here).1 name.symm]
    exact here

def Keeps (t : Tracked) : Action → Prop
  | .insert entry => Passes t.router entry → Trails t entry
  | .replaceInPlace shelf entry => entry ∈ t.router.occupants shelf ∨ entry.homes = [shelf]
  | _ => True

theorem empty_firm (none_ : ∀ x,get inner.byShelf x = none) (order : inner.admissionOrder = []) : Firm ⟨inner,[]⟩ := by
  have bare : inner.occupants = fun _ => [] := by
    funext x
    simp [RouterInner.occupants,none_]
  constructor
  · intro x e
    simp [bare]
  · simp [order,listing]
  · simp [order,listing]
  · intro x there
    rw [none_] at there
    cases there
  · intro x
    simp [bare,order]
  · exact .nil
  · intro x
    simp [bare]

theorem step_firm (t : Tracked) (a : Action) (firm : Firm t) (called : Called t a) (keeps : Keeps t a) : Firm (track t a) := by
  cases a with
  | insert entry =>
    by_cases passes : Passes t.router entry
    · exact passed_firm firm called passes (keeps passes)
    · exact refused_firm firm called passes
  | remove shelf => exact remove_firm firm shelf
  | replaceInPlace shelf entry =>
    obtain ⟨previous,found,-,stockings⟩ := called
    exact replaced_firm firm found stockings keeps
  | drain =>
    obtain ⟨order,none_⟩ := (firm_tracks firm).emptied
    exact empty_firm none_ order

theorem step_needs (t : Tracked) (a : Action) (firm : Firm t) (called : Called t a) (tracks : Tracks (track t a)) : Keeps t a := by
  cases a with
  | insert entry =>
    intro passes
    have admitted := (passed_track firm passes).1
    exact (passed_exact firm called passes).mp ⟨tracks.ordered.trans admitted,tracks.drained.trans (congrArg List.reverse admitted)⟩
  | remove shelf => trivial
  | replaceInPlace shelf entry =>
    obtain ⟨previous,found,-,-⟩ := called
    exact replaced_needs firm found tracks
  | drain => trivial

theorem table_exact (actions : List Action) (called : Guarded track Called .new actions) :
    Throughout track Tracks .new actions ↔ Guarded track Keeps .new actions :=
  throughout_within Called Firm (fun _ => firm_tracks) step_firm step_needs (empty_firm (fun _ => get_empty) rfl) called

end

instance calledDecidable (t : Tracked) : (a : Action) → Decidable (Called t a)
  | .insert entry => inferInstanceAs (Decidable (∀ e ∈ t.admitted,e.name ≠ entry.name))
  | .remove _ => .isTrue trivial
  | .replaceInPlace shelf entry =>
    match found : (replaceInPlace t.router shelf entry).2 with
    | some previous =>
      decidable_of_iff (entry.name = previous.name ∧ entry.stockings = previous.stockings)
        ⟨fun alike => ⟨previous,found,alike⟩,fun ⟨_,there,alike⟩ => Option.some.inj (found.symm.trans there) ▸ alike⟩
    | none => .isFalse fun ⟨_,there,_⟩ => nomatch found.symm.trans there
  | .drain => .isTrue trivial

def spotify : PluginEntry := ⟨1,"com.spotify","metadata.providers",[⟨"metadata.providers",.respondent,["query"]⟩],by decide⟩
def output : PluginEntry := ⟨2,"com.output","audio.output",[⟨"audio.output",.warden,["play"]⟩],by decide⟩
def lyrics : PluginEntry := ⟨3,"com.lyrics","metadata.providers",[⟨"metadata.providers",.respondent,["lyrics"]⟩],by decide⟩

def shared : List Action := [.insert spotify,.insert output,.insert lyrics]

def artwork (address : Nat) : PluginEntry :=
  ⟨address,"com.artwork","artwork.providers",
    [⟨"artwork.providers",.respondent,["artwork"]⟩,⟨"metadata.providers",.respondent,["cover"]⟩],by decide⟩

def reloaded : List Action := [.insert (artwork 4),.replaceInPlace "artwork.providers" (artwork 5)]

theorem shared_exact : Throughout track Tracks .new shared ↔ Guarded track Keeps .new shared := table_exact shared (by decide)

-- The third plugin is walked with the first, and after the reload the other shelf still has the
-- entry that was replaced.
theorem shared_misplaced :
    (Guarded track Called .new shared ∧ (run track .new shared).admitted = [spotify,output,lyrics] ∧
      entriesInOrder (run track .new shared).router = [spotify,lyrics,output] ∧
      (drainInReverseAdmissionOrder (run track .new shared).router).2 = [spotify,lyrics,output] ∧ ¬Tracks (run track .new shared)) ∧
    Guarded track Called .new reloaded ∧ (run track .new reloaded).admitted = [artwork 5] ∧
      (run track .new reloaded).router.occupants "metadata.providers" = [artwork 4] ∧ ¬Tracks (run track .new reloaded) := by
  have admitted : (run track .new shared).admitted = [spotify,output,lyrics] := by decide
  have order : entriesInOrder (run track .new shared).router = [spotify,lyrics,output] := by decide
  have current : (run track .new reloaded).admitted = [artwork 5] := by decide
  have stale : (run track .new reloaded).router.occupants "metadata.providers" = [artwork 4] := by decide
  refine ⟨⟨by decide,admitted,order,by decide,?_⟩,by decide,current,stale,?_⟩
  · intro tracks
    have same := tracks.ordered
    rw [admitted,order] at same
    exact absurd same (by decide)
  · intro tracks
    have known := ((tracks.listed "metadata.providers" (artwork 4)).mp (by rw [stale]; exact List.mem_cons_self)).1
    rw [current] at known
    exact absurd known (by decide)

end

end EvoCore.Router
