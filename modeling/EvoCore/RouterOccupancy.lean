import EvoCore.Router

namespace EvoCore.Router
open Tables Runs

section
variable {inner : RouterInner} {entry existing : PluginEntry} {stocking : Stocking} {shelf : String} {inserted shelves : List String}

def Owns (shelf verb : String) (entry : PluginEntry) : Prop := ∃ s,entry.stockingFor shelf = some s ∧ verb ∈ s.requestTypes

def Sole (shelf : String) (entry : PluginEntry) : Prop :=
  entry.stockings = [] ∨ ∃ s,entry.stockingFor shelf = some s ∧ s.role = .warden

structure Partitioned (inner : RouterInner) : Prop where
  owned : ∀ shelf occupants,get inner.byShelf shelf = some occupants → ∀ (verb : String) (i j : Nat) (a b : PluginEntry),occupants[i]? = some a →
    occupants[j]? = some b → Owns shelf verb a → Owns shelf verb b → i = j
  sole : ∀ shelf occupants,get inner.byShelf shelf = some occupants → ∀ entry ∈ occupants,Sole shelf entry → occupants = [entry]

def Beside (shelf : String) (a b : PluginEntry) : Prop :=
  ¬Sole shelf a ∧ ¬Sole shelf b ∧ ∀ verb,Owns shelf verb a → ¬Owns shelf verb b

theorem beside_symm {a b : PluginEntry} (beside : Beside shelf a b) : Beside shelf b a :=
  ⟨beside.2.1,beside.1,fun verb mine yours => beside.2.2 verb yours mine⟩

theorem partitioned_exact : Partitioned inner ↔ ∀ shelf occupants,get inner.byShelf shelf = some occupants → occupants.Pairwise (Beside shelf) := by
  constructor
  · intro parts shelf occupants there
    rw [List.pairwise_iff_getElem]
    intro i j hi hj before
    have alone : ∀ entry ∈ occupants,¬Sole shelf entry := by
      intro entry member sole
      have only := congrArg List.length (parts.sole shelf occupants there entry member sole)
      simp only [List.length_singleton] at only
      omega
    refine ⟨alone _ (List.getElem_mem hi),alone _ (List.getElem_mem hj),?_⟩
    intro verb mine yours
    have same := parts.owned shelf occupants there verb i j _ _ (List.getElem?_eq_getElem hi) (List.getElem?_eq_getElem hj) mine yours
    omega
  · intro each
    constructor
    · intro shelf occupants there verb i j a b ata atb mine yours
      obtain ⟨hi,rfl⟩ := List.getElem?_eq_some_iff.mp ata
      obtain ⟨hj,rfl⟩ := List.getElem?_eq_some_iff.mp atb
      have pairs := List.pairwise_iff_getElem.mp (each shelf occupants there)
      rcases Nat.lt_trichotomy i j with before | same | after
      · exact absurd yours ((pairs i j hi hj before).2.2 verb mine)
      · exact same
      · exact absurd mine ((pairs j i hj hi after).2.2 verb yours)
    · intro shelf occupants there entry member sole
      have pairs := each shelf occupants there
      cases occupants with
      | nil => cases member
      | cons first rest =>
        rw [List.pairwise_cons] at pairs
        rcases List.mem_cons.mp member with rfl | later
        · cases rest with
          | nil => rfl
          | cons second _ => exact absurd sole (pairs.1 second List.mem_cons_self).1
        · exact absurd sole (pairs.1 entry later).2.1

-- What the partition gate looks for.
def Clash (stocking : Stocking) (existing : PluginEntry) : Prop :=
  stocking.role = .warden ∨ ∃ s,existing.stockingFor stocking.shelf = some s ∧ (s.role = .warden ∨ ∃ verb ∈ s.requestTypes,verb ∈ stocking.requestTypes)

def Clashes (inner : RouterInner) (stocking : Stocking) : Prop := ∃ existing ∈ inner.occupants stocking.shelf,Clash stocking existing

theorem stockingOverlap_none : stockingOverlap stocking existing = none ↔ ¬Clash stocking existing := by
  unfold stockingOverlap Clash
  cases existing.stockingFor stocking.shelf with
  | none => simp
  | some s =>
    by_cases warden : s.role = .warden ∨ stocking.role = .warden
    · simp only [Option.map_some,Option.getD_some,warden,if_true,reduceCtorEq,false_iff,not_not]
      rcases warden with theirs | ours
      · exact .inr ⟨s,rfl,.inl theirs⟩
      · exact .inl ours
    · simp only [Option.map_some,Option.getD_some,warden,if_false,Option.map_eq_none_iff,List.find?_eq_none]
      simp only [not_or] at warden
      simp [warden]

theorem findSome_occupants {β : Type} (look : PluginEntry → Option β) :
    ((get inner.byShelf shelf).bind fun occupants => occupants.findSome? look) = none ↔ ∀ existing ∈ inner.occupants shelf,look existing = none := by
  unfold RouterInner.occupants
  cases get inner.byShelf shelf <;> simp [List.findSome?_eq_none_iff]

theorem overlapWith_none : overlapWith inner stocking = none ↔ ¬Clashes inner stocking := by
  unfold overlapWith Clashes
  rw [findSome_occupants]
  simp only [stockingOverlap_none,not_exists,not_and]

theorem wouldConflict_none : wouldConflictWithAdmission inner stocking.shelf stocking.role stocking.requestTypes = none ↔
    ¬Clashes inner stocking ∧ ∀ existing ∈ inner.occupants stocking.shelf,existing.stockings ≠ [] := by
  unfold wouldConflictWithAdmission Clashes
  rw [findSome_occupants]
  have each : ∀ existing : PluginEntry,admissionConflict stocking.shelf stocking.role stocking.requestTypes existing = none ↔
      ¬Clash stocking existing ∧ existing.stockings ≠ [] := by
    intro existing
    rw [← stockingOverlap_none]
    unfold admissionConflict stockingOverlap
    dsimp only
    split
    · simp
    · split
      · rename_i bare
        simp [bare]
      · rename_i full
        cases existing.stockingFor stocking.shelf <;> simp [full]
  simp only [each,not_exists,not_and]
  exact ⟨fun all => ⟨fun existing member => (all existing member).1,fun existing member => (all existing member).2⟩,
    fun all existing member => ⟨all.1 existing member,all.2 existing member⟩⟩

@[simp] theorem get_retainOccupants {keep : PluginEntry → Bool} (t : Table String (List PluginEntry)) :
    get (retainOccupants keep t shelf) x = if x = shelf then (get t shelf).bind (kept keep) else get t x := by
  unfold retainOccupants
  split
  · rename_i left found
    simp [found]
  · rename_i none_
    simp [none_]

theorem kept_again {keep : PluginEntry → Bool} (occupants : Option (List PluginEntry)) :
    (occupants.bind (kept keep)).bind (kept keep) = occupants.bind (kept keep) := by
  cases occupants with
  | none => rfl
  | some occupants =>
    have twice : (occupants.filter keep).filter keep = occupants.filter keep := by simp
    by_cases left : occupants.filter keep = []
    · simp only [Option.bind_some,kept,left,if_true,Option.bind_none]
    · simp only [Option.bind_some,kept,left,if_false,twice]

theorem retainAll_look {σ : Type} {keep : PluginEntry → Bool} (look : σ → String → Option (List PluginEntry)) (turn : σ → String → σ)
    (each : ∀ t shelf x,look (turn t shelf) x = if x = shelf then (look t shelf).bind (kept keep) else look t x)
    (t : σ) (shelves : List String) :
    look (shelves.foldl turn t) x = if x ∈ shelves then (look t x).bind (kept keep) else look t x := by
  induction shelves generalizing t with
  | nil => simp
  | cons first rest ih =>
    rw [List.foldl_cons,ih,each]
    by_cases same : x = first
    · subst same
      simp [kept_again]
    · simp [same]

theorem occupyAll_order : (shelves.foldl (occupy entry) inner).admissionOrder = inner.admissionOrder++shelves := by
  induction shelves generalizing inner with
  | nil => simp
  | cons first rest ih =>
    rw [List.foldl_cons,ih]
    simp [occupy]

theorem get_occupy : get (occupy entry inner shelf).byShelf x = if x = shelf then some (inner.occupants shelf++[entry]) else get inner.byShelf x :=
  get_insert _

theorem get_occupyAll (apart : shelves.Nodup) : get (shelves.foldl (occupy entry) inner).byShelf x =
    if x ∈ shelves then some (inner.occupants x++[entry]) else get inner.byShelf x := by
  induction shelves generalizing inner with
  | nil => simp
  | cons first rest ih =>
    rw [List.nodup_cons] at apart
    rw [List.foldl_cons,ih apart.2]
    unfold RouterInner.occupants
    rw [get_occupy]
    by_cases same : x = first
    · subst same
      simp [apart.1,RouterInner.occupants]
    · simp [same]

theorem removeLast_append (order rest : List String) (outside : shelf ∉ rest) : removeLast (order++shelf::rest) shelf = order++rest := by
  have behind : shelf ∉ rest.reverse := by simpa using outside
  unfold removeLast
  rw [List.reverse_append,List.reverse_cons,List.append_assoc,List.erase_append_right _ behind]
  simp

theorem removeLast_all (order : List String) (apart : shelves.Nodup) : shelves.foldl removeLast (order++shelves) = order := by
  induction shelves with
  | nil => simp
  | cons first rest ih =>
    rw [List.nodup_cons] at apart
    rw [List.foldl_cons,removeLast_append order rest apart.1,ih apart.2]

theorem rollback_parts : (shelves.foldl (rollback entry) inner).byShelf = shelves.foldl (retainOccupants (· ≠ entry)) inner.byShelf ∧
    (shelves.foldl (rollback entry) inner).admissionOrder = shelves.foldl removeLast inner.admissionOrder := by
  induction shelves generalizing inner with
  | nil => exact ⟨rfl,rfl⟩
  | cons first rest ih =>
    rw [List.foldl_cons,(ih).1,(ih).2]
    exact ⟨rfl,rfl⟩

def Unchanged (before after : RouterInner) : Prop :=
  (∀ shelf,get after.byShelf shelf = get before.byShelf shelf) ∧ after.admissionOrder = before.admissionOrder

def NoEmpty (inner : RouterInner) : Prop := ∀ shelf,get inner.byShelf shelf ≠ some []

theorem get_rolled (apart : shelves.Nodup) : get (shelves.foldl (rollback entry) (shelves.foldl (occupy entry) inner)).byShelf x =
    if x ∈ shelves then kept (· ≠ entry) (inner.occupants x) else get inner.byShelf x := by
  rw [rollback_parts.1,retainAll_look get (retainOccupants (· ≠ entry)) (fun t _ _ => get_retainOccupants t),get_occupyAll apart]
  have gone : (inner.occupants x++[entry]).filter (fun e => decide (e ≠ entry)) = (inner.occupants x).filter fun e => decide (e ≠ entry) := by
    simp
  split
  · simp only [Option.bind_some,kept,gone]
  · rfl

theorem rolled_order (apart : shelves.Nodup) :
    (shelves.foldl (rollback entry) (shelves.foldl (occupy entry) inner)).admissionOrder = inner.admissionOrder := by
  rw [rollback_parts.2,occupyAll_order,removeLast_all _ apart]

theorem kept_absent (outside : entry ∉ occupants) (full : occupants ≠ []) : kept (· ≠ entry) occupants = some occupants := by
  have whole : occupants.filter (fun e => decide (e ≠ entry)) = occupants := by
    rw [List.filter_eq_self]
    intro e member
    simpa using fun same : e = entry => outside (same ▸ member)
  unfold kept
  rw [whole,if_neg full]

-- The rollback takes the entry away wherever it is, and so also where it was before.
theorem rolled_exact (noEmpty : NoEmpty inner) (apart : shelves.Nodup) :
    Unchanged inner (shelves.foldl (rollback entry) (shelves.foldl (occupy entry) inner)) ↔ ∀ shelf ∈ shelves,entry ∉ inner.occupants shelf := by
  unfold Unchanged
  rw [rolled_order apart]
  simp only [get_rolled apart,and_true]
  constructor
  · intro same shelf member there
    have here := same shelf
    rw [if_pos member] at here
    unfold RouterInner.occupants at here there
    cases found : get inner.byShelf shelf with
    | none => simp [found] at there
    | some occupants =>
      rw [found] at here there
      unfold kept at here
      split at here
      · cases here
      · have left : entry ∈ occupants := there
        rw [← Option.some.inj here] at left
        simp at left
  · intro outside shelf
    split
    · rename_i member
      have absent := outside shelf member
      unfold RouterInner.occupants at absent ⊢
      cases found : get inner.byShelf shelf with
      | none => rfl
      | some occupants =>
        rw [found] at absent
        refine kept_absent absent ?_
        rintro rfl
        exact noEmpty shelf found
    · rfl

theorem overlapWith_occupy (other : shelf ≠ stocking.shelf) : overlapWith (occupy entry inner shelf) stocking = overlapWith inner stocking := by
  unfold overlapWith
  rw [get_occupy,if_neg other.symm]

theorem stockShelves_cases {stockings : List Stocking} (apart : (stockings.map Stocking.shelf).Nodup) :
    ((∀ s ∈ stockings,overlapWith inner s = none) ∧
      stockShelves entry inner inserted stockings = ((stockings.map Stocking.shelf).foldl (occupy entry) inner,none)) ∨
    ∃ before s after conflicting,stockings = before++s::after ∧ (∀ earlier ∈ before,overlapWith inner earlier = none) ∧
      overlapWith inner s = some conflicting ∧ stockShelves entry inner inserted stockings =
        ((inserted++before.map Stocking.shelf).foldl (rollback entry) ((before.map Stocking.shelf).foldl (occupy entry) inner),
          some (.occupiedBy entry.name s.shelf conflicting)) := by
  induction stockings generalizing inner inserted with
  | nil => exact .inl ⟨fun _ none_ => (nomatch none_),rfl⟩
  | cons first rest ih =>
    rw [List.map_cons,List.nodup_cons] at apart
    unfold stockShelves
    cases gate : overlapWith inner first with
    | some conflicting => exact .inr ⟨[],first,rest,conflicting,rfl,fun _ none_ => (nomatch none_),gate,by simp⟩
    | none =>
      have later : ∀ s ∈ rest,overlapWith (occupy entry inner first.shelf) s = overlapWith inner s := by
        intro s member
        exact overlapWith_occupy fun same => apart.1 (same ▸ List.mem_map_of_mem member)
      rcases @ih (occupy entry inner first.shelf) (inserted++[first.shelf]) apart.2 with
        ⟨passed,result⟩ | ⟨before,s,after,conflicting,shape,passed,refused,result⟩
      · refine .inl ⟨?_,result⟩
        intro s member
        rcases List.mem_cons.mp member with rfl | member
        · exact gate
        · rw [← later s member]
          exact passed s member
      · refine .inr ⟨first::before,s,after,conflicting,by rw [shape]; rfl,?_,?_,?_⟩
        · intro earlier member
          rcases List.mem_cons.mp member with rfl | member
          · exact gate
          · rw [← later earlier (by simp [shape,member])]
            exact passed earlier member
        · rw [← later s (by simp [shape])]
          exact refused
        · dsimp only
          rw [result]
          simp

theorem insert_cases (inner : RouterInner) (full : entry.stockings ≠ []) :
    ((∀ s ∈ entry.stockings,¬Clashes inner s) ∧ insert inner entry = (entry.shelves.foldl (occupy entry) inner,none)) ∨
    ∃ before s after error,entry.stockings = before++s::after ∧ (∀ earlier ∈ before,¬Clashes inner earlier) ∧ Clashes inner s ∧
      insert inner entry = ((before.map Stocking.shelf).foldl (rollback entry) ((before.map Stocking.shelf).foldl (occupy entry) inner),
        some error) := by
  have route : insert inner entry = stockShelves entry inner [] entry.stockings := by simp [insert,insertStockings,full]
  rw [route]
  rcases stockShelves_cases entry.apart with ⟨passed,result⟩ | ⟨before,s,after,conflicting,shape,passed,refused,result⟩
  · exact .inl ⟨fun s member => overlapWith_none.mp (passed s member),result⟩
  · refine .inr ⟨before,s,after,_,shape,fun earlier member => overlapWith_none.mp (passed earlier member),?_,result⟩
    by_contra calm
    rw [overlapWith_none.mpr calm] at refused
    cases refused

theorem get_evict {plugin : String} (inner : RouterInner) : get (evict plugin inner shelf).byShelf x =
    if x = shelf then (get inner.byShelf shelf).bind (kept (·.name ≠ plugin)) else get inner.byShelf x := by
  unfold evict
  split
  · rename_i none_
    by_cases same : x = shelf
    · simp [same,none_]
    · simp [same]
  · rename_i occupants there
    exact get_retainOccupants _

theorem get_evictAll {plugin : String} (inner : RouterInner) : get (shelves.foldl (evict plugin) inner).byShelf x =
    if x ∈ shelves then (get inner.byShelf x).bind (kept (·.name ≠ plugin)) else get inner.byShelf x :=
  retainAll_look (fun inner => get inner.byShelf) (evict plugin) (fun inner _ _ => get_evict inner) inner shelves

theorem get_drainShelves {entries : List PluginEntry} (byShelf : Table String (List PluginEntry)) (order : List String) :
    get (drainShelves byShelf entries order).1 x = if x ∈ order then none else get byShelf x := by
  induction order generalizing byShelf entries with
  | nil => simp [drainShelves]
  | cons shelf rest ih =>
    unfold drainShelves
    split
    · rw [ih,get_erase]
      by_cases same : x = shelf <;> simp [same]
    · rename_i none_
      rw [ih]
      by_cases same : x = shelf
      · simp [same,none_]
      · simp [same]

theorem get_drain (inner : RouterInner) : get (drainInReverseAdmissionOrder inner).1.byShelf x =
    if x ∈ inner.admissionOrder then none else get inner.byShelf x := by
  have drained : get (drainShelves inner.byShelf [] inner.admissionOrder.reverse).1 x =
      if x ∈ inner.admissionOrder.reverse then none else get inner.byShelf x := get_drainShelves _ _
  simpa [drainInReverseAdmissionOrder] using drained

theorem kept_some {keep : PluginEntry → Bool} (left : kept keep occupants = some after) : after = occupants.filter keep ∧ after ≠ [] := by
  unfold kept at left
  split at left
  · cases left
  · rename_i full
    cases left
    exact ⟨rfl,full⟩

theorem bind_kept {keep : PluginEntry → Bool} {there : Option (List PluginEntry)} (left : there.bind (kept keep) = some after) :
    after ≠ [] ∧ ∃ occupants,there = some occupants ∧ after.Sublist occupants := by
  obtain ⟨occupants,here,left⟩ := Option.bind_eq_some_iff.mp left
  obtain ⟨rfl,full⟩ := kept_some left
  exact ⟨full,occupants,here,List.filter_sublist⟩

def Thins (before after : RouterInner) : Prop :=
  ∀ shelf occupants,get after.byShelf shelf = some occupants → get before.byShelf shelf = some occupants ∨
    occupants ≠ [] ∧ ∃ old,get before.byShelf shelf = some old ∧ occupants.Sublist old

theorem thins_noEmpty (thins : Thins inner after) (noEmpty : NoEmpty inner) : NoEmpty after := by
  intro shelf there
  rcases thins shelf [] there with same | ⟨full,-⟩
  · exact noEmpty shelf same
  · exact full rfl

theorem thins_partitioned (thins : Thins inner after) (parts : Partitioned inner) : Partitioned after := by
  rw [partitioned_exact] at parts ⊢
  intro shelf occupants there
  rcases thins shelf occupants there with same | ⟨-,old,before,sub⟩
  · exact parts shelf occupants same
  · exact (parts shelf old before).sublist sub

theorem rolled_thins (apart : shelves.Nodup) : Thins inner (shelves.foldl (rollback entry) (shelves.foldl (occupy entry) inner)) := by
  intro shelf occupants there
  rw [get_rolled apart] at there
  split at there
  · unfold RouterInner.occupants at there
    cases before : get inner.byShelf shelf with
    | none =>
      rw [before] at there
      cases there
    | some old =>
      rw [before] at there
      obtain ⟨rfl,full⟩ := kept_some there
      exact .inr ⟨full,old,rfl,List.filter_sublist⟩
  · exact .inl there

theorem remove_thins (inner : RouterInner) (shelf : String) : Thins inner (remove inner shelf).1 := by
  intro x occupants there
  unfold remove at there
  split at there
  · exact .inl there
  · rw [get_evictAll] at there
    split at there
    · exact .inr (bind_kept there)
    · exact .inl there

theorem drain_thins (inner : RouterInner) : Thins inner (drainInReverseAdmissionOrder inner).1 := by
  intro shelf occupants there
  rw [get_drain] at there
  split at there
  · cases there
  · exact .inl there

-- An insert says what the pre-check says, and a refused one leaves no trace.
def Faithful (inner : RouterInner) (entry : PluginEntry) : Prop :=
  (entry.stockings ≠ [] → ((insert inner entry).2 = none ↔
    ∀ s ∈ entry.stockings,wouldConflictWithAdmission inner s.shelf s.role s.requestTypes = none)) ∧
  ((insert inner entry).2 ≠ none → Unchanged inner (insert inner entry).1)

def InsertFaithful (inner : RouterInner) : Action → Prop
  | .insert entry => Faithful inner entry
  | _ => True

-- An entry that clashes nowhere meets no legacy entry; one that clashes is not yet on the
-- shelves that come before its first clash.
def Admissible (inner : RouterInner) (entry : PluginEntry) : Prop :=
  ((∀ s ∈ entry.stockings,¬Clashes inner s) → ∀ s ∈ entry.stockings,∀ existing ∈ inner.occupants s.shelf,existing.stockings ≠ []) ∧
  ∀ before s after,entry.stockings = before++s::after → (∀ earlier ∈ before,¬Clashes inner earlier) → Clashes inner s →
    ∀ earlier ∈ before,entry ∉ inner.occupants earlier.shelf

def Fits (inner : RouterInner) (shelf : String) (entry : PluginEntry) : Prop :=
  match (inner.occupants shelf).findIdx? fun e => e.name = entry.name with
  | some pos => ∀ other ∈ (inner.occupants shelf).eraseIdx pos,Beside shelf entry other
  | none => True

def Respects (inner : RouterInner) : Action → Prop
  | .insert entry => Admissible inner entry
  | .replaceInPlace shelf entry => Fits inner shelf entry
  | _ => True

theorem occupants_some (there : get inner.byShelf shelf = some occupants) : inner.occupants shelf = occupants := by
  simp [RouterInner.occupants,there]

theorem pairwise_occupants : (∀ shelf occupants,get inner.byShelf shelf = some occupants → occupants.Pairwise (Beside shelf)) ↔
    ∀ shelf,(inner.occupants shelf).Pairwise (Beside shelf) := by
  constructor
  · intro each shelf
    unfold RouterInner.occupants
    cases there : get inner.byShelf shelf with
    | none => exact .nil
    | some occupants => exact each shelf occupants there
  · intro each shelf occupants there
    rw [← occupants_some there]
    exact each shelf

theorem partitioned_occupants : Partitioned inner ↔ ∀ shelf,(inner.occupants shelf).Pairwise (Beside shelf) :=
  partitioned_exact.trans pairwise_occupants

theorem stockingFor_mem (member : stocking ∈ entry.stockings) : entry.stockingFor stocking.shelf = some stocking := by
  have first : ∀ stockings : List Stocking,(stockings.map Stocking.shelf).Nodup → stocking ∈ stockings →
      stockings.find? (fun s => s.shelf = stocking.shelf) = some stocking := by
    intro stockings apart member
    induction stockings with
    | nil => cases member
    | cons head rest ih =>
      rw [List.map_cons,List.nodup_cons] at apart
      rcases List.mem_cons.mp member with rfl | later
      · simp
      · have other : head.shelf ≠ stocking.shelf := fun same => apart.1 (same ▸ List.mem_map_of_mem later)
        rw [List.find?_cons_of_neg (by simpa using other)]
        exact ih apart.2 later
  exact first entry.stockings entry.apart member

theorem beside_newcomer (member : stocking ∈ entry.stockings) (calm : ¬Clash stocking existing) :
    Beside stocking.shelf existing entry ↔ existing.stockings ≠ [] := by
  have mine := stockingFor_mem member
  unfold Clash at calm
  simp only [not_or,not_exists,not_and] at calm
  obtain ⟨role,free⟩ := calm
  constructor
  · intro beside bare
    exact beside.1 (.inl bare)
  · intro full
    refine ⟨?_,?_,?_⟩
    · rintro (bare | ⟨s,theirs,warden⟩)
      · exact full bare
      · exact (free s theirs).1 warden
    · rintro (bare | ⟨s,ours,warden⟩)
      · rw [bare] at member
        cases member
      · cases Option.some.inj (mine.symm.trans ours)
        exact role warden
    · rintro verb ⟨s,theirs,owned⟩ ⟨s',ours,claimed⟩
      cases Option.some.inj (mine.symm.trans ours)
      exact (free s theirs).2 verb owned claimed

theorem shelves_apart (entry : PluginEntry) : entry.shelves.Nodup := entry.apart

theorem mem_shelves (member : stocking ∈ entry.stockings) : stocking.shelf ∈ entry.shelves := List.mem_map_of_mem member

theorem occupants_occupyAll : (entry.shelves.foldl (occupy entry) inner).occupants shelf =
    if shelf ∈ entry.shelves then inner.occupants shelf++[entry] else inner.occupants shelf := by
  unfold RouterInner.occupants
  rw [get_occupyAll (shelves_apart entry)]
  split <;> rfl

theorem occupyAll_partitioned (parts : Partitioned inner) (calm : ∀ s ∈ entry.stockings,¬Clashes inner s) :
    Partitioned (entry.shelves.foldl (occupy entry) inner) ↔
      ∀ s ∈ entry.stockings,∀ existing ∈ inner.occupants s.shelf,existing.stockings ≠ [] := by
  rw [partitioned_occupants] at parts ⊢
  simp only [occupants_occupyAll]
  constructor
  · intro each s member existing there
    have here := each s.shelf
    rw [if_pos (mem_shelves member),List.pairwise_append] at here
    exact (beside_newcomer member fun clash => calm s member ⟨existing,there,clash⟩).mp (here.2.2 existing there entry List.mem_cons_self)
  · intro full shelf
    split
    · rename_i mine
      obtain ⟨s,member,rfl⟩ := List.mem_map.mp mine
      refine List.pairwise_append.mpr ⟨parts s.shelf,List.pairwise_singleton _ _,?_⟩
      intro existing there newcomer last
      cases List.mem_singleton.mp last
      exact (beside_newcomer member fun clash => calm s member ⟨existing,there,clash⟩).mpr (full s member existing there)
    · exact parts shelf

theorem occupyAll_noEmpty (noEmpty : NoEmpty inner) : NoEmpty (entry.shelves.foldl (occupy entry) inner) := by
  intro shelf there
  rw [get_occupyAll (shelves_apart entry)] at there
  split at there
  · simp at there
  · exact noEmpty shelf there

theorem first_unique {before after before' after' : List Stocking} {s s' : Stocking} (passed : ∀ earlier ∈ before,¬Clashes inner earlier)
    (passed' : ∀ earlier ∈ before',¬Clashes inner earlier) (refused : Clashes inner s) (refused' : Clashes inner s')
    (same : before++s::after = before'++s'::after') : before = before' := by
  induction before generalizing before' with
  | nil =>
    cases before' with
    | nil => rfl
    | cons head _ =>
      cases (List.cons.inj same).1
      exact absurd refused (passed' s List.mem_cons_self)
  | cons head rest ih =>
    cases before' with
    | nil =>
      cases (List.cons.inj same).1
      exact absurd refused' (passed s' List.mem_cons_self)
    | cons head' rest' =>
      obtain ⟨rfl,later⟩ := List.cons.inj same
      rw [ih (fun earlier member => passed earlier (List.mem_cons_of_mem _ member))
        (fun earlier member => passed' earlier (List.mem_cons_of_mem _ member)) later]

theorem insert_exact (noEmpty : NoEmpty inner) (parts : Partitioned inner) :
    Faithful inner entry ∧ Partitioned (insert inner entry).1 ↔ Admissible inner entry := by
  by_cases bare : entry.stockings = []
  · have free : Admissible inner entry := by
      constructor
      · intro _ s member
        rw [bare] at member
        cases member
      · intro before s after shape
        rw [bare] at shape
        cases before <;> cases shape
    refine iff_of_true ⟨⟨fun full => absurd bare full,?_⟩,?_⟩ free
    · intro refused
      unfold insert at refused ⊢
      rw [if_pos bare] at refused ⊢
      split at refused
      · rename_i taken
        rw [if_pos taken]
        exact ⟨fun _ => rfl,rfl⟩
      · exact absurd rfl refused
    · unfold insert
      rw [if_pos bare]
      split
      · exact parts
      · rw [partitioned_exact] at parts ⊢
        intro shelf occupants there
        rw [get_insert] at there
        split at there
        · cases there
          exact List.pairwise_singleton _ _
        · exact parts shelf occupants there
  · rcases insert_cases inner bare with ⟨calm,result⟩ | ⟨before,s,after,error,shape,passed,refused,result⟩
    · -- Nothing clashes: it all hangs on the legacy entries.
      have agrees : Faithful inner entry ↔
          ∀ s ∈ entry.stockings,∀ existing ∈ inner.occupants s.shelf,existing.stockings ≠ [] := by
        unfold Faithful
        rw [result]
        simp only [wouldConflict_none,ne_eq,bare,not_false_eq_true,true_implies,true_iff,not_true_eq_false,false_implies,and_true]
        exact ⟨fun all s member => (all s member).2,fun all s member => ⟨calm s member,all s member⟩⟩
      have admits : Admissible inner entry ↔
          ∀ s ∈ entry.stockings,∀ existing ∈ inner.occupants s.shelf,existing.stockings ≠ [] := by
        refine ⟨fun admissible => admissible.1 calm,fun full => ⟨fun _ => full,?_⟩⟩
        intro before s after shape _ clash
        exact absurd clash (calm s (by simp [shape]))
      rw [agrees,admits,result,occupyAll_partitioned parts calm,and_self]
    · -- Something clashes: the rollback has to bring back what was there.
      have apart : (before.map Stocking.shelf).Nodup := by
        have all := entry.apart
        rw [shape,List.map_append] at all
        exact (List.nodup_append.mp all).1
      have stays : Partitioned (insert inner entry).1 := by
        rw [result]
        exact thins_partitioned (rolled_thins apart) parts
      have agrees : Faithful inner entry ↔ ∀ earlier ∈ before,entry ∉ inner.occupants earlier.shelf := by
        unfold Faithful
        rw [result]
        have warned : ¬∀ s ∈ entry.stockings,wouldConflictWithAdmission inner s.shelf s.role s.requestTypes = none := by
          intro all
          exact (wouldConflict_none.mp (all s (by simp [shape]))).1 refused
        simp only [reduceCtorEq,warned,ne_eq,not_false_eq_true,true_implies,implies_true,true_and]
        rw [rolled_exact noEmpty apart]
        simp
      have admits : Admissible inner entry ↔ ∀ earlier ∈ before,entry ∉ inner.occupants earlier.shelf := by
        constructor
        · intro admissible
          exact admissible.2 before s after shape passed refused
        · intro outside
          refine ⟨fun calm => absurd refused (calm s (by simp [shape])),?_⟩
          intro before' s' after' shape' passed' refused' earlier member
          -- The first clash is in one place only.
          have same : before' = before := first_unique passed' passed refused' refused (shape'.symm.trans shape)
          exact outside earlier (same ▸ member)
      rw [agrees,admits]
      exact and_iff_left stays

theorem occupants_replaced (occupants : List PluginEntry) : RouterInner.occupants { inner with byShelf := inner.byShelf.insert shelf occupants } x =
    if x = shelf then occupants else inner.occupants x := by
  unfold RouterInner.occupants
  rw [get_insert]
  split <;> rfl

theorem pairwise_set {occupants : List PluginEntry} (bound : pos < occupants.length) : (occupants.set pos entry).Pairwise (Beside shelf) ↔
    (∀ other ∈ occupants.eraseIdx pos,Beside shelf entry other) ∧ (occupants.eraseIdx pos).Pairwise (Beside shelf) := by
  rw [List.set_eq_take_append_cons_drop,if_pos bound,List.pairwise_middle beside_symm,List.eraseIdx_eq_take_drop_succ,List.pairwise_cons]

theorem replace_exact (parts : Partitioned inner) : Partitioned (replaceInPlace inner shelf entry).1 ↔ Fits inner shelf entry := by
  unfold replaceInPlace Fits
  dsimp only
  rw [partitioned_occupants] at parts
  cases found : (inner.occupants shelf).findIdx? fun e => e.name = entry.name with
  | some pos =>
    have bound : pos < (inner.occupants shelf).length := (List.findIdx?_eq_some_iff_getElem.mp found).1
    dsimp only
    rw [partitioned_occupants]
    simp only [occupants_replaced]
    constructor
    · intro each
      have here := each shelf
      rw [if_pos rfl,pairwise_set bound] at here
      exact here.1
    · intro fits x
      by_cases same : x = shelf
      · subst same
        rw [if_pos rfl]
        exact (pairwise_set bound).mpr ⟨fits,(parts x).sublist (List.eraseIdx_sublist _ _)⟩
      · rw [if_neg same]
        exact parts x
  | none =>
    dsimp only
    rw [partitioned_occupants]
    simp only [occupants_replaced,iff_true]
    intro x
    split
    · exact List.pairwise_singleton _ _
    · exact parts x

theorem insert_noEmpty (noEmpty : NoEmpty inner) (entry : PluginEntry) : NoEmpty (insert inner entry).1 := by
  by_cases bare : entry.stockings = []
  · unfold insert
    rw [if_pos bare]
    split
    · exact noEmpty
    · intro shelf there
      rw [get_insert] at there
      split at there
      · cases there
      · exact noEmpty shelf there
  · rcases insert_cases inner bare with ⟨-,result⟩ | ⟨before,s,after,error,shape,-,-,result⟩
    · rw [result]
      exact occupyAll_noEmpty noEmpty
    · have apart := shelves_apart entry
      rw [PluginEntry.shelves,shape,List.map_append] at apart
      rw [result]
      exact thins_noEmpty (rolled_thins (List.nodup_append.mp apart).1) noEmpty

theorem replace_noEmpty (noEmpty : NoEmpty inner) (shelf : String) (entry : PluginEntry) : NoEmpty (replaceInPlace inner shelf entry).1 := by
  unfold replaceInPlace
  dsimp only
  split
  · rename_i pos found
    intro x there
    rw [get_insert] at there
    split at there
    · have bound : pos < (inner.occupants shelf).length := (List.findIdx?_eq_some_iff_getElem.mp found).1
      have none_ := congrArg List.length (Option.some.inj there)
      simp only [List.length_set,List.length_nil] at none_
      omega
    · exact noEmpty x there
  · intro x there
    rw [get_insert] at there
    split at there
    · cases there
    · exact noEmpty x there

structure Sound (inner : RouterInner) : Prop where
  noEmpty : NoEmpty inner
  parts : Partitioned inner

theorem new_sound : Sound .new := by
  refine ⟨?_,⟨?_,?_⟩⟩
  · intro shelf there
    cases there
  · intro shelf occupants there
    cases there
  · intro shelf occupants there
    cases there

theorem step_exact (inner : RouterInner) (a : Action) (sound : Sound inner) :
    InsertFaithful inner a ∧ Partitioned (apply inner a) ↔ Respects inner a := by
  cases a with
  | insert entry => exact insert_exact sound.noEmpty sound.parts
  | remove shelf => exact iff_of_true ⟨trivial,thins_partitioned (remove_thins inner shelf) sound.parts⟩ trivial
  | replaceInPlace shelf entry => exact (and_iff_right trivial).trans (replace_exact sound.parts)
  | drain => exact iff_of_true ⟨trivial,thins_partitioned (drain_thins inner) sound.parts⟩ trivial

theorem step_noEmpty (noEmpty : NoEmpty inner) (a : Action) : NoEmpty (apply inner a) := by
  cases a with
  | insert entry => exact insert_noEmpty noEmpty entry
  | remove shelf => exact thins_noEmpty (remove_thins inner shelf) noEmpty
  | replaceInPlace shelf entry => exact replace_noEmpty noEmpty shelf entry
  | drain => exact thins_noEmpty (drain_thins inner) noEmpty

theorem serves_exact (entry : PluginEntry) (shelf verb : String) :
    (entry.stockings = [] || (entry.stockingFor shelf).any fun s => verb ∈ s.requestTypes) = true ↔
      entry.stockings = [] ∨ Owns shelf verb entry := by
  unfold Owns
  cases entry.stockingFor shelf <;> simp

theorem occupancy_exact (actions : List Action) :
    Throughout apply Partitioned .new actions ∧ Guarded apply InsertFaithful .new actions ↔ Guarded apply Respects .new actions := by
  rw [throughout_steps,and_iff_right new_sound.parts,and_comm,← guarded_and]
  apply guarded_iff Sound
  · exact step_exact
  · intro inner a sound good
    exact ⟨step_noEmpty sound.noEmpty a,good.2⟩
  · exact new_sound

def remote : PluginEntry := ⟨1,"com.remote","audio.control",[],by decide⟩
def mixer : PluginEntry := ⟨2,"com.mixer","audio.control",[⟨"audio.control",.respondent,["set_volume"]⟩],by decide⟩

theorem legacy_shared :
    (insert (run apply .new [.insert remote]) mixer).2 = none ∧
    wouldConflictWithAdmission (run apply .new [.insert remote]) "audio.control" .respondent ["set_volume"] =
      some (.legacy "audio.control" "com.remote") ∧
    get (run apply .new [.insert remote,.insert mixer]).byShelf "audio.control" = some [remote,mixer] ∧
    ¬Partitioned (run apply .new [.insert remote,.insert mixer]) ∧
    ¬InsertFaithful (run apply .new [.insert remote]) (.insert mixer) := by
  have accepted : (insert (run apply .new [.insert remote]) mixer).2 = none := by decide
  have there : get (run apply .new [.insert remote,.insert mixer]).byShelf "audio.control" = some [remote,mixer] := by decide
  have warned : wouldConflictWithAdmission (run apply .new [.insert remote]) "audio.control" .respondent ["set_volume"] =
      some (.legacy "audio.control" "com.remote") := by decide
  refine ⟨accepted,warned,there,?_,?_⟩
  · intro parts
    have only := parts.sole "audio.control" _ there remote List.mem_cons_self (.inl rfl)
    cases only
  · intro faithful
    have calm := (faithful.1 (by decide)).mp accepted ⟨"audio.control",.respondent,["set_volume"]⟩ (by decide)
    rw [warned] at calm
    cases calm

end

end EvoCore.Router
