import Mathlib

namespace EvoCore.Tables

-- Finite maps as duplicate-free association lists, so that their keys can be listed
-- and a concrete map evaluates.
abbrev Table (κ ν : Type) := AList (fun _ : κ => ν)

variable {κ ν : Type} [DecidableEq κ]

def get (t : Table κ ν) (k : κ) : Option ν := AList.lookup k t

@[simp] theorem get_empty : get (∅ : Table κ ν) k = none := by simp [get]

@[simp] theorem get_insert (t : Table κ ν) : get (t.insert k v) a = if a = k then some v else get t a := by
  unfold get
  split
  · rename_i same
    subst same
    exact AList.lookup_insert t
  · rename_i other
    exact AList.lookup_insert_ne other

@[simp] theorem get_erase (t : Table κ ν) : get (t.erase k) a = if a = k then none else get t a := by
  unfold get
  split
  · rename_i same
    subst same
    exact AList.lookup_erase a t
  · rename_i other
    exact AList.lookup_erase_ne other

theorem mem_keys (t : Table κ ν) : k ∈ t.keys ↔ ∃ v,get t k = some v := by
  rw [← AList.mem_keys,← AList.lookup_isSome,Option.isSome_iff_exists]
  rfl

theorem entries_get (t : Table κ ν) : ⟨k,v⟩ ∈ t.entries ↔ get t k = some v :=
  (AList.mem_lookup_iff (s := t)).symm

-- An update in place: nothing happens where the key is missing.
def modify (t : Table κ ν) (k : κ) (change : ν → ν) : Table κ ν :=
  match get t k with
  | none => t
  | some v => t.insert k (change v)

@[simp] theorem get_modify (t : Table κ ν) :
    get (modify t k change) a = if a = k then (get t k).map change else get t a := by
  unfold modify
  cases there : get t k with
  | none =>
    by_cases same : a = k
    · simp [same,there]
    · simp [same]
  | some v => simp

def insertAll (t : Table κ ν) (keys : List κ) (v : ν) : Table κ ν := keys.foldl (fun t k => t.insert k v) t

@[simp] theorem get_insertAll (t : Table κ ν) (keys : List κ) :
    get (insertAll t keys v) a = if a ∈ keys then some v else get t a := by
  unfold insertAll
  induction keys generalizing t with
  | nil => simp
  | cons k rest ih =>
    rw [List.foldl_cons,ih]
    by_cases later : a ∈ rest <;> by_cases same : a = k <;> simp [later,same]

-- Items loaded one after the other under keys of their own, into a state that has nothing there.
section
variable {σ ι : Type} {look : σ → κ → Option ν} {load : σ → ι → σ} {key : ι → κ} {value : ι → Option ν} {items : List ι}

def Loads (look : σ → κ → Option ν) (load : σ → ι → σ) (key : ι → κ) (value : ι → Option ν) : Prop :=
  ∀ t i k,look (load t i) k = if k = key i then (value i).or (look t k) else look t k

theorem load_absent (put : Loads look load key value) (outside : k ∉ items.map key) : look (items.foldl load t) k = look t k := by
  induction items generalizing t with
  | nil => rfl
  | cons first rest ih =>
    simp only [List.map_cons,List.mem_cons,not_or] at outside
    rw [List.foldl_cons,ih outside.2,put,if_neg outside.1]

theorem load_present (put : Loads look load key value) (apart : (items.map key).Nodup) (member : i ∈ items)
    (fresh : look t (key i) = none) : look (items.foldl load t) (key i) = value i := by
  induction items generalizing t with
  | nil => cases member
  | cons first rest ih =>
    simp only [List.map_cons,List.nodup_cons] at apart
    rw [List.foldl_cons]
    rcases List.mem_cons.mp member with rfl | later
    · rw [load_absent put apart.1,put,if_pos rfl,fresh,Option.or_none]
    · have other : key i ≠ key first := fun same => apart.1 (same ▸ List.mem_map_of_mem later)
      exact ih apart.2 later (by rw [put,if_neg other,fresh])

end

-- The table-wide updates and deletes of a query language.
def mapValues (t : Table κ ν) (change : ν → ν) : Table κ ν :=
  ⟨t.entries.map fun e => ⟨e.1,change e.2⟩,by
    simpa [List.NodupKeys,List.keys,Function.comp_def] using t.nodupKeys⟩

def retain (t : Table κ ν) (keep : κ → ν → Bool) : Table κ ν :=
  ⟨t.entries.filter fun e => keep e.1 e.2,t.nodupKeys.sublist List.filter_sublist⟩

@[simp] theorem get_mapValues (t : Table κ ν) : get (mapValues t change) k = (get t k).map change := by
  apply Option.ext
  intro v
  rw [← entries_get,Option.map_eq_some_iff]
  simp only [mapValues,List.mem_map,Sigma.mk.injEq]
  constructor
  · rintro ⟨⟨a,w⟩,member,rfl,same⟩
    exact ⟨w,(entries_get t).mp member,eq_of_heq same⟩
  · rintro ⟨w,there,rfl⟩
    exact ⟨⟨k,w⟩,(entries_get t).mpr there,rfl,HEq.rfl⟩

@[simp] theorem get_retain (t : Table κ ν) : get (retain t keep) k = (get t k).filter (keep k) := by
  apply Option.ext
  intro v
  rw [← entries_get,Option.filter_eq_some_iff,← entries_get]
  simp [retain]

-- A list changed at one place.
section
variable {α : Type} {items : List α} {change : α → α}

theorem modify_cases (there : (items.modify i change)[j]? = some a) :
    ∃ before,items[j]? = some before ∧ a = if i = j then change before else before := by
  rw [List.getElem?_modify] at there
  obtain ⟨before,found,same⟩ := Option.map_eq_some_iff.mp there
  exact ⟨before,found,same.symm⟩

theorem filterMap_modify {β : Type} {k : Nat} {x : α} (f : α → Option β) (there : items[k]? = some x)
    (change : α → α) : (↑((items.modify k change).filterMap f) : Multiset β) + ↑(f x).toList =
      ↑(items.filterMap f) + ↑(f (change x)).toList := by
  induction items generalizing k with
  | nil => cases there
  | cons first rest ih =>
    have head : ∀ y (tail : List α),(↑((y::tail).filterMap f) : Multiset β) = ↑(f y).toList + ↑(tail.filterMap f) := by
      intro y tail
      cases shown : f y <;> simp [shown]
    cases k with
    | zero =>
      cases Option.some.inj there
      rw [List.modify_zero_cons,head,head]
      abel
    | succ k =>
      have tail := ih (by simpa using there)
      rw [List.modify_succ_cons,head,head,add_assoc,tail,add_assoc]

theorem modify_other (there : items[j]? = some a) (other : i ≠ j) : (items.modify i change)[j]? = some a := by
  simp [there,other]

theorem modify_same (there : items[i]? = some a) : (items.modify i change)[i]? = some (change a) := by
  simp [there]

theorem append_cases {a new : α} {j : Nat} (there : (items++[new])[j]? = some a) : items[j]? = some a ∨ (j = items.length ∧ a = new) := by
  rw [List.getElem?_append] at there
  split at there
  · exact .inl there
  · rw [List.getElem?_singleton] at there
    split at there
    · exact .inr ⟨by omega,(Option.some.inj there).symm⟩
    · cases there

theorem append_there {more : List α} {j : Nat} (there : items[j]? = some a) : (items++more)[j]? = some a := by
  obtain ⟨bound,-⟩ := List.getElem?_eq_some_iff.mp there
  rw [List.getElem?_append_left bound,there]

theorem modify_fixed (fixed : ∀ a,items[i]? = some a → change a = a) : items.modify i change = items := by
  apply List.ext_getElem?
  intro j
  rw [List.getElem?_modify]
  cases there : items[j]? with
  | none => rfl
  | some a =>
    by_cases same : i = j
    · subst same
      simp [fixed a there]
    · simp [same]

end

end EvoCore.Tables
