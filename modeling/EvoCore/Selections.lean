import EvoCore.Tables

namespace EvoCore.Selections
open Tables

structure Flag (ρ : Type) where
  read : ρ → Bool
  write : Bool → ρ → ρ
  read_write : ∀ b row,read (write b row) = b
  write_read : ∀ row,write (read row) row = row

attribute [simp] Flag.read_write Flag.write_read

variable {κ ρ : Type} [DecidableEq κ] (flag : Flag ρ)

-- A new version of a row keeps the flag of the old one.
def put (t : Table κ ρ) (k : κ) (row : ρ) : Table κ ρ :=
  t.insert k (flag.write (((get t k).map flag.read).getD false) row)

def clear (t : Table κ ρ) : Table κ ρ := mapValues t (flag.write false)

-- Every flag goes; then the chosen row gets its own, or the key that is missing is handed back.
def activate (t : Table κ ρ) : Option κ → Option κ × Table κ ρ
  | none => (none,clear flag t)
  | some k =>
    match get (clear flag t) k with
    | some row => (none,(clear flag t).insert k (flag.write true row))
    | none => (some k,clear flag t)

def fill (chosen : Option κ) (key : ρ → κ) (rows : List ρ) : Table κ ρ :=
  rows.foldl (fun t row => t.insert (key row) (flag.write (chosen == some (key row)) row)) ∅

def getActive (t : Table κ ρ) : Option ρ := (t.entries.find? fun e => flag.read e.2).map fun e => e.2

def Active (t : Table κ ρ) (k : κ) : Prop := ∃ row,get t k = some row ∧ flag.read row = true

def Exclusive (t : Table κ ρ) : Prop := ∀ a b,Active flag t a → Active flag t b → a = b

variable {flag} {t : Table κ ρ} {k a : κ} {row : ρ} {target : Option κ}

theorem active_empty : ¬Active flag (∅ : Table κ ρ) a := by simp [Active]

theorem exclusive_empty : Exclusive flag (∅ : Table κ ρ) := fun _ _ active => (active_empty active).elim

theorem active_insert {b : Bool} : Active flag (t.insert k (flag.write b row)) a ↔ if a = k then b = true else Active flag t a := by
  by_cases same : a = k <;> simp [Active,same]

theorem active_put : Active flag (put flag t k row) a ↔ Active flag t a := by
  rw [put,active_insert]
  split
  next same =>
    subst same
    cases there : get t a with
    | none => simp [Active,there]
    | some old => simp [Active,there]
  next other => rfl

theorem active_erase : Active flag (t.erase k) a ↔ a ≠ k ∧ Active flag t a := by
  by_cases same : a = k <;> simp [Active,same]

theorem active_clear : ¬Active flag (clear flag t) a := by
  simp [Active,clear]

theorem activate_missing : (activate flag t target).1 = some k ↔ target = some k ∧ get t k = none := by
  cases target with
  | none => simp [activate]
  | some id =>
    cases there : get t id with
    | none =>
      simp only [activate,clear,get_mapValues,there,Option.map_none,Option.some.injEq]
      exact ⟨fun same => ⟨same,same ▸ there⟩,And.left⟩
    | some old =>
      simp only [activate,clear,get_mapValues,there,Option.map_some,reduceCtorEq,Option.some.injEq,false_iff,not_and]
      exact fun same missing => by simp [← same,there] at missing

theorem active_activate : Active flag (activate flag t target).2 a → target = some a := by
  cases target with
  | none => exact fun active => (active_clear active).elim
  | some id =>
    rw [activate]
    split
    next old there =>
      rw [active_insert]
      split
      next same => exact fun _ => congrArg some same.symm
      next other => exact fun active => (active_clear active).elim
    next missing => exact fun active => (active_clear active).elim

theorem exclusive_activate : Exclusive flag (activate flag t target).2 :=
  fun _ _ one two => Option.some.inj ((active_activate one).symm.trans (active_activate two))

-- A failed activation is the clearing alone, and that is seen exactly where something was active.
theorem activate_failed (failed : (activate flag t target).1 = some k) : (activate flag t target).2 = clear flag t := by
  obtain ⟨rfl,missing⟩ := activate_missing.mp failed
  simp [activate,clear,missing]

theorem clear_same : (∀ k,get (clear flag t) k = get t k) ↔ ∀ k,¬Active flag t k := by
  refine forall_congr' fun k => ?_
  cases there : get t k with
  | none => simp [clear,Active,there]
  | some row =>
    simp only [clear,get_mapValues,there,Option.map_some,Option.some.injEq,Active,exists_eq_left',Bool.not_eq_true]
    constructor
    · intro same
      rw [← same,flag.read_write]
    · intro off
      rw [← off,flag.write_read]

theorem fill_snoc {chosen : Option κ} {key : ρ → κ} {rows : List ρ} : fill flag chosen key (rows ++ [row]) =
    (fill flag chosen key rows).insert (key row) (flag.write (chosen == some (key row)) row) := by
  simp [fill]

theorem active_fill {chosen : Option κ} {key : ρ → κ} {rows : List ρ} (active : Active flag (fill flag chosen key rows) a) :
    chosen = some a := by
  induction rows using List.reverseRecOn with
  | nil => exact (active_empty active).elim
  | append_singleton rows row ih =>
    rw [fill_snoc,active_insert] at active
    split at active
    next same => exact same ▸ beq_iff_eq.mp active
    next other => exact ih active

theorem exclusive_fill {chosen : Option κ} {key : ρ → κ} {rows : List ρ} : Exclusive flag (fill flag chosen key rows) :=
  fun _ _ one two => Option.some.inj ((active_fill one).symm.trans (active_fill two))

theorem getActive_none : getActive flag t = none ↔ ∀ k,¬Active flag t k := by
  simp only [getActive,Option.map_eq_none_iff,List.find?_eq_none,Active,not_exists,not_and]
  constructor
  · intro none_ k row there
    exact none_ ⟨k,row⟩ ((entries_get t).mpr there)
  · intro none_ e member
    exact none_ e.1 e.2 ((entries_get t).mp member)

theorem getActive_some (exclusive : Exclusive flag t) :
    getActive flag t = some row ↔ ∃ k,get t k = some row ∧ flag.read row = true := by
  constructor
  · intro found
    obtain ⟨e,first,rfl⟩ := Option.map_eq_some_iff.mp found
    have on : flag.read e.2 = true := by simpa using List.find?_some first
    exact ⟨e.1,(entries_get t).mp (List.mem_of_find?_eq_some first),on⟩
  · intro active
    obtain ⟨k,there,on⟩ := active
    cases found : getActive flag t with
    | none => exact (getActive_none.mp found k ⟨row,there,on⟩).elim
    | some other =>
      obtain ⟨e,first,rfl⟩ := Option.map_eq_some_iff.mp found
      have held := (entries_get t).mp (List.mem_of_find?_eq_some first)
      have alsoOn : flag.read e.2 = true := by simpa using List.find?_some first
      have same := exclusive e.1 k ⟨e.2,held,alsoOn⟩ ⟨row,there,on⟩
      rw [same,there] at held
      exact held.symm

end EvoCore.Selections
