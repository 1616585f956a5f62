import EvoCore.Tables

namespace EvoCore.Buckets
open Tables

-- An index from a bucket to the set of items filed under it, without empty buckets.
abbrev Index (β ι : Type) := Table β (Finset ι)

variable {β ι : Type} [DecidableEq β] [DecidableEq ι]

def link (index : Index β ι) (bucket : β) (item : ι) : Index β ι :=
  index.insert bucket (insert item ((get index bucket).getD ∅))

def unlink (index : Index β ι) (bucket : β) (item : ι) : Index β ι :=
  match get index bucket with
  | none => index
  | some items =>
    if items.erase item = ∅ then index.erase bucket else index.insert bucket (items.erase item)

def Linked (index : Index β ι) (bucket : β) (item : ι) : Prop := ∃ items,get index bucket = some items ∧ item ∈ items
def Tidy (index : Index β ι) : Prop := ∀ bucket items,get index bucket = some items → items ≠ ∅

omit [DecidableEq ι] in
@[simp] theorem linked_empty : ¬Linked (∅ : Index β ι) bucket item := by simp [Linked]
omit [DecidableEq ι] in
@[simp] theorem tidy_empty : Tidy (∅ : Index β ι) := by simp [Tidy]

@[simp] theorem linked_link (index : Index β ι) :
    Linked (link index bucket item) b i ↔ (b = bucket ∧ i = item) ∨ Linked index b i := by
  unfold Linked link
  by_cases same : b = bucket
  · subst same
    cases get index b <;> simp
  · simp [same]

theorem tidy_link (index : Index β ι) (tidy : Tidy index) : Tidy (link index bucket item) := by
  intro b items there
  simp only [link,get_insert] at there
  split at there
  · cases Option.some.inj there
    simp
  · exact tidy b items there

@[simp] theorem linked_unlink (index : Index β ι) :
    Linked (unlink index bucket item) b i ↔ Linked index b i ∧ ¬(b = bucket ∧ i = item) := by
  unfold unlink
  cases there : get index bucket with
  | none =>
    have missing : Linked index b i → b ≠ bucket := by
      rintro ⟨items,found,-⟩ rfl
      simp [there] at found
    constructor
    · exact fun linked => ⟨linked,fun same => missing linked same.1⟩
    · exact fun both => both.1
  | some items =>
    by_cases same : b = bucket
    · subst same
      simp only
      split
      · rename_i empty
        have only : ∀ j,j ∈ items → j = item := fun j member => by
          by_contra other
          have : j ∈ items.erase item := Finset.mem_erase.mpr ⟨other,member⟩
          simp [empty] at this
        simp only [Linked,get_erase,if_true,there]
        simp only [Option.some.injEq,exists_eq_left',true_and]
        constructor
        · rintro ⟨_,absurd_item,_⟩
          cases absurd_item
        · rintro ⟨member,other⟩
          exact absurd (only i member) other
      · simp [Linked,there,Finset.mem_erase,and_comm]
    · simp only
      split <;> simp [Linked,same]

theorem tidy_unlink (index : Index β ι) (tidy : Tidy index) : Tidy (unlink index bucket item) := by
  intro b items there
  unfold unlink at there
  cases found : get index bucket with
  | none =>
    simp only [found] at there
    exact tidy b items there
  | some old =>
    simp only [found] at there
    split at there
    · simp only [get_erase] at there
      split at there
      · cases there
      · exact tidy b items there
    · rename_i left
      simp only [get_insert] at there
      split at there
      · cases Option.some.inj there
        exact left
      · exact tidy b items there

end EvoCore.Buckets
