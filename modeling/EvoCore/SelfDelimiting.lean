import Mathlib

namespace EvoCore.SelfDelimiting

-- Items written one after the other that a reader takes off the front again. Nothing below knows what the
-- symbols are or how the reader finds the end of an item.
variable {α φ ε : Type} {read : List α → Except ε φ × List α} {enc : φ → List α} {late : ε → Prop} {items : List φ}

-- The reader takes a whole item and leaves what follows it; where the symbols end before the item does it
-- fails late and leaves nothing.
structure Delimits (read : List α → Except ε φ × List α) (enc : φ → List α) (late : ε → Prop) (valid : φ → Prop) : Prop where
  whole : ∀ item rest,valid item → read (enc item++rest) = (.ok item,rest)
  short : ∀ item part,valid item → part <+: enc item → part.length < (enc item).length → ∃ e,read part = (.error e,[]) ∧ late e
  ended : ∃ e,read [] = (.error e,[]) ∧ late e

def reads (read : List α → Except ε φ × List α) : Nat → List α → List (Except ε φ)
  | 0,_ => []
  | n+1,symbols => (read symbols).1::reads read n (read symbols).2

theorem reads_length (n : Nat) (symbols : List α) : (reads read n symbols).length = n := by
  induction n generalizing symbols with
  | zero => rfl
  | succ n ih => rw [reads,List.length_cons,ih]

def within (enc : φ → List α) : Nat → List φ → List φ
  | _,[] => []
  | cut,item::rest => if (enc item).length ≤ cut then item::within enc (cut-(enc item).length) rest else []

theorem reads_late (ended : ∃ e,read [] = (.error e,[]) ∧ late e) (n : Nat) : ∀ answer ∈ reads read n [],∃ e,answer = .error e ∧ late e := by
  obtain ⟨e,empty,late_⟩ := ended
  induction n with
  | zero =>
    intro answer member
    cases member
  | succ n ih =>
    intro answer member
    rw [reads,empty] at member
    rcases List.mem_cons.mp member with rfl | later
    · exact ⟨e,rfl,late_⟩
    · exact ih answer later

-- Whatever the cut, the reads give the items that are whole, in order, and then nothing but late failures.
theorem reads_cut {valid : φ → Prop} (delimits : Delimits read enc late valid) (all : ∀ item ∈ items,valid item) (cut n : Nat) :
    ∃ failures,reads read n ((items.flatMap enc).take cut) = ((within enc cut items).map .ok).take n++failures ∧
      ∀ answer ∈ failures,∃ e,answer = .error e ∧ late e := by
  induction items generalizing cut n with
  | nil => exact ⟨reads read n [],by simp [within],reads_late delimits.ended n⟩
  | cons item rest ih =>
    have valid_ := all item List.mem_cons_self
    cases n with
    | zero =>
      refine ⟨[],by simp [reads],?_⟩
      intro answer member
      cases member
    | succ n =>
      unfold within
      rw [List.flatMap_cons,List.take_append]
      split
      · rename_i fits
        obtain ⟨failures,same,late_⟩ := ih (fun other member => all other (List.mem_cons_of_mem item member)) (cut-(enc item).length) n
        refine ⟨failures,?_,late_⟩
        rw [List.take_of_length_le fits,reads,delimits.whole item _ valid_,same]
        rfl
      · rename_i short
        have none_ : cut-(enc item).length = 0 := by omega
        obtain ⟨e,failed,late_⟩ := delimits.short item ((enc item).take cut) valid_ (List.take_prefix cut (enc item))
          (by rw [List.length_take]; omega)
        refine ⟨.error e::reads read n [],?_,?_⟩
        · rw [none_,List.take_zero,List.append_nil,reads,failed]
          rfl
        · intro answer member
          rcases List.mem_cons.mp member with rfl | later
          · exact ⟨e,rfl,late_⟩
          · exact reads_late delimits.ended n answer later

end EvoCore.SelfDelimiting
