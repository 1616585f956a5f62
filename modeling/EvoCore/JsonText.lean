import Mathlib

namespace EvoCore.JsonText

-- Texts as serde_json writes them: strings with their escapes and arrays. Nothing below knows
-- which values are written.
variable {α : Type} {write : α → List Char} {c d : Char}

def shortEscapes : List (Char × Char) :=
  [('\x22','\x22'),('\\','\\'),('\x08','b'),('\t','t'),('\n','n'),('\x0c','f'),('\r','r')]

def escapeLetter (c : Char) : Char := (shortEscapes.lookup c).getD 'u'

def escapeChar (c : Char) : List Char :=
  if c = '\x22' ∨ c = '\\' ∨ c.toNat < 32 then
    '\\'::escapeLetter c::(if escapeLetter c = 'u' then
      ['0','0',Nat.digitChar (c.toNat / 16),Nat.digitChar (c.toNat % 16)] else [])
  else [c]

def escaped : List Char → List Char
  | [] => ['\x22']
  | c::rest => escapeChar c ++ escaped rest

def quoted (text : String) : List Char := '\x22'::escaped text.toList

def elements (write : α → List Char) : List α → List Char
  | [] => [']']
  | a::rest => ','::(write a ++ elements write rest)

def array (write : α → List Char) : List α → List Char
  | [] => ['[',']']
  | a::rest => '['::(write a ++ elements write rest)

-- The text of a value says by itself where it ends.
def SelfDelimiting (write : α → List Char) : Prop := ∀ a b x y,write a ++ x = write b ++ y → a = b ∧ x = y

theorem SelfDelimiting.injective (delimited : SelfDelimiting write) : Function.Injective write :=
  fun a b same => (delimited a b [] [] (by rw [same])).1

theorem digitChar_inj : ∀ d < 16,∀ e < 16,Nat.digitChar d = Nat.digitChar e → d = e := by decide

theorem digitChar_printed : ∀ d < 16,32 ≤ (Nat.digitChar d).toNat := by decide

theorem shortEscapes_apart : ∀ p ∈ shortEscapes,∀ q ∈ shortEscapes,p.2 = q.2 → p.1 = q.1 := by decide

theorem escapeLetter_short (short : escapeLetter c ≠ 'u') : (c,escapeLetter c) ∈ shortEscapes := by
  cases found : shortEscapes.lookup c with
  | none => exact absurd (by simp [escapeLetter,found]) short
  | some letter =>
    obtain ⟨before,after,shape,_⟩ := List.lookup_eq_some_iff.mp found
    have letters : escapeLetter c = letter := by simp [escapeLetter,found]
    rw [letters,shape]
    exact List.mem_append_right _ List.mem_cons_self

theorem escapeLetter_inj (same : escapeLetter c = escapeLetter d) (short : escapeLetter d ≠ 'u') : c = d :=
  shortEscapes_apart _ (escapeLetter_short (same.trans_ne short)) _ (escapeLetter_short short) same

theorem controls_inj (small : c.toNat < 32) (also : d.toNat < 32)
    (high : Nat.digitChar (c.toNat / 16) = Nat.digitChar (d.toNat / 16))
    (low : Nat.digitChar (c.toNat % 16) = Nat.digitChar (d.toNat % 16)) : c = d := by
  have highs := digitChar_inj (c.toNat / 16) (by omega) (d.toNat / 16) (by omega) high
  have lows := digitChar_inj (c.toNat % 16) (by omega) (d.toNat % 16) (by omega) low
  exact Char.toNat_inj.mp (by omega)

theorem letter_u (long : escapeLetter c = 'u') : c ≠ '\x22' ∧ c ≠ '\\' := by
  constructor
  · rintro rfl
    exact absurd long (by decide)
  · rintro rfl
    exact absurd long (by decide)

theorem escapeChar_cases (c : Char) :
    ((c ≠ '\x22' ∧ c ≠ '\\' ∧ 32 ≤ c.toNat) ∧ escapeChar c = [c]) ∨
    (escapeLetter c ≠ 'u' ∧ escapeChar c = ['\\',escapeLetter c]) ∨
    (c.toNat < 32 ∧ escapeChar c =
      ['\\','u','0','0',Nat.digitChar (c.toNat / 16),Nat.digitChar (c.toNat % 16)]) := by
  by_cases special : c = '\x22' ∨ c = '\\' ∨ c.toNat < 32
  · by_cases long : escapeLetter c = 'u'
    · have apart := letter_u long
      exact .inr (.inr ⟨by tauto,by simp [escapeChar,special,long]⟩)
    · exact .inr (.inl ⟨long,by simp [escapeChar,special,long]⟩)
  · refine .inl ⟨?_,by simp only [escapeChar,special,if_false]⟩
    rw [not_or,not_or,not_lt] at special
    exact special

theorem escapeChar_delimited : SelfDelimiting escapeChar := by
  intro c d x y same
  rcases escapeChar_cases c with ⟨plain,shape⟩ | ⟨short,shape⟩ | ⟨small,shape⟩ <;>
    rcases escapeChar_cases d with ⟨plain',shape'⟩ | ⟨short',shape'⟩ | ⟨small',shape'⟩ <;>
    simp only [shape,shape',List.cons_append,List.nil_append,List.cons.injEq,true_and] at same
  · exact same
  · exact absurd same.1 plain.2.1
  · exact absurd same.1 plain.2.1
  · exact absurd same.1.symm plain'.2.1
  · exact ⟨escapeLetter_inj same.1 short',same.2⟩
  · exact absurd same.1 short
  · exact absurd same.1.symm plain'.2.1
  · exact absurd same.1.symm short'
  · exact ⟨controls_inj small small' same.1 same.2.1,same.2.2⟩

theorem escapeChar_quote (c : Char) (x y : List Char) : escapeChar c ++ x ≠ '\x22'::y := by
  intro same
  rcases escapeChar_cases c with ⟨plain,shape⟩ | ⟨short,shape⟩ | ⟨small,shape⟩ <;>
    rw [shape] at same
  · exact plain.1 (List.cons.inj same).1
  · exact absurd (List.cons.inj same).1 (by decide)
  · exact absurd (List.cons.inj same).1 (by decide)

theorem escaped_delimited : SelfDelimiting escaped := by
  intro s
  induction s with
  | nil =>
    intro t x y same
    cases t with
    | nil => exact ⟨rfl,(List.cons.inj same).2⟩
    | cons d rest =>
      rw [escaped,escaped,List.append_assoc] at same
      exact absurd same.symm (escapeChar_quote d _ _)
  | cons c first ih =>
    intro t x y same
    cases t with
    | nil =>
      rw [escaped,escaped,List.append_assoc] at same
      exact absurd same (escapeChar_quote c _ _)
    | cons d rest =>
      simp only [escaped,List.append_assoc] at same
      obtain ⟨head,tail⟩ := escapeChar_delimited c d _ _ same
      obtain ⟨equal,after⟩ := ih rest x y tail
      exact ⟨by rw [head,equal],after⟩

theorem quoted_delimited : SelfDelimiting quoted := by
  intro s t x y same
  simp only [quoted,List.cons_append,List.cons.injEq,true_and] at same
  obtain ⟨texts,after⟩ := escaped_delimited _ _ _ _ same
  exact ⟨String.toList_injective texts,after⟩

theorem elements_delimited (delimited : SelfDelimiting write) : SelfDelimiting (elements write) := by
  intro items
  induction items with
  | nil =>
    intro others x y same
    cases others with
    | nil => exact ⟨rfl,(List.cons.inj same).2⟩
    | cons b rest => exact absurd (List.cons.inj same).1 (by decide)
  | cons a first ih =>
    intro others x y same
    cases others with
    | nil => exact absurd (List.cons.inj same).1 (by decide)
    | cons b rest =>
      simp only [elements,List.cons_append,List.append_assoc,List.cons.injEq,true_and] at same
      obtain ⟨head,tail⟩ := delimited a b _ _ same
      obtain ⟨equal,after⟩ := ih rest x y tail
      exact ⟨by rw [head,equal],after⟩

theorem array_delimited (delimited : SelfDelimiting write) (opens : ∀ a x y,write a ++ x ≠ ']'::y) :
    SelfDelimiting (array write) := by
  intro items others x y same
  cases items with
  | nil =>
    cases others with
    | nil => simpa [array] using same
    | cons b rest =>
      simp only [array,List.cons_append,List.nil_append,List.append_assoc,List.cons.injEq,true_and] at same
      exact absurd same.symm (opens b _ _)
  | cons a first =>
    cases others with
    | nil =>
      simp only [array,List.cons_append,List.nil_append,List.append_assoc,List.cons.injEq,true_and] at same
      exact absurd same (opens a _ _)
    | cons b rest =>
      simp only [array,List.cons_append,List.append_assoc,List.cons.injEq,true_and] at same
      obtain ⟨head,tail⟩ := delimited a b _ _ same
      obtain ⟨equal,after⟩ := elements_delimited delimited first rest x y tail
      exact ⟨by rw [head,equal],after⟩

-- No control character is left in a text.
def Printed (text : List Char) : Prop := ∀ c ∈ text,32 ≤ c.toNat

theorem shortEscapes_printed : ∀ p ∈ shortEscapes,32 ≤ p.2.toNat := by decide

theorem escapeLetter_printed (c : Char) : 32 ≤ (escapeLetter c).toNat := by
  by_cases long : escapeLetter c = 'u'
  · rw [long]
    decide
  · exact shortEscapes_printed _ (escapeLetter_short long)

theorem escapeChar_printed (c : Char) : Printed (escapeChar c) := by
  intro d member
  rcases escapeChar_cases c with ⟨plain,shape⟩ | ⟨short,shape⟩ | ⟨small,shape⟩ <;>
    simp only [shape,List.mem_cons,List.not_mem_nil,or_false] at member
  · rw [member]
    exact plain.2.2
  · rcases member with rfl | rfl
    · decide
    · exact escapeLetter_printed c
  · rcases member with rfl | rfl | rfl | rfl | rfl | rfl
    · decide
    · decide
    · decide
    · decide
    · exact digitChar_printed _ (by omega)
    · exact digitChar_printed _ (by omega)

theorem printed_nil : Printed [] := fun _ none_ => by cases none_

theorem printed_cons : Printed (c::rest) ↔ 32 ≤ c.toNat ∧ Printed rest := by
  simp [Printed]

theorem printed_append : Printed (first++second) ↔ Printed first ∧ Printed second := by
  simp only [Printed,List.mem_append]
  exact ⟨fun all => ⟨fun c member => all c (.inl member),fun c member => all c (.inr member)⟩,
    fun both c member => member.elim (both.1 c) (both.2 c)⟩

theorem escaped_printed (text : List Char) : Printed (escaped text) := by
  induction text with
  | nil => exact printed_cons.mpr ⟨by decide,printed_nil⟩
  | cons c rest ih => exact printed_append.mpr ⟨escapeChar_printed c,ih⟩

theorem quoted_printed (text : String) : Printed (quoted text) :=
  printed_cons.mpr ⟨by decide,escaped_printed _⟩

theorem elements_printed (each : ∀ a,Printed (write a)) : ∀ items,Printed (elements write items)
  | [] => printed_cons.mpr ⟨by decide,printed_nil⟩
  | a::rest => printed_cons.mpr ⟨by decide,printed_append.mpr ⟨each a,elements_printed each rest⟩⟩

theorem array_printed (each : ∀ a,Printed (write a)) (items : List α) : Printed (array write items) := by
  cases items with
  | nil => exact printed_cons.mpr ⟨by decide,printed_cons.mpr ⟨by decide,printed_nil⟩⟩
  | cons a rest => exact printed_cons.mpr ⟨by decide,printed_append.mpr ⟨each a,elements_printed each rest⟩⟩

end EvoCore.JsonText
