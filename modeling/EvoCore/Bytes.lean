import EvoCore.Fields

namespace EvoCore.Bytes
open Fields

-- UTF-8 text and big-endian integers as byte lists.
def utf8 (text : String) : List UInt8 := text.toByteArray.data.toList

def beBytes64 (n : UInt64) : List UInt8 :=
  [56,48,40,32,24,16,8,0].map fun shift => UInt8.ofNat (n.toNat / 2^shift)

def beBytes32 (n : UInt32) : List UInt8 :=
  [24,16,8,0].map fun shift => UInt8.ofNat (n.toNat / 2^shift)

theorem utf8_injective : Function.Injective utf8 := by
  intro a b same
  have data : a.toByteArray.data = b.toByteArray.data := Array.toList_inj.mp same
  exact String.toByteArray_inj.mp (ByteArray.ext data)

@[simp] theorem utf8_append (a b : String) : utf8 (a++b) = utf8 a ++ utf8 b := by
  simp [utf8]

@[simp] theorem beBytes64_length (n : UInt64) : (beBytes64 n).length = 8 := rfl
@[simp] theorem beBytes32_length (n : UInt32) : (beBytes32 n).length = 4 := rfl

theorem beBytes64_digits (n : UInt64) : (beBytes64 n).map UInt8.toNat = digits 256 8 n.toNat := by
  simp [beBytes64,digits,Nat.div_div_eq_div_mul]

theorem beBytes32_digits (n : UInt32) : (beBytes32 n).map UInt8.toNat = digits 256 4 n.toNat := by
  simp [beBytes32,digits,Nat.div_div_eq_div_mul]

theorem beBytes64_injective : Function.Injective beBytes64 := by
  intro a b same
  have written := congrArg (List.map UInt8.toNat) same
  rw [beBytes64_digits,beBytes64_digits] at written
  exact UInt64.toNat_inj.mp (digits_inj (by have := a.toNat_lt; omega) (by have := b.toNat_lt; omega) written)

theorem beBytes32_injective : Function.Injective beBytes32 := by
  intro a b same
  have written := congrArg (List.map UInt8.toNat) same
  rw [beBytes32_digits,beBytes32_digits] at written
  exact UInt32.toNat_inj.mp (digits_inj (by have := a.toNat_lt; omega) (by have := b.toNat_lt; omega) written)

theorem ascii_mem_utf8EncodeChar {c d : Char} (ascii : c.toNat < 128)
    (written : UInt8.ofNat c.toNat ∈ String.utf8EncodeChar d) : d = c := by
  have code : d.val.toNat = c.toNat := by
    simp only [String.utf8EncodeChar] at written
    split_ifs at written <;>
      simp only [List.mem_cons,List.not_mem_nil,or_false,← UInt8.toNat_inj,UInt8.toNat_ofNat'] at written <;> omega
  exact Char.toNat_inj.mp code

theorem ascii_mem_utf8 {c : Char} (ascii : c.toNat < 128) (member : UInt8.ofNat c.toNat ∈ utf8 text) :
    c ∈ text.toList := by
  rw [utf8,← String.utf8Encode_toList,List.utf8Encode] at member
  simp only [List.data_toByteArray,List.mem_flatMap] at member
  obtain ⟨d,inText,written⟩ := member
  exact ascii_mem_utf8EncodeChar ascii written ▸ inText

theorem utf8_ascii (ascii : ∀ c ∈ text.toList,c.toNat < 128) :
    utf8 text = text.toList.map fun c => UInt8.ofNat c.toNat := by
  have single : ∀ c ∈ text.toList,String.utf8EncodeChar c = [UInt8.ofNat c.toNat] := by
    intro c member
    have small : c.val.toNat ≤ 0x7f := Nat.le_of_lt_succ (ascii c member)
    simp only [String.utf8EncodeChar,small,if_true]
    rfl
  rw [utf8,← String.utf8Encode_toList,List.utf8Encode,List.data_toByteArray,List.map_eq_flatMap]
  exact List.flatMap_congr single

end EvoCore.Bytes
