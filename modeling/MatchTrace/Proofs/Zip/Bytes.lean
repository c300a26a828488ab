import MatchTrace.Zip.Bytes
import MatchTrace.Zip.Pack

/-!
What can be read where some bytes are known to stand.
-/

namespace MatchTrace.Zip

set_option autoImplicit false

def Holds (b : ByteArray) (i : Nat) (bytes : List UInt8) : Prop :=
  ∃ before after, before.length = i ∧ b.data.toList = before ++ (bytes ++ after)

theorem byte_data (b : ByteArray) (i : Nat) : b[i]? = b.data.toList[i]? := by
  by_cases inside : i < b.size
  · rw [getElem?_pos b i inside, Array.getElem?_toList, getElem?_pos b.data i inside]
    rfl
  · rw [getElem?_neg b i inside, Array.getElem?_toList, getElem?_neg b.data i inside]

theorem extract_data (b : ByteArray) (i j : Nat) : (b.extract i j).data.toList = (b.data.toList.take j).drop i := by
  rw [ByteArray.data_extract, Array.toList_extract, List.extract_eq_take_drop, List.drop_take]

theorem bytes_ext (b c : ByteArray) (same : b.data.toList = c.data.toList) : b = c :=
  ByteArray.ext (Array.toList_inj.mp same)

theorem length_data (b : ByteArray) : b.data.toList.length = b.size := Array.length_toList

section Holds

variable (b : ByteArray) (i : Nat)

theorem holds_self : Holds b 0 b.data.toList := ⟨[], [], rfl, (List.append_nil _).symm⟩

theorem holds_front (front back : List UInt8) (there : Holds b i (front ++ back)) : Holds b i front := by
  obtain ⟨before, after, place, whole⟩ := there
  exact ⟨before, back ++ after, place, by rw [whole, List.append_assoc]⟩

theorem holds_back (front back : List UInt8) (there : Holds b i (front ++ back)) :
    Holds b (i + front.length) back := by
  obtain ⟨before, after, rfl, whole⟩ := there
  exact ⟨before ++ front, after, List.length_append, by rw [whole, List.append_assoc, List.append_assoc]⟩

theorem holds_length (bytes : List UInt8) (there : Holds b i bytes) : i + bytes.length ≤ b.size := by
  obtain ⟨before, after, rfl, whole⟩ := there
  have total := congrArg List.length whole
  rw [length_data, List.length_append, List.length_append] at total
  omega

theorem holds_byte (bytes : List UInt8) (there : Holds b i bytes) (k : Nat) (x : UInt8) (here : bytes[k]? = some x) :
    b[i + k]? = some x := by
  obtain ⟨before, after, rfl, whole⟩ := there
  have inside : k < bytes.length := (List.getElem?_eq_some_iff.mp here).1
  rw [byte_data, whole, List.getElem?_append_right (Nat.le_add_right _ k), Nat.add_sub_cancel_left,
    List.getElem?_append_left inside, here]

theorem holds_extract (c : ByteArray) (there : Holds b i c.data.toList) : b.extract i (i + c.size) = c := by
  obtain ⟨before, after, rfl, whole⟩ := there
  apply bytes_ext
  rw [extract_data, whole, ← length_data c, List.take_length_add_append, List.drop_left, List.take_left]

theorem holds_slice (c : ByteArray) (there : Holds b i c.data.toList) : slice? b i c.size = some c := by
  have inside := holds_length b i _ there
  rw [length_data] at inside
  rw [slice?, if_pos inside, holds_extract b i c there]

theorem slice_nothing (inside : i ≤ b.size) : slice? b i 0 = some ByteArray.empty := by
  rw [slice?, Nat.add_zero, if_pos inside, ByteArray.extract_same]

end Holds

section Words

variable (b : ByteArray) (i : Nat) (numbers : List Nat) (there : Holds b i (numbers.map Nat.toUInt8)) (k n : Nat)

include there

theorem byte_there (x : Nat) (here : numbers[k]? = some x) : byteAt? b (i + k) = some (x % 0x100) := by
  have byte : (numbers.map Nat.toUInt8)[k]? = some x.toUInt8 := by rw [List.getElem?_map, here, Option.map_some]
  rw [byteAt?, holds_byte b i _ there k _ byte]
  exact congrArg some (UInt8.toNat_ofNat' ..)

theorem word16_there (here : (numbers.drop k).take 2 = word16 n) : word16? b (i + k) = some (n % 0x10000) := by
  have low : numbers[k]? = some (n % 0x100) := by
    have first := congrArg (·[0]?) here
    simpa [word16] using first
  have high : numbers[k + 1]? = some (n / 0x100 % 0x100) := by
    have second := congrArg (·[1]?) here
    simpa [word16] using second
  simp only [word16?, Nat.add_assoc, byte_there b i numbers there _ _ low, byte_there b i numbers there _ _ high]
  change some _ = some _
  congr 1
  omega

theorem word32_there (here : (numbers.drop k).take 4 = word32 n) : word32? b (i + k) = some (n % 0x100000000) := by
  have low : (numbers.drop k).take 2 = word16 n := by
    have first := congrArg (List.take 2) here
    rwa [List.take_take] at first
  have high : (numbers.drop (k + 2)).take 2 = word16 (n / 0x10000) := by
    have second := congrArg (List.drop 2) here
    rwa [List.drop_take, List.drop_drop] at second
  simp only [word32?, Nat.add_assoc, word16_there b i numbers there _ _ low, word16_there b i numbers there _ _ high]
  change some _ = some _
  congr 1
  omega

end Words

end MatchTrace.Zip
