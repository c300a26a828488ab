import MatchTrace.Text.Utf8

/-!
Text read from the bytes that it is written as.
-/

namespace MatchTrace.Utf8

set_option autoImplicit false

section Char

variable (n : Nat) (rest : List UInt8)

theorem chars_lead (b : Nat) (c : Begun) (byte : b < 0x100) (lead : first b = ([], some c)) :
    charsFrom none (UInt8.ofNat b :: rest) = charsFrom (some c) rest := by
  have same : (UInt8.ofNat b).toNat = b := UInt8.toNat_ofNat_of_lt' byte
  rw [charsFrom, step, same, lead]
  rfl

theorem tail_byte : (UInt8.ofNat (n % 0x40 + 0x80)).toNat = n % 0x40 + 0x80 := by
  rw [UInt8.toNat_ofNat']
  omega

section Tail

variable (value least greatest : Nat) (low : least ≤ n % 0x40 + 0x80) (high : n % 0x40 + 0x80 ≤ greatest)

include low high

theorem chars_inner (lacking : Nat) :
    charsFrom (some ⟨value, lacking + 2, least, greatest⟩) (UInt8.ofNat (n % 0x40 + 0x80) :: rest) =
      charsFrom (some ⟨0x40 * value + n % 0x40, lacking + 1, 0x80, 0xBF⟩) rest := by
  have bits : (n % 0x40 + 0x80) % 0x40 = n % 0x40 := by omega
  have more : lacking + 2 ≠ 1 := by omega
  rw [charsFrom, step, tail_byte, if_pos ⟨low, high⟩, bits, if_neg more]
  rfl

theorem chars_last :
    charsFrom (some ⟨value, 1, least, greatest⟩) (UInt8.ofNat (n % 0x40 + 0x80) :: rest) =
      Char.ofNat (0x40 * value + n % 0x40) :: charsFrom none rest := by
  have bits : (n % 0x40 + 0x80) % 0x40 = n % 0x40 := by omega
  rw [charsFrom, step, tail_byte, if_pos ⟨low, high⟩, bits, if_pos rfl]
  rfl

end Tail

theorem first_of_two (low : 0x7F < n) (high : n ≤ 0x7FF) :
    first (n / 0x40 % 0x20 + 0xC0) = ([], some { value := n / 0x40, lacking := 1 }) := by
  have bits : (n / 0x40 % 0x20 + 0xC0) % 0x20 = n / 0x40 := by omega
  rw [first, if_neg (by omega), if_neg (by omega), if_pos (by omega), bits]

-- The bounds of the second byte keep out what is no character or has a shorter form.
theorem first_of_three (low : 0x7FF < n) (high : n ≤ 0xFFFF) (valid : n < 0xD800 ∨ 0xDFFF < n) :
    ∃ least greatest, first (n / 0x1000 % 0x10 + 0xE0) = ([], some ⟨n / 0x1000, 2, least, greatest⟩) ∧
      least ≤ n / 0x40 % 0x40 + 0x80 ∧ n / 0x40 % 0x40 + 0x80 ≤ greatest := by
  have bits : (n / 0x1000 % 0x10 + 0xE0) % 0x10 = n / 0x1000 := by omega
  rw [first, if_neg (by omega), if_neg (by omega), if_neg (by omega), bits]
  by_cases least : n / 0x1000 % 0x10 + 0xE0 = 0xE0
  · exact ⟨0xA0, 0xBF, if_pos least, by omega, by omega⟩
  · rw [if_neg least]
    by_cases surrogate : n / 0x1000 % 0x10 + 0xE0 = 0xED
    · exact ⟨0x80, 0x9F, if_pos surrogate, by omega, by omega⟩
    · rw [if_neg surrogate, if_pos (by omega)]
      exact ⟨0x80, 0xBF, rfl, by omega, by omega⟩

theorem first_of_four (low : 0xFFFF < n) (high : n < 0x110000) :
    ∃ least greatest, first (n / 0x40000 % 8 + 0xF0) = ([], some ⟨n / 0x40000, 3, least, greatest⟩) ∧
      least ≤ n / 0x1000 % 0x40 + 0x80 ∧ n / 0x1000 % 0x40 + 0x80 ≤ greatest := by
  have bits : (n / 0x40000 % 8 + 0xF0) % 8 = n / 0x40000 := by omega
  rw [first, if_neg (by omega), if_neg (by omega), if_neg (by omega), if_neg (by omega), if_neg (by omega),
    if_neg (by omega), bits]
  by_cases least : n / 0x40000 % 8 + 0xF0 = 0xF0
  · exact ⟨0x90, 0xBF, if_pos least, by omega, by omega⟩
  · rw [if_neg least]
    by_cases inner : n / 0x40000 % 8 + 0xF0 < 0xF4
    · exact ⟨0x80, 0xBF, if_pos inner, by omega, by omega⟩
    · rw [if_neg inner, if_pos (by omega)]
      exact ⟨0x80, 0x8F, rfl, by omega, by omega⟩

theorem chars_encoded (c : Char) : charsFrom none (String.utf8EncodeChar c ++ rest) = c :: charsFrom none rest := by
  have same : Char.ofNat c.val.toNat = c := Char.ofNat_toNat c
  have valid : c.val.toNat < 0xD800 ∨ 0xDFFF < c.val.toNat ∧ c.val.toNat < 0x110000 := c.valid
  simp only [String.utf8EncodeChar]
  generalize c.val.toNat = n at same valid
  by_cases one : n ≤ 0x7F
  · have lead : first n = ([Char.ofNat n], none) := by rw [first, if_pos (by omega)]
    rw [if_pos one, List.singleton_append, charsFrom, step, UInt8.toNat_ofNat_of_lt' (show n < 256 by omega), lead, same]
    rfl
  by_cases two : n ≤ 0x7FF
  · have whole : 0x40 * (n / 0x40) + n % 0x40 = n := Nat.div_add_mod n 0x40
    rw [if_neg one, if_pos two, List.cons_append, chars_lead _ _ _ (by omega) (first_of_two n (by omega) two),
      List.singleton_append, chars_last n rest _ _ _ (by omega) (by omega), whole, same]
  by_cases three : n ≤ 0xFFFF
  · have whole : 0x40 * (0x40 * (n / 0x1000) + n / 0x40 % 0x40) + n % 0x40 = n := by omega
    obtain ⟨least, greatest, lead, low, high⟩ := first_of_three n (by omega) three (by omega)
    rw [if_neg one, if_neg two, if_pos three, List.cons_append, chars_lead _ _ _ (by omega) lead, List.cons_append,
      chars_inner (n / 0x40) _ _ _ _ low high, List.singleton_append, chars_last n rest _ _ _ (by omega) (by omega), whole,
      same]
  · have whole : 0x40 * (0x40 * (0x40 * (n / 0x40000) + n / 0x1000 % 0x40) + n / 0x40 % 0x40) + n % 0x40 = n := by omega
    obtain ⟨least, greatest, lead, low, high⟩ := first_of_four n (by omega) (by omega)
    rw [if_neg one, if_neg two, if_neg three, List.cons_append, chars_lead _ _ _ (by omega) lead, List.cons_append,
      chars_inner (n / 0x1000) _ _ _ _ low high, List.cons_append, chars_inner (n / 0x40) _ _ _ _ (by omega) (by omega),
      List.singleton_append, chars_last n rest _ _ _ (by omega) (by omega), whole, same]

end Char

theorem bytes_from (bytes : ByteArray) (i : Nat) (done : List UInt8) :
    ByteArray.toList.loop bytes i done = done.reverse ++ bytes.data.toList.drop i := by
  fun_induction ByteArray.toList.loop bytes i done with
  | case1 i done inside ih =>
      have here : bytes.get! i = bytes.data.toList[i] := getElem!_pos bytes.data i inside
      rw [ih, here, List.reverse_cons, List.append_assoc, List.singleton_append, List.getElem_cons_drop]
  | case2 i done outside =>
      rw [List.drop_eq_nil_of_le (Nat.le_of_not_lt outside), List.append_nil]

theorem to_list_data (bytes : ByteArray) : bytes.toList = bytes.data.toList := by
  rw [ByteArray.toList, bytes_from]
  rfl

theorem chars_written (cs : List Char) : charsFrom none (cs.flatMap String.utf8EncodeChar) = cs := by
  induction cs with
  | nil => rfl
  | cons c cs ih => rw [List.flatMap_cons, chars_encoded, ih]

theorem decode_written (s : String) : decodeLossy s.toUTF8 = s := by
  have bytes : s.toUTF8.data.toList = s.toList.flatMap String.utf8EncodeChar := by
    rw [String.toUTF8, ← String.utf8Encode_toList, List.utf8Encode, List.toList_data_toByteArray]
  rw [decodeLossy, to_list_data, bytes, chars_written, String.ofList_toList]

end MatchTrace.Utf8
