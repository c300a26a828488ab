import Mathlib.Algebra.Group.Nat.Defs
import Mathlib.Control.Basic
import Mathlib.Data.Option.Basic
import MatchTrace.Proofs.Zip.Bytes
import MatchTrace.Zip.Inflate

/-!
Inflating what was stored in blocks as it is. The bits of a block's header are read one by one, and all after them lie
at whole bytes.
-/

namespace MatchTrace.Zip

set_option autoImplicit false

namespace Bits

variable (p : ByteArray) (k : Nat) (x : UInt8) (here : p[k]? = some x)

theorem number_append (m n a b : Nat) (s t u : Bits) (low : s.number? m = some (a, t)) (high : t.number? n = some (b, u)) :
    s.number? (m + n) = some (a + 2 ^ m * b, u) := by
  induction m generalizing s a with
  | zero =>
      cases low
      rw [Nat.zero_add, high, Nat.pow_zero, Nat.one_mul, Nat.zero_add]
  | succ m ih =>
      rw [Nat.add_right_comm, number?]
      rw [number?] at low
      obtain ⟨⟨bit, s'⟩, next, low⟩ := Option.bind_eq_some_iff.mp low
      obtain ⟨⟨rest, t'⟩, read, low⟩ := Option.bind_eq_some_iff.mp low
      cases low
      rw [next]
      change (s'.number? (m + n)).bind _ = _
      rw [ih rest s' read]
      change some _ = some _
      rw [Nat.pow_succ, Nat.mul_comm _ 2, Nat.mul_assoc, Nat.mul_add, Nat.add_assoc]

include here

theorem next_bit (j : Nat) (inside : j < 8) :
    next? ⟨p, 8 * k + j⟩ = some (x.toNat / 2 ^ j % 2, ⟨p, 8 * k + j + 1⟩) := by
  have place : (8 * k + j) / 8 = k := by omega
  have bit : (8 * k + j) % 8 = j := by omega
  rw [next?, place, here, Option.map_some, bit, Nat.shiftRight_eq_div_pow]

theorem number_inside (count j : Nat) (inside : j + count ≤ 8) :
    number? ⟨p, 8 * k + j⟩ count = some (x.toNat / 2 ^ j % 2 ^ count, ⟨p, 8 * k + j + count⟩) := by
  induction count generalizing j with
  | zero =>
      rw [number?, Nat.pow_zero, Nat.mod_one]
      rfl
  | succ count ih =>
      rw [number?, next_bit p k x here j (by omega)]
      change (number? ⟨p, 8 * k + (j + 1)⟩ count).bind _ = _
      rw [ih (j + 1) (by omega)]
      change some (_, Bits.mk p _) = some (_, Bits.mk p _)
      have value : x.toNat / 2 ^ j % 2 + 2 * (x.toNat / 2 ^ (j + 1) % 2 ^ count) = x.toNat / 2 ^ j % 2 ^ (count + 1) := by
        rw [Nat.pow_succ 2 j, ← Nat.div_div_eq_div_mul, Nat.pow_succ, Nat.mul_comm _ 2, Nat.mod_mul]
      have places : 8 * k + (j + 1) + count = 8 * k + j + (count + 1) := by omega
      rw [value, places]

theorem number_byte : number? ⟨p, 8 * k⟩ 8 = some (x.toNat, ⟨p, 8 * (k + 1)⟩) := by
  have read := number_inside p k x here 8 0 (Nat.le_refl 8)
  rwa [Nat.pow_zero, Nat.div_one, Nat.mod_eq_of_lt x.toNat_lt] at read

omit here in
theorem number_word (n : Nat) (short : n ≤ 0xFFFF) (there : Holds p k ((word16 n).map Nat.toUInt8)) :
    number? ⟨p, 8 * k⟩ 16 = some (n, ⟨p, 8 * (k + 2)⟩) := by
  have low := number_byte p k _ (holds_byte p k _ there 0 _ rfl)
  have high := number_byte p (k + 1) _ (holds_byte p k _ there 1 _ rfl)
  have value : (n % 0x100).toUInt8.toNat + 2 ^ 8 * (n / 0x100 % 0x100).toUInt8.toNat = n := by
    rw [UInt8.toNat_ofNat', UInt8.toNat_ofNat']
    omega
  exact value ▸ number_append 8 8 _ _ _ _ _ low high

end Bits

section Stored

variable (p : ByteArray) (k : Nat) (out : ByteArray)

theorem stored_bytes (bytes : List UInt8) (there : Holds p k bytes) :
    storedBytes? bytes.length ⟨p, 8 * k⟩ out = some (bytes.foldl ByteArray.push out, ⟨p, 8 * (k + bytes.length)⟩) := by
  induction bytes generalizing k out with
  | nil => rfl
  | cons x bytes ih =>
      have here : p[k]? = some x := holds_byte p k _ there 0 x rfl
      have rest := ih (k + 1) (out.push x) (holds_back p k [x] bytes there)
      have place : 8 * k / 8 = k := Nat.mul_div_cancel_left k (by decide)
      have places : k + 1 + bytes.length = k + (bytes.length + 1) := by omega
      rw [places] at rest
      rw [List.length_cons, storedBytes?]
      simp only [place, here]
      exact rest

theorem push_all (chunk : ByteArray) : chunk.data.toList.foldl ByteArray.push out = out ++ chunk := by
  have pushed (bytes : List UInt8) : (bytes.foldl ByteArray.push out).data.toList = out.data.toList ++ bytes := by
    induction bytes generalizing out with
    | nil => exact (List.append_nil _).symm
    | cons x bytes ih =>
        rw [List.foldl_cons, ih, ByteArray.data_push, Array.toList_push, List.append_assoc]
        rfl
  exact bytes_ext _ _ ((pushed _).trans ByteArray.toList_data_append.symm)

variable (isLast : Bool) (chunk : ByteArray) (there : Holds p k (storedBlockBytes isLast chunk).data.toList)
  (short : chunk.size ≤ maxBlock)

theorem block_data :
    (storedBlockBytes isLast chunk).data.toList =
      [(if isLast then 1 else 0).toUInt8] ++ ((word16 chunk.size).map Nat.toUInt8 ++
        ((word16 (0xFFFF - chunk.size)).map Nat.toUInt8 ++ chunk.data.toList)) := by
  rw [storedBlockBytes, ByteArray.toList_data_append]
  rfl

theorem block_length : (storedBlockBytes isLast chunk).data.toList.length = 5 + chunk.size := by
  rw [length_data, storedBlockBytes, ByteArray.size_append]
  rfl

include there

theorem block_header : Bits.number? ⟨p, 8 * k⟩ 3 = some (if isLast then 1 else 0, ⟨p, 8 * k + 3⟩) := by
  rw [block_data] at there
  have here := holds_byte p k _ there 0 _ rfl
  have read := Bits.number_inside p k _ here 3 0 (by decide)
  cases isLast with
  | false => exact read
  | true => exact read

include short

theorem stored_block : block? 0 ⟨p, 8 * k + 3⟩ out = some (out ++ chunk, ⟨p, 8 * (k + 5 + chunk.size)⟩) := by
  rw [block_data] at there
  have sizes := holds_back p k _ _ there
  have rest := holds_back p _ _ _ sizes
  have aligned : Bits.align ⟨p, 8 * k + 3⟩ = ⟨p, 8 * (k + 1)⟩ := by
    have place : (8 * k + 3 + 7) / 8 * 8 = 8 * (k + 1) := by omega
    exact congrArg (Bits.mk p) place
  have count := Bits.number_word p (k + 1) chunk.size short (holds_front p _ _ _ sizes)
  have complement := Bits.number_word p (k + 3) (0xFFFF - chunk.size) (Nat.sub_le _ _) (holds_front p _ _ _ rest)
  have whole : chunk.size + (0xFFFF - chunk.size) = 0xFFFF := Nat.add_sub_cancel' short
  have size : storedSize? ⟨p, 8 * k + 3⟩ = some (chunk.size, ⟨p, 8 * (k + 5)⟩) := by
    rw [storedSize?, aligned, count]
    change (Bits.number? ⟨p, 8 * (k + 3)⟩ 16).bind _ = _
    rw [complement]
    simp only [Option.bind_some, whole, guard_true]
    rfl
  have read := stored_bytes p (k + 5) out _ (holds_back p _ _ _ rest)
  rw [length_data, push_all] at read
  rw [block?, if_pos rfl, size]
  exact read

theorem blocks_stored (n : Nat) :
    blocks? (n + 1) ⟨p, 8 * k⟩ out =
      if isLast then some (out ++ chunk) else blocks? n ⟨p, 8 * (k + 5 + chunk.size)⟩ (out ++ chunk) := by
  have block := stored_block p k out isLast chunk there short
  rw [blocks?, block_header p k isLast chunk there]
  cases isLast
  all_goals
    change (block? 0 ⟨p, 8 * k + 3⟩ out).bind _ = _
    rw [block]
    rfl

end Stored

-- The blocks hold what is behind the place, so each gives the next stretch of the bytes.
theorem stored_blocks (bytes p : ByteArray) (fuel start k n : Nat) (inside : start ≤ bytes.size)
    (enough : bytes.size < start + maxBlock * fuel) (there : Holds p k (storedBlocks bytes fuel start).data.toList)
    (short : (storedBlocks bytes fuel start).size < n) :
    blocks? n ⟨p, 8 * k⟩ (bytes.extract 0 start) = some bytes := by
  induction fuel generalizing start k n with
  | zero => omega
  | succ fuel ih =>
      obtain ⟨n, rfl⟩ : ∃ m, n = m + 1 := ⟨n - 1, by omega⟩
      rw [storedBlocks] at there short
      by_cases last : bytes.size ≤ start + maxBlock
      · rw [if_pos last] at there
        have width : (bytes.extract start bytes.size).size ≤ maxBlock := by
          rw [ByteArray.size_extract]
          omega
        rw [blocks_stored p k _ true _ there width, if_pos rfl, ByteArray.extract_append_extract, Nat.zero_min,
          Nat.max_eq_right inside, ByteArray.extract_zero_size]
      · rw [if_neg last] at there short
        rw [ByteArray.toList_data_append] at there
        have first := holds_front p k _ _ there
        have rest := holds_back p k _ _ there
        have width : (bytes.extract start (start + maxBlock)).size = maxBlock := by
          rw [ByteArray.size_extract]
          omega
        rw [block_length, ← Nat.add_assoc] at rest
        rw [blocks_stored p k _ false _ first (Nat.le_of_eq width), if_neg Bool.false_ne_true,
          ByteArray.extract_append_extract, Nat.zero_min, Nat.max_eq_right (Nat.le_add_right start maxBlock)]
        refine ih (start + maxBlock) _ n (by omega) ?_ rest ?_
        · rw [Nat.mul_succ] at enough
          omega
        · rw [ByteArray.size_append, ← length_data, block_length] at short
          omega

theorem inflate_stored (bytes : ByteArray) : inflate? (pack .deflated bytes) = some bytes := by
  have enough : bytes.size < 0 + maxBlock * (bytes.size / maxBlock + 1) := by
    have := Nat.lt_mul_div_succ bytes.size (show 0 < maxBlock by decide)
    omega
  have fuel : (pack .deflated bytes).size < 8 * (pack .deflated bytes).size + 1 := by omega
  have blocks := stored_blocks bytes _ _ 0 0 _ (Nat.zero_le _) enough (holds_self _) fuel
  rwa [ByteArray.extract_same] at blocks

end MatchTrace.Zip
