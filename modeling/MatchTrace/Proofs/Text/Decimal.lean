import Mathlib.Algebra.Group.Int.Defs
import Mathlib.Algebra.GroupWithZero.Nat
import MatchTrace.Text.Decimal

/-!
Which texts are numerals, and of which numbers. A numeral is read exactly if its number is within the limit, and numerals
that were written read back as their numbers.
-/

namespace MatchTrace.Decimal

set_option autoImplicit false

structure Digits (cs : List Char) (n : Nat) : Prop where
  solid : cs ≠ []
  digits : ∀ c ∈ cs, '0' ≤ c ∧ c ≤ '9'
  value : Nat.ofDigitChars 10 cs 0 = n

inductive Unsigned : List Char → Nat → Prop where
  | bare (cs : List Char) (n : Nat) : Digits cs n → Unsigned cs n
  | plus (cs : List Char) (n : Nat) : Digits cs n → Unsigned ('+' :: cs) n

inductive Signed : List Char → Int → Prop where
  | unsigned (cs : List Char) (n : Nat) : Unsigned cs n → Signed cs n
  | minus (cs : List Char) (n : Nat) : Digits cs n → Signed ('-' :: cs) (-n)

theorem nat_chars (n : Nat) : (toString n).toList = Nat.toDigits 10 n := by
  rw [Nat.toString_eq_repr, Nat.toList_repr]

theorem int_chars (z : Int) : (toString z).toList =
    if z < 0 then '-' :: Nat.toDigits 10 z.natAbs else Nat.toDigits 10 z.natAbs := by
  cases z with
  | ofNat n =>
      rw [if_neg (by simp)]
      exact nat_chars n
  | negSucc n =>
      rw [if_pos (Int.negSucc_lt_zero n), Int.toString_eq_repr, Int.repr]
      simp

theorem digit_bounds (n : Nat) (c : Char) (mem : c ∈ Nat.toDigits 10 n) : '0' ≤ c ∧ c ≤ '9' := by
  have digit := Nat.isDigit_of_mem_toDigits (by decide) (by decide) mem
  rw [Char.isDigit_iff_toNat] at digit
  exact digit

theorem digits_of (n : Nat) : Digits (Nat.toDigits 10 n) n :=
  ⟨Nat.toDigits_ne_nil, digit_bounds n, Nat.ofDigitChars_ten_toDigits⟩

theorem digits_grow (cs : List Char) (acc : Nat) : acc ≤ Nat.ofDigitChars 10 cs acc := by
  rw [Nat.ofDigitChars_eq_ofDigitChars_zero]
  have := Nat.mul_le_mul_right acc (Nat.one_le_pow cs.length 10 (by decide))
  omega

theorem value_within_iff (limit acc : Nat) (cs : List Char) (n : Nat) :
    valueWithin limit acc cs = some n ↔
      (∀ c ∈ cs, '0' ≤ c ∧ c ≤ '9') ∧ Nat.ofDigitChars 10 cs acc = n ∧ n ≤ limit := by
  induction cs generalizing acc with
  | nil =>
      rw [valueWithin, Nat.ofDigitChars_nil]
      by_cases past : limit < acc
      · rw [if_pos past]
        refine iff_of_false (fun none => nomatch none) ?_
        rintro ⟨-, rfl, within⟩
        exact Nat.not_le_of_lt past within
      · rw [if_neg past]
        refine ⟨?_, ?_⟩
        · rintro ⟨⟩
          exact ⟨fun _ none => (nomatch none), rfl, Nat.not_lt.mp past⟩
        · rintro ⟨-, rfl, -⟩
          rfl
  | cons c cs ih =>
      rw [valueWithin, Nat.ofDigitChars_cons, List.forall_mem_cons]
      by_cases past : limit < acc
      · rw [if_pos past]
        refine iff_of_false (fun none => nomatch none) ?_
        rintro ⟨-, rfl, within⟩
        have grown := digits_grow cs (10 * acc + (c.toNat - '0'.toNat))
        omega
      · rw [if_neg past]
        by_cases digit : '0' ≤ c ∧ c ≤ '9'
        · have first : digit? c = some (c.toNat - '0'.toNat) := if_pos digit
          simp only [first, ih, Nat.mul_comm acc 10, digit, true_and]
        · have none : digit? c = none := if_neg digit
          simp only [none, digit, false_and, reduceCtorEq]

theorem up_to_iff (limit : Nat) (cs : List Char) (n : Nat) : upTo? limit cs = some n ↔ Digits cs n ∧ n ≤ limit := by
  cases cs with
  | nil =>
      refine iff_of_false (fun none => nomatch none) ?_
      rintro ⟨none, -⟩
      exact none.solid rfl
  | cons c cs =>
      rw [upTo?, value_within_iff]
      · constructor
        · rintro ⟨digits, value, within⟩
          exact ⟨⟨List.cons_ne_nil c cs, digits, value⟩, within⟩
        · rintro ⟨⟨-, digits, value⟩, within⟩
          exact ⟨digits, value, within⟩
      · exact List.cons_ne_nil c cs

theorem up_to_digits (limit n : Nat) (bound : n ≤ limit) : upTo? limit (Nat.toDigits 10 n) = some n :=
  (up_to_iff limit _ n).mpr ⟨digits_of n, bound⟩

theorem digits_unsigned (c : Char) (cs : List Char) (n : Nat) (digits : Digits (c :: cs) n) : c ≠ '+' ∧ c ≠ '-' := by
  have bounds := digits.digits c List.mem_cons_self
  refine ⟨?_, ?_⟩ <;> rintro rfl <;> revert bounds <;> decide

theorem digits_cons (n : Nat) : ∃ c cs, Nat.toDigits 10 n = c :: cs ∧ c ≠ '+' ∧ c ≠ '-' := by
  have digits := digits_of n
  cases written : Nat.toDigits 10 n with
  | nil => exact absurd written Nat.toDigits_ne_nil
  | cons c cs =>
      rw [written] at digits
      exact ⟨c, cs, rfl, digits_unsigned c cs n digits⟩

section Signs

variable (cs : List Char) (n : Nat) (z : Int)

theorem unsigned_plus : Unsigned ('+' :: cs) n ↔ Digits cs n := by
  constructor
  · intro spelled
    cases spelled with
    | bare _ _ digits => exact absurd rfl (digits_unsigned _ _ n digits).1
    | plus _ _ digits => exact digits
  · exact .plus cs n

theorem unsigned_bare (bare : ∀ rest, cs ≠ '+' :: rest) : Unsigned cs n ↔ Digits cs n := by
  constructor
  · intro spelled
    cases spelled with
    | bare _ _ digits => exact digits
    | plus rest _ _ => exact absurd rfl (bare rest)
  · exact .bare cs n

theorem signed_minus : Signed ('-' :: cs) z ↔ ∃ n : Nat, Digits cs n ∧ -(n : Int) = z := by
  constructor
  · intro spelled
    cases spelled with
    | unsigned _ n spelled =>
        rw [unsigned_bare _ _ (by simp)] at spelled
        exact absurd rfl (digits_unsigned _ _ n spelled).2
    | minus _ n digits => exact ⟨n, digits, rfl⟩
  · rintro ⟨n, digits, rfl⟩
    exact .minus cs n digits

theorem signed_unsigned (bare : ∀ rest, cs ≠ '-' :: rest) : Signed cs z ↔ ∃ n : Nat, Unsigned cs n ∧ (n : Int) = z := by
  constructor
  · intro spelled
    cases spelled with
    | unsigned _ n spelled => exact ⟨n, spelled, rfl⟩
    | minus rest _ _ => exact absurd rfl (bare rest)
  · rintro ⟨n, spelled, rfl⟩
    exact .unsigned cs n spelled

end Signs

theorem nat_iff (limit : Nat) (s : String) (n : Nat) : nat? limit s = some n ↔ Unsigned s.toList n ∧ n ≤ limit := by
  rw [nat?]
  split
  · next cs written => rw [written, up_to_iff, unsigned_plus]
  · next bare => rw [up_to_iff, unsigned_bare _ n bare]

theorem bound_iff (P : Nat → Prop) (sign : Nat → Int) (limit : Nat) (z : Int)
    (exact : ∀ n, n ≤ limit ↔ -2 ^ 63 ≤ sign n ∧ sign n < 2 ^ 63) :
    (∃ n, (P n ∧ n ≤ limit) ∧ sign n = z) ↔ (∃ n, P n ∧ sign n = z) ∧ -2 ^ 63 ≤ z ∧ z < 2 ^ 63 := by
  constructor
  · rintro ⟨n, ⟨holds, within⟩, rfl⟩
    exact ⟨⟨n, holds, rfl⟩, (exact n).mp within⟩
  · rintro ⟨⟨n, holds, rfl⟩, within⟩
    exact ⟨n, ⟨holds, (exact n).mpr within⟩, rfl⟩

theorem int_iff (s : String) (z : Int) : int? s = some z ↔ Signed s.toList z ∧ -2 ^ 63 ≤ z ∧ z < 2 ^ 63 := by
  have positive (n : Nat) : n ≤ maxSigned ↔ -2 ^ 63 ≤ (n : Int) ∧ (n : Int) < 2 ^ 63 := by
    simp only [maxSigned]
    omega
  have negative (n : Nat) : n ≤ maxSigned + 1 ↔ -2 ^ 63 ≤ -(n : Int) ∧ -(n : Int) < 2 ^ 63 := by
    simp only [maxSigned]
    omega
  rw [int?]
  split
  · next cs written =>
      rw [written, signed_unsigned _ _ (by simp)]
      simp only [unsigned_plus, Option.map_eq_some_iff, up_to_iff]
      exact bound_iff (Digits cs) Int.ofNat maxSigned z positive
  · next cs written =>
      rw [written, signed_minus]
      simp only [Option.map_eq_some_iff, up_to_iff]
      exact bound_iff (Digits cs) (fun n => -(n : Int)) (maxSigned + 1) z negative
  · next noPlus noMinus =>
      rw [signed_unsigned _ _ noMinus]
      simp only [unsigned_bare _ _ noPlus, Option.map_eq_some_iff, up_to_iff]
      exact bound_iff (Digits s.toList) Int.ofNat maxSigned z positive

theorem unsigned_of (n : Nat) : Unsigned (toString n).toList n := by
  rw [nat_chars]
  exact .bare _ n (digits_of n)

theorem signed_of (z : Int) : Signed (toString z).toList z := by
  have digits := digits_of z.natAbs
  rw [int_chars]
  by_cases negative : z < 0
  · have worth : -(z.natAbs : Int) = z := by omega
    have spelled := Signed.minus _ _ digits
    rw [worth] at spelled
    rwa [if_pos negative]
  · have worth : (z.natAbs : Int) = z := by omega
    have spelled := Signed.unsigned _ _ (.bare _ _ digits)
    rw [worth] at spelled
    rwa [if_neg negative]

theorem nat_of_string (limit n : Nat) (bound : n ≤ limit) : nat? limit (toString n) = some n :=
  (nat_iff limit _ n).mpr ⟨unsigned_of n, bound⟩

theorem int_of_string (z : Int) (low : -2 ^ 63 ≤ z) (high : z < 2 ^ 63) : int? (toString z) = some z :=
  (int_iff _ z).mpr ⟨signed_of z, low, high⟩

end MatchTrace.Decimal
