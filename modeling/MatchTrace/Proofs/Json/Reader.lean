import MatchTrace.Json.Printer
import MatchTrace.Json.Reader
import MatchTrace.Proofs.Text.Decimal

/-!
JSON text that was written reads back as the value it was written from.
-/

namespace MatchTrace.JsonValue

set_option autoImplicit false

theorem hex_digit_char (k : Nat) (small : k < 16) : hexDigit? k.digitChar = some k := by
  decide +revert

theorem hex_unit_control (n : Nat) (small : n < 0x20) :
    hexUnit? '0' '0' (n / 16).digitChar (n % 16).digitChar = some n := by
  simp only [hexUnit?, hex_digit_char (n / 16) (by omega), hex_digit_char (n % 16) (by omega)]
  have zero : hexDigit? '0' = some 0 := by decide
  simp [zero]
  omega

theorem escape_control (c : Char) (small : c.toNat < 0x20) :
    escapeControl c = ['\\', 'u', '0', '0', (c.toNat / 16).digitChar, (c.toNat % 16).digitChar] := by
  rw [escapeControl, Nat.toDigits_of_lt_base (by omega), Nat.toDigits_of_lt_base (by omega)]
  rfl

theorem escape_char_cases (c : Char) :
    (escapeChar? c = none ∧ c ≠ '"' ∧ c ≠ '\\' ∧ ¬ c.toNat < 0x20) ∨
    (∃ d, escapeChar? c = some ['\\', d] ∧ d ≠ 'u' ∧ shortEscape? d = some c) ∨
      ∃ h l, escapeChar? c = some ['\\', 'u', '0', '0', h, l] ∧ hexUnit? '0' '0' h l = some c.toNat ∧
        c.toNat < 0x20 := by
  by_cases same : c = '"' ∨ c = '\\'
  · exact .inr (.inl ⟨c, by rw [escapeChar?, if_pos same], by rcases same with rfl | rfl <;> decide,
      by rcases same with rfl | rfl <;> decide⟩)
  by_cases backspace : c = '\x08'
  · exact .inr (.inl ⟨'b', by subst backspace; decide, by decide, by subst backspace; decide⟩)
  by_cases page : c = '\x0c'
  · exact .inr (.inl ⟨'f', by subst page; decide, by decide, by subst page; decide⟩)
  by_cases feed : c = '\n'
  · exact .inr (.inl ⟨'n', by subst feed; decide, by decide, by subst feed; decide⟩)
  by_cases back : c = '\r'
  · exact .inr (.inl ⟨'r', by subst back; decide, by decide, by subst back; decide⟩)
  by_cases tab : c = '\t'
  · exact .inr (.inl ⟨'t', by subst tab; decide, by decide, by subst tab; decide⟩)
  by_cases small : c.toNat < 0x20
  · refine .inr (.inr ⟨_, _, ?_, hex_unit_control c.toNat small, small⟩)
    simp only [escapeChar?, same, backspace, page, feed, back, tab, small, if_false, if_true, escape_control c small]
  · refine .inl ⟨?_, fun eq => same (.inl eq), fun eq => same (.inr eq), small⟩
    simp only [escapeChar?, same, backspace, page, feed, back, tab, small, if_false]

theorem escape_cons (c : Char) (s : List Char) : escape (c :: s) = (escapeChar? c).getD [c] ++ escape s :=
  List.flatMap_cons

theorem unescape_plain (c : Char) (rest : List Char) (plain : c ≠ '\\') :
    unescape (c :: rest) = (unescape rest).map (c :: ·) := by
  rw [unescape]
  · cases unescape rest <;> rfl
  · exact fun _ _ _ _ _ same => absurd same.symm plain.symm
  · exact fun _ _ same => absurd same.symm plain.symm

theorem unescape_short (d c : Char) (rest : List Char) (short : d ≠ 'u') (stands : shortEscape? d = some c) :
    unescape ('\\' :: d :: rest) = (unescape rest).map (c :: ·) := by
  rw [unescape, stands]
  · cases unescape rest <;> rfl
  · exact fun _ _ _ _ _ same => absurd same.symm short.symm

theorem unescape_unit (a b h l : Char) (n : Nat) (rest : List Char) (unit : hexUnit? a b h l = some n)
    (basic : n < 0xD800) : unescape ('\\' :: 'u' :: a :: b :: h :: l :: rest) =
      (unescape rest).map (Char.ofNat n :: ·) := by
  have high : isHighSurrogate n = false := by simp [isHighSurrogate]; omega
  have low : isLowSurrogate n = false := by simp [isLowSurrogate]; omega
  rw [unescape.eq_def]
  simp only [unit, Option.bind_eq_bind, Option.bind_some, high, low, Bool.false_eq_true, if_false]
  cases unescape rest <;> rfl

theorem unescape_escape (s : List Char) : unescape (escape s) = some s := by
  induction s with
  | nil => rfl
  | cons c s ih =>
      rw [escape_cons]
      rcases escape_char_cases c with ⟨same, _, plain, _⟩ | ⟨d, written, short, stands⟩ | ⟨h, l, written, unit, small⟩
      · rw [same, Option.getD_none, List.singleton_append, unescape_plain c _ plain, ih, Option.map_some]
      · rw [written, Option.getD_some, List.cons_append, List.singleton_append, unescape_short d c _ short stands, ih,
          Option.map_some]
      · rw [written, Option.getD_some]
        simp only [List.cons_append, List.nil_append]
        rw [unescape_unit _ _ h l c.toNat _ unit (by omega), ih, Option.map_some, Char.ofNat_toNat]

theorem read_literal_escape (s rest : List Char) : readLiteral (escape s ++ '"' :: rest) = some (escape s, rest) := by
  induction s with
  | nil => rfl
  | cons c s ih =>
      rw [escape_cons, List.append_assoc]
      rcases escape_char_cases c with ⟨same, quote, plain, big⟩ | ⟨d, written, short, stands⟩ | ⟨h, l, written, unit, _⟩
      · rw [same, Option.getD_none, List.singleton_append, readLiteral, if_neg (by simp [plain, big]), ih]
        · rfl
        · exact fun same => absurd same.symm quote.symm
        · exact fun _ _ _ _ _ same => absurd same.symm plain.symm
        · exact fun _ _ same => absurd same.symm plain.symm
      · rw [written, Option.getD_some, List.cons_append, List.singleton_append, readLiteral, stands]
        · simp only [ih]
          rfl
        · exact fun _ _ _ _ _ same => absurd same.symm short.symm
      · rw [written, Option.getD_some]
        simp only [List.cons_append, List.nil_append]
        rw [readLiteral, unit]
        simp only [ih]
        rfl

def Stops (rest : List Char) : Prop :=
  ∀ c cs, rest = c :: cs → isDigit c = false ∧ c ≠ '.' ∧ c ≠ 'e' ∧ c ≠ 'E'

theorem stops_cons (c : Char) (rest : List Char) (mark : c = ',' ∨ c = ']' ∨ c = '\x7d' ∨ isBlank c = true) :
    Stops (c :: rest) := by
  rintro d cs same
  obtain ⟨rfl, -⟩ := List.cons.inj same
  rcases mark with rfl | rfl | rfl | blank
  · decide
  · decide
  · decide
  · simp only [isBlank, Bool.or_eq_true, decide_eq_true_eq] at blank
    rcases blank with ((rfl | rfl) | rfl) | rfl <;> decide

theorem leading_zero (n : Nat) (cs : List Char) (zero : Nat.toDigits 10 n = '0' :: cs) : cs = [] := by
  induction n using Nat.strongRecOn generalizing cs with
  | ind n ih =>
      by_cases small : n < 10
      · rw [Nat.toDigits_of_lt_base small] at zero
        exact (List.cons.inj zero).2.symm
      · rw [Nat.toDigits_of_base_le (by decide) (by omega)] at zero
        cases front : Nat.toDigits 10 (n / 10) with
        | nil => exact absurd front Nat.toDigits_ne_nil
        | cons d ds =>
            rw [front, List.cons_append] at zero
            obtain ⟨rfl, -⟩ := List.cons.inj zero
            have value : Nat.ofDigitChars 10 (Nat.toDigits 10 (n / 10)) 0 = n / 10 := Nat.ofDigitChars_ten_toDigits
            rw [front, ih (n / 10) (by omega) ds front] at value
            have : n / 10 = 0 := value.symm
            omega

theorem read_digits (n : Nat) (rest : List Char) (stops : Stops rest) :
    readDigits (Nat.toDigits 10 n ++ rest) = some (Nat.toDigits 10 n, rest) := by
  have digits : ∀ c ∈ Nat.toDigits 10 n, isDigit c = true := by
    intro c mem
    simpa [isDigit] using Decimal.digit_bounds n c mem
  have after : rest.takeWhile isDigit = [] ∧ rest.dropWhile isDigit = rest := by
    cases rest with
    | nil => exact ⟨rfl, rfl⟩
    | cons c cs =>
        have := (stops c cs rfl).1
        simp [this]
  rw [readDigits, List.takeWhile_append_of_pos digits, List.dropWhile_append_of_pos digits, after.1, after.2,
    List.append_nil]
  split
  · next none => exact absurd none Nat.toDigits_ne_nil
  · rfl

theorem read_unsigned (n : Nat) (rest : List Char) (stops : Stops rest) :
    readUnsigned (Nat.toDigits 10 n ++ rest) = some (Nat.toDigits 10 n, rest) := by
  have whole : readWhole (Nat.toDigits 10 n ++ rest) = some (Nat.toDigits 10 n, rest) := by
    rw [readWhole, read_digits n rest stops]
    split
    · next digits =>
        simp only [Option.some.injEq, Prod.mk.injEq] at digits
        nomatch leading_zero n _ digits.1
    · rfl
  have fraction : readFraction rest = some ([], rest) := by
    rw [readFraction]
    · exact fun cs same => absurd rfl (stops '.' cs same).2.1
  have exponent : readExponent rest = some ([], rest) := by
    cases rest with
    | nil => rfl
    | cons c cs =>
        obtain ⟨_, _, small, large⟩ := stops c cs rfl
        rw [readExponent, if_neg (by simp [small, large])]
  simp [readUnsigned, whole, fraction, exponent]

theorem read_number (z : Int) (rest : List Char) (stops : Stops rest) :
    readNumber ((toString z).toList ++ rest) = some ((toString z).toList, rest) := by
  rw [Decimal.int_chars]
  by_cases negative : z < 0
  · rw [if_pos negative, List.cons_append, readNumber, read_unsigned _ rest stops]
    rfl
  · obtain ⟨c, cs, digits, _, positive⟩ := Decimal.digits_cons z.natAbs
    have read := read_unsigned z.natAbs rest stops
    rw [digits] at read
    rw [if_neg negative, digits, List.cons_append, readNumber]
    · exact read
    · exact fun _ same => absurd (List.cons.inj same).1 positive

-- Values whose literals were written from numbers and texts.
inductive Printed : JsonValue → Prop where
  | null : Printed .null
  | bool (value : Bool) : Printed (.bool value)
  | number (z : Int) : Printed (.number (toString z).toList)
  | string (s : List Char) : Printed (.string (escape s))
  | array (items : List JsonValue) : (∀ v ∈ items, Printed v) → Printed (.array items)
  | object (members : List (List Char × JsonValue)) :
      (∀ m ∈ members, ∃ key, m.1 = escape key) → (∀ m ∈ members, Printed m.2) → Printed (.object members)

def afterItems (gap : List Char) : List JsonValue → List Char
  | [] => []
  | x :: xs => ',' :: (gap ++ (x.compactChars ++ afterItems gap xs))

def memberChars (m : List Char × JsonValue) : List Char := quoted m.1 ++ ':' :: m.2.compactChars

def afterMembers : List (List Char × JsonValue) → List Char
  | [] => []
  | m :: ms => ',' :: (memberChars m ++ afterMembers ms)

theorem literal_pieces_flatten (run literal : List Char) :
    (literalPieces run literal).flatten = run.reverse ++ literal := by
  fun_induction literalPieces run literal with
  | case1 run => simp
  | case2 run a b c d rest ih => simp [ih]
  | case3 run c rest _ ih => simp [ih]
  | case4 run c rest _ _ ih => simp [ih]

theorem quoted_flatten (literal : List Char) : (quotedPieces literal).flatten = quoted literal := by
  simp [quotedPieces, literal_pieces_flatten, quoted]

theorem compact_string (literal : List Char) : (JsonValue.string literal).compactChars = quoted literal := by
  rw [compactChars, pieces, quoted_flatten]

theorem item_pieces_flatten (xs : List JsonValue) : (itemPieces true xs).flatten = afterItems [] xs := by
  induction xs with
  | nil => simp [itemPieces, afterItems]
  | cons x xs ih => simp [itemPieces, afterItems, ih, compactChars]

theorem compact_array (x : JsonValue) (xs : List JsonValue) :
    (JsonValue.array (x :: xs)).compactChars = '[' :: (x.compactChars ++ (afterItems [] xs ++ [']'])) := by
  simp [compactChars, pieces, itemPieces, item_pieces_flatten]

theorem member_pieces_flatten (ms : List (List Char × JsonValue)) :
    (memberPieces true ms).flatten = afterMembers ms := by
  induction ms with
  | nil => simp [memberPieces, afterMembers]
  | cons m ms ih =>
      simp [memberPieces, afterMembers, memberChars, ih, compactChars, quoted_flatten]

theorem compact_object (m : List Char × JsonValue) (ms : List (List Char × JsonValue)) :
    (JsonValue.object (m :: ms)).compactChars = '\x7b' :: (memberChars m ++ (afterMembers ms ++ ['\x7d'])) := by
  simp [compactChars, pieces, memberPieces, member_pieces_flatten, memberChars, quoted_flatten]

theorem number_first (z : Int) : ∃ c cs, (toString z).toList = c :: cs ∧ (c = '-' ∨ '0' ≤ c ∧ c ≤ '9') := by
  rw [Decimal.int_chars]
  by_cases negative : z < 0
  · exact ⟨'-', _, if_pos negative, .inl rfl⟩
  · obtain ⟨c, cs, digits, _, _⟩ := Decimal.digits_cons z.natAbs
    refine ⟨c, cs, by rw [if_neg negative, digits], .inr (Decimal.digit_bounds z.natAbs c ?_)⟩
    rw [digits]
    exact List.mem_cons_self

theorem printed_first (v : JsonValue) (printed : Printed v) :
    ∃ c cs, v.compactChars = c :: cs ∧ isBlank c = false ∧ c ≠ ']' := by
  cases printed with
  | null => exact ⟨'n', _, rfl, by decide, by decide⟩
  | bool value =>
      cases value with
      | true => exact ⟨'t', _, rfl, by decide, by decide⟩
      | false => exact ⟨'f', _, rfl, by decide, by decide⟩
  | number z =>
      obtain ⟨c, cs, chars, first⟩ := number_first z
      refine ⟨c, cs, by simpa [compactChars, pieces] using chars, ?_⟩
      rcases first with rfl | digit
      · decide
      · refine ⟨Bool.eq_false_iff.mpr fun blank => ?_, fun same => ?_⟩
        · simp only [isBlank, Bool.or_eq_true, decide_eq_true_eq] at blank
          rcases blank with ((rfl | rfl) | rfl) | rfl <;> revert digit <;> decide
        · subst same
          revert digit
          decide
  | string s => exact ⟨'"', _, compact_string _, by decide, by decide⟩
  | array items => exact ⟨'[', _, rfl, by decide, by decide⟩
  | object members => exact ⟨'\x7b', _, rfl, by decide, by decide⟩

-- The text of the value reads as the value, with two steps for each character.
def Reads (v : JsonValue) : Prop :=
  ∀ n rest, 2 * v.compactChars.length ≤ n → Stops rest → readValue n (v.compactChars ++ rest) = some (v, rest)

theorem skip_mark (c : Char) (cs : List Char) (mark : isBlank c = false) : skipBlanks (c :: cs) = c :: cs := by
  rw [skipBlanks, List.dropWhile_cons_of_neg (by simp [mark])]

theorem skip_gap (gap cs : List Char) (blank : ∀ c ∈ gap, isBlank c = true) : skipBlanks (gap ++ cs) = skipBlanks cs :=
  List.dropWhile_append_of_pos blank

theorem skip_printed (v : JsonValue) (printed : Printed v) (rest : List Char) :
    skipBlanks (v.compactChars ++ rest) = v.compactChars ++ rest := by
  obtain ⟨c, cs, chars, solid, _⟩ := printed_first v printed
  rw [chars, List.cons_append, skip_mark c _ solid]

section Items

variable (gap closing : List Char) (blank : ∀ c ∈ gap, isBlank c = true) (clear : ∀ c ∈ closing, isBlank c = true)
include clear

theorem stops_after_items (xs : List JsonValue) (rest : List Char) :
    Stops (afterItems gap xs ++ (closing ++ ']' :: rest)) := by
  cases xs with
  | cons x xs => exact stops_cons ',' _ (.inl rfl)
  | nil =>
      cases closing with
      | nil => exact stops_cons ']' _ (.inr (.inl rfl))
      | cons c cs => exact stops_cons c _ (.inr (.inr (.inr (clear c List.mem_cons_self))))

include blank

theorem read_items (x : JsonValue) (xs : List JsonValue) (printed : ∀ v ∈ x :: xs, Printed v)
    (reads : ∀ v ∈ x :: xs, Reads v) (n : Nat) (rest : List Char)
    (bound : 2 * (x.compactChars ++ afterItems gap xs).length + 1 ≤ n) :
    readItems n (x.compactChars ++ (afterItems gap xs ++ (closing ++ ']' :: rest))) = some (x :: xs, rest) := by
  induction xs generalizing x n with
  | nil =>
      obtain ⟨n, rfl⟩ : ∃ k, n = k + 1 := ⟨n - 1, by omega⟩
      have value := reads x List.mem_cons_self n _ (by simp [afterItems] at bound; omega)
        (stops_after_items gap closing clear [] rest)
      rw [readItems, value]
      simp only [afterItems, List.nil_append, skip_gap closing _ clear, skip_mark ']' rest (by decide)]
  | cons y ys ih =>
      obtain ⟨n, rfl⟩ : ∃ k, n = k + 1 := ⟨n - 1, by omega⟩
      simp only [afterItems, List.length_append, List.length_cons] at bound
      have value := reads x List.mem_cons_self n _ (by omega)
        (stops_after_items gap closing clear (y :: ys) rest)
      have others := ih y (fun v mem => printed v (List.mem_cons_of_mem x mem))
        (fun v mem => reads v (List.mem_cons_of_mem x mem)) n (by simp only [List.length_append]; omega)
      rw [readItems, value]
      simp only [afterItems, List.cons_append, skip_mark ',' _ (by decide : isBlank ',' = false), List.append_assoc,
        skip_gap gap _ blank, skip_printed y (printed y (List.mem_cons_of_mem x List.mem_cons_self)), others,
        Option.map_some]

end Items

theorem read_members (m : List Char × JsonValue) (ms : List (List Char × JsonValue))
    (keys : ∀ k ∈ m :: ms, ∃ key, k.1 = escape key) (printed : ∀ k ∈ m :: ms, Printed k.2)
    (reads : ∀ k ∈ m :: ms, Reads k.2) (n : Nat) (rest : List Char)
    (bound : 2 * (memberChars m ++ afterMembers ms).length + 1 ≤ n) :
    readMembers n (memberChars m ++ (afterMembers ms ++ '\x7d' :: rest)) = some (m :: ms, rest) := by
  induction ms generalizing m n with
  | nil =>
      obtain ⟨n, rfl⟩ : ∃ k, n = k + 1 := ⟨n - 1, by omega⟩
      have literal (rest : List Char) : readLiteral (m.1 ++ '"' :: rest) = some (m.1, rest) := by
        obtain ⟨key, written⟩ := keys m List.mem_cons_self
        rw [written, read_literal_escape]
      simp only [memberChars, afterMembers, quoted, List.length_append, List.length_cons] at bound
      have value := reads m List.mem_cons_self n ('\x7d' :: rest) (by omega)
        (stops_cons '\x7d' _ (.inr (.inr (.inl rfl))))
      simp only [memberChars, quoted, afterMembers, List.cons_append, List.append_assoc, List.nil_append, readMembers,
        if_true, literal, skip_mark ':' _ (by decide : isBlank ':' = false),
        skip_printed m.2 (printed m List.mem_cons_self), value, skip_mark '\x7d' _ (by decide : isBlank '\x7d' = false)]
  | cons k ks ih =>
      obtain ⟨n, rfl⟩ : ∃ k, n = k + 1 := ⟨n - 1, by omega⟩
      have literal (rest : List Char) : readLiteral (m.1 ++ '"' :: rest) = some (m.1, rest) := by
        obtain ⟨key, written⟩ := keys m List.mem_cons_self
        rw [written, read_literal_escape]
      simp only [memberChars, afterMembers, quoted, List.length_append, List.length_cons] at bound
      have value := reads m List.mem_cons_self n (',' :: (memberChars k ++ (afterMembers ks ++ '\x7d' :: rest)))
        (by omega) (stops_cons ',' _ (.inl rfl))
      have others := ih k (fun j mem => keys j (List.mem_cons_of_mem m mem))
        (fun j mem => printed j (List.mem_cons_of_mem m mem)) (fun j mem => reads j (List.mem_cons_of_mem m mem)) n
        (by simp only [memberChars, quoted, List.length_append, List.length_cons]; omega)
      have solid : skipBlanks (memberChars k ++ (afterMembers ks ++ '\x7d' :: rest)) =
          memberChars k ++ (afterMembers ks ++ '\x7d' :: rest) := skip_mark '"' _ (by decide)
      rw [memberChars]
      simp only [quoted, afterMembers, List.cons_append, List.append_assoc, List.nil_append, readMembers,
        if_true, literal, skip_mark ':' _ (by decide : isBlank ':' = false),
        skip_printed m.2 (printed m List.mem_cons_self), value, skip_mark ',' _ (by decide : isBlank ',' = false),
        solid, others, Option.map_some]

theorem read_number_value (z : Int) : Reads (.number (toString z).toList) := by
  intro n rest bound stops
  have read := read_number z rest stops
  obtain ⟨c, cs, chars, first⟩ := number_first z
  simp only [compactChars, pieces, List.flatten_cons, List.flatten_nil, List.append_nil, chars, List.cons_append,
    List.length_cons] at bound read ⊢
  obtain ⟨n, rfl⟩ : ∃ k, n = k + 1 := ⟨n - 1, by omega⟩
  have other : c ≠ '\x7b' ∧ c ≠ '[' ∧ c ≠ '"' ∧ c ≠ 'n' ∧ c ≠ 't' ∧ c ≠ 'f' := by
    rcases first with rfl | digit
    · decide
    · refine ⟨?_, ?_, ?_, ?_, ?_, ?_⟩ <;> rintro rfl <;> revert digit <;> decide
  obtain ⟨brace, bracket, quote, nil, yes, no⟩ := other
  simp only [readValue, brace, bracket, quote, nil, yes, no, if_false, read, Option.map_some]

theorem read_string_value (s : List Char) : Reads (.string (escape s)) := by
  intro n rest bound _
  rw [compact_string] at bound ⊢
  simp only [quoted, List.length_cons] at bound
  obtain ⟨n, rfl⟩ : ∃ k, n = k + 1 := ⟨n - 1, by omega⟩
  simp [quoted, readValue, read_literal_escape]

theorem read_array_value (items : List JsonValue) (printed : ∀ v ∈ items, Printed v) (reads : ∀ v ∈ items, Reads v) :
    Reads (.array items) := by
  intro n rest bound _
  cases items with
  | nil =>
      simp only [compactChars, pieces, itemPieces] at bound
      obtain ⟨n, rfl⟩ : ∃ k, n = k + 1 := ⟨n - 1, by simp at bound; omega⟩
      simp [compactChars, pieces, itemPieces, readValue, skip_mark ']' rest (by decide)]
  | cons x xs =>
      rw [compact_array] at bound ⊢
      simp only [List.length_cons, List.length_append, List.length_nil] at bound
      obtain ⟨n, rfl⟩ : ∃ k, n = k + 1 := ⟨n - 1, by omega⟩
      have inside := read_items [] [] (by simp) (by simp) x xs printed reads n rest
        (by simp only [List.length_append]; omega)
      obtain ⟨c, cs, chars, solid, other⟩ := printed_first x (printed x List.mem_cons_self)
      simp only [List.cons_append, List.append_assoc, List.nil_append, chars] at inside ⊢
      simp [readValue, skip_mark c _ solid, other, inside]

theorem read_object_value (members : List (List Char × JsonValue)) (keys : ∀ m ∈ members, ∃ key, m.1 = escape key)
    (printed : ∀ m ∈ members, Printed m.2) (reads : ∀ m ∈ members, Reads m.2) : Reads (.object members) := by
  intro n rest bound _
  cases members with
  | nil =>
      simp only [compactChars, pieces, memberPieces] at bound
      obtain ⟨n, rfl⟩ : ∃ k, n = k + 1 := ⟨n - 1, by simp at bound; omega⟩
      simp [compactChars, pieces, memberPieces, readValue, skip_mark '\x7d' rest (by decide)]
  | cons m ms =>
      rw [compact_object] at bound ⊢
      simp only [List.length_cons, List.length_append, List.length_nil] at bound
      obtain ⟨n, rfl⟩ : ∃ k, n = k + 1 := ⟨n - 1, by omega⟩
      have inside := read_members m ms keys printed reads n rest (by simp only [List.length_append]; omega)
      simp only [memberChars, quoted, List.cons_append, List.append_assoc, List.nil_append] at inside ⊢
      simp [readValue, skip_mark '"' _ (by decide : isBlank '"' = false), inside]

theorem printed_reads (v : JsonValue) (printed : Printed v) : Reads v := by
  induction printed with
  | null =>
      intro n rest bound _
      obtain ⟨n, rfl⟩ : ∃ k, n = k + 1 := ⟨n - 1, by simp [compactChars, pieces] at bound; omega⟩
      simp [compactChars, pieces, readValue, dropWord]
  | bool value =>
      intro n rest bound _
      cases value <;>
        obtain ⟨n, rfl⟩ : ∃ k, n = k + 1 := ⟨n - 1, by simp [compactChars, pieces] at bound; omega⟩ <;>
        simp [compactChars, pieces, readValue, dropWord]
  | number z => exact read_number_value z
  | string s => exact read_string_value s
  | array items printed reads => exact read_array_value items printed reads
  | object members keys printed reads => exact read_object_value members keys printed reads

theorem of_string_compact (v : JsonValue) (printed : Printed v) : ofString? v.compact = some v := by
  have read := printed_reads v printed (2 * v.compactChars.length + 1) [] (by omega) (fun _ _ none => nomatch none)
  rw [List.append_nil] at read
  have solid := skip_printed v printed []
  rw [List.append_nil] at solid
  rw [ofString?, compact, String.toList_ofList, ofChars?, solid, read]
  rfl

def lineItems : List JsonValue → List Char
  | [] => []
  | x :: xs => '\n' :: (x.compactChars ++ afterItems ['\n'] xs)

theorem of_chars_lines (items : List JsonValue) (printed : ∀ v ∈ items, Printed v) :
    ofChars? ('[' :: (lineItems items ++ ['\n', ']', '\n'])) = some (.array items) := by
  have feed (cs : List Char) : skipBlanks ('\n' :: cs) = skipBlanks cs := List.dropWhile_cons_of_pos (by decide)
  cases items with
  | nil => rfl
  | cons x xs =>
      have clear (c : Char) (mem : c ∈ ['\n']) : isBlank c = true := List.mem_singleton.mp mem ▸ rfl
      have inside (n : Nat) := read_items ['\n'] ['\n'] clear clear x xs printed
        (fun v mem => printed_reads v (printed v mem)) n ['\n']
      have solid := skip_printed x (printed x List.mem_cons_self)
      obtain ⟨c, cs, chars, _, other⟩ := printed_first x (printed x List.mem_cons_self)
      rw [ofChars?, skip_mark '[' _ (by decide)]
      generalize fuel : 2 * ('[' :: (lineItems (x :: xs) ++ ['\n', ']', '\n'])).length = n
      simp only [lineItems, List.cons_append, List.append_assoc, List.nil_append, List.length_cons, List.length_append,
        List.length_nil] at inside fuel ⊢
      have read := inside n (by omega)
      rw [readValue, if_neg (by decide), if_pos rfl, feed, solid]
      simp only [chars, List.cons_append] at read ⊢
      simp [other, read, skipBlanks, isBlank]

end MatchTrace.JsonValue
