import MatchTrace.Proofs.Match.Shorthand

/-!
A character whatever its case. The rule for it knows the lower and the upper case of the character only, so it is wider
than the rule for the character itself if the character is one of the two. Title-case characters are neither.
-/

namespace MatchTrace

set_option autoImplicit false

namespace CaseMap

def codes (runs : List Run) : List Nat :=
  runs.flatMap fun (first, last, step, _) => List.range' first ((last - first) / step + 1) step

theorem image_in_run (run : Run) (n m : Nat) (image : run.image? n = some m) : n ∈ codes [run] := by
  obtain ⟨first, last, step, start⟩ := run
  rw [Run.image?, Option.ite_none_right_eq_some] at image
  obtain ⟨⟨above, below, whole⟩, -⟩ := image
  have steps : n - first = step * ((n - first) / step) := (Nat.mul_div_cancel' (Nat.dvd_of_mod_eq_zero whole)).symm
  rw [codes, List.flatMap_singleton, List.mem_range']
  refine ⟨(n - first) / step, ?_, by omega⟩
  exact Nat.lt_succ_of_le (Nat.div_le_div_right (Nat.sub_le_sub_right below first))

theorem moved_in_codes (runs : List Run) (c : Char) (moved : image runs c ≠ c) : c.toNat ∈ codes runs := by
  rw [image] at moved
  cases found : runs.findSome? (·.image? c.toNat) with
  | none => exact absurd rfl (found ▸ moved)
  | some n =>
      obtain ⟨run, mem, image⟩ := List.exists_of_findSome?_eq_some found
      have within := image_in_run run _ n image
      rw [codes, List.flatMap_singleton] at within
      exact List.mem_flatMap.mpr ⟨run, mem, within⟩

-- Digraphs of which only the first letter is a capital, and Greek capitals with an iota beside them.
def titleCodes : List Nat :=
  [0x1C5, 0x1C8, 0x1CB, 0x1F2] ++ List.range' 0x1F88 8 ++ List.range' 0x1F98 8 ++ List.range' 0x1FA8 8 ++
    [0x1FBC, 0x1FCC, 0x1FFC]

-- A set of numbers as the bits of one number, in which intersection is one step of evaluation.
def bits (numbers : List Nat) : Nat := numbers.foldr (fun n rest => 1 <<< n ||| rest) 0

theorem bits_iff (numbers : List Nat) (n : Nat) : (bits numbers).testBit n = true ↔ n ∈ numbers := by
  induction numbers with
  | nil => simp [bits]
  | cons m numbers ih =>
      rw [bits] at ih
      rw [bits, List.foldr_cons, Nat.testBit_or, Bool.or_eq_true, ih, List.mem_cons, Nat.one_shiftLeft,
        Nat.testBit_two_pow, decide_eq_true_iff, eq_comm]

theorem moved_both_ways (n : Nat) (lower : n ∈ codes lowerRuns) (upper : n ∈ codes upperRuns) : n ∈ titleCodes := by
  have common : bits (codes lowerRuns) &&& bits (codes upperRuns) = bits titleCodes := by decide +kernel
  rw [← bits_iff, ← common, Nat.testBit_and, Bool.and_eq_true, bits_iff, bits_iff]
  exact ⟨lower, upper⟩

end CaseMap

def TitleCase (c : Char) : Prop := c.toNat ∈ CaseMap.titleCodes

theorem title_case_iff (c : Char) : TitleCase c ↔ ¬ (c = lowerCase c ∨ c = upperCase c) := by
  rw [not_or]
  constructor
  · intro title
    have all : ∀ n ∈ CaseMap.titleCodes, Char.ofNat n ≠ lowerCase (Char.ofNat n) ∧
        Char.ofNat n ≠ upperCase (Char.ofNat n) := by decide +kernel
    have moved := all c.toNat title
    rwa [Char.ofNat_toNat] at moved
  · intro moved
    have lower := CaseMap.moved_in_codes _ c (Ne.symm moved.1)
    have upper := CaseMap.moved_in_codes _ c (Ne.symm moved.2)
    exact CaseMap.moved_both_ways _ lower upper

namespace Grammar

section One

variable (g : Grammar) (t : Input) (i e : Nat) (r : Rule) (p : Char → Prop)

theorem one_either_case (id : Nat) (c : Char) :
    g.One t (.terminal id (.ofEitherCase c)) fun d => d = lowerCase c ∨ d = upperCase c :=
  one_terminal g t id _ _ fun i j => by
    simp [Terminal.ofEitherCase, Terminal.Moves, occurs_single, or_and_right, exists_or]

theorem one_ends_some (one : g.One t r p) :
    g.Ends t i r (some e) ↔ (∃ c, t.charAt i = some c ∧ p c) ∧ e = i + 1 := by
  by_cases kind : ∃ c, t.charAt i = some c ∧ p c
  · obtain ⟨c, here, holds⟩ := kind
    have ends := peg_ends g t i r _ (one.hit i c here holds)
    constructor
    · intro other
      exact ⟨⟨c, here, holds⟩, Option.some.inj (ends_unique g t i r _ _ other ends)⟩
    · rintro ⟨-, rfl⟩
      exact ends
  · have ends := peg_ends g t i r _ (one.miss i fun c here holds => kind ⟨c, here, holds⟩)
    constructor
    · intro other
      cases ends_unique g t i r _ _ other ends
    · intro both
      exact absurd both.1 kind

end One

end Grammar

/-- The rule that ignores case matches wherever the rule for the character itself does, and ends where that one ends,
if the character is its own lower or its own upper case. For any other character it never matches there. These others
are the title-case characters. -/
theorem ignoring_case_widens_but_for_title_case (c : Char) :
    ((c = lowerCase c ∨ c = upperCase c) → ∀ (g : Grammar) (t : Input) (one other i e : Nat),
      g.Ends t i (.terminal one (.ch c)) (some e) → g.Ends t i (.terminal other (.ofEitherCase c)) (some e)) ∧
    (¬ (c = lowerCase c ∨ c = upperCase c) → ∀ (g : Grammar) (t : Input) (one other i e : Nat),
      g.Ends t i (.terminal one (.ch c)) (some e) → g.Ends t i (.terminal other (.ofEitherCase c)) none) ∧
    (TitleCase c ↔ ¬ (c = lowerCase c ∨ c = upperCase c)) := by
  refine ⟨fun own g t one other i e ends => ?_, fun foreign g t one other i e ends => ?_, title_case_iff c⟩
  · rw [g.one_ends_some t i e _ _ (g.one_ch t one c)] at ends
    obtain ⟨⟨d, here, rfl⟩, rfl⟩ := ends
    exact (g.one_ends_some t i _ _ _ (g.one_either_case t other d)).mpr ⟨⟨d, here, own⟩, rfl⟩
  · rw [g.one_ends_some t i e _ _ (g.one_ch t one c)] at ends
    obtain ⟨⟨d, here, rfl⟩, rfl⟩ := ends
    apply peg_ends
    apply (g.one_either_case t other d).miss
    intro d' here'
    rw [here] at here'
    exact Option.some.inj here' ▸ foreign

-- The upper case of 'ŉ' is two letters, of which the rule knows the first, and 'ŉ' is its own lower case. The lower case
-- of 'ᾈ' is 'ᾀ', and its upper case starts with 'Ἀ'.
theorem apostrophe_kept_and_iota_lost :
    let g : Grammar := ⟨.terminal 0 (.ch 'ŉ'), [], [], []⟩
    ('ŉ' = lowerCase 'ŉ' ∨ 'ŉ' = upperCase 'ŉ') ∧
      g.Ends (.ofString "aŉ") 1 (.terminal 1 (.ofEitherCase 'ŉ')) (some 2) ∧
      ¬ ('ᾈ' = lowerCase 'ᾈ' ∨ 'ᾈ' = upperCase 'ᾈ') ∧
      g.Ends (.ofString "ᾈ") 0 (.terminal 1 (.ofEitherCase 'ᾈ')) none := by
  intro g
  have own : 'ŉ' = lowerCase 'ŉ' ∨ 'ŉ' = upperCase 'ŉ' := by decide +kernel
  have foreign : ¬ ('ᾈ' = lowerCase 'ᾈ' ∨ 'ᾈ' = upperCase 'ᾈ') := by decide +kernel
  have here := (g.one_ends_some (.ofString "aŉ") 1 2 _ _ (g.one_ch _ 0 'ŉ')).mpr ⟨⟨'ŉ', rfl, rfl⟩, rfl⟩
  have there := (g.one_ends_some (.ofString "ᾈ") 0 1 _ _ (g.one_ch _ 0 'ᾈ')).mpr ⟨⟨'ᾈ', rfl, rfl⟩, rfl⟩
  exact ⟨own, (ignoring_case_widens_but_for_title_case 'ŉ').1 own g _ 0 1 1 2 here, foreign,
    (ignoring_case_widens_but_for_title_case 'ᾈ').2.1 foreign g _ 0 1 0 1 there⟩

-- The lower case of this character is 'ǆ' and its upper case 'Ǆ'.
theorem title_case_digraph_missed :
    let g : Grammar := ⟨.terminal 0 (.ofEitherCase 'ǅ'), [], [], []⟩
    g.Ends (.ofString "ǅ") 0 (.terminal 1 (.ch 'ǅ')) (some 1) ∧
      ¬ g.Ends (.ofString "ǅ") 0 (.terminal 0 (.ofEitherCase 'ǅ')) (some 1) := by
  intro g
  have other : ¬ ('ǅ' = lowerCase 'ǅ' ∨ 'ǅ' = upperCase 'ǅ') := by decide +kernel
  rw [g.one_ends_some _ 0 1 _ _ (g.one_ch _ 1 'ǅ'), g.one_ends_some _ 0 1 _ _ (g.one_either_case _ 0 'ǅ')]
  refine ⟨⟨⟨'ǅ', rfl, rfl⟩, rfl⟩, fun matched => ?_⟩
  obtain ⟨⟨c, here, cased⟩, -⟩ := matched
  cases here
  exact other cased

end MatchTrace
