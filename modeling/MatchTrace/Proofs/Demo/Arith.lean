import MatchTrace.Demo
import MatchTrace.Proofs.Match.Acceptance

/-!
The grammar of integer arithmetic matches the expressions that can be derived, at any depth, and no other texts. The
rules of a sum stand behind a proxy, which is reached again only behind a parenthesis, so a run comes to an end by the
text that is left.
-/

namespace MatchTrace

set_option autoImplicit false

open scoped Computability

namespace Arith

def Digit (c : Char) : Prop := '0' ≤ c ∧ c ≤ '9'

instance (c : Char) : Decidable (Digit c) := inferInstanceAs (Decidable (_ ∧ _))

def blanks : Language Char := Letters (· ∈ [' ', '\t'])

inductive Part where
  | expr
  | terms
  | term
  | factors
  | factor

-- An expression is a term and any number of terms behind it, each with an operator in front; a term is made of
-- factors in the same way.
inductive Derives : Part → List Char → Prop where
  | expr (v w : List Char) : Derives .term v → Derives .terms w → Derives .expr (v ++ w)
  | no_terms : Derives .terms []
  | terms (c : Char) (gap v w : List Char) :
      c ∈ ['+', '-'] → gap ∈ blanks → Derives .term v → Derives .terms w → Derives .terms (c :: gap ++ v ++ w)
  | term (v w : List Char) : Derives .factor v → Derives .factors w → Derives .term (v ++ w)
  | no_factors : Derives .factors []
  | factors (c : Char) (gap v w : List Char) :
      c ∈ ['*', '/'] → gap ∈ blanks → Derives .factor v → Derives .factors w → Derives .factors (c :: gap ++ v ++ w)
  | number (digits gap : List Char) : digits ≠ [] → digits ∈ Letters Digit → gap ∈ blanks → Derives .factor (digits ++ gap)
  | parens (gap v last : List Char) :
      gap ∈ blanks → Derives .expr v → last ∈ blanks → Derives .factor ('(' :: gap ++ (v ++ ')' :: last))

def words (p : Part) : Language Char := {w | Derives p w}

def text : Language Char := blanks * (words .expr * (1 + {['\n']}))

theorem number_pieces : (Letter Digit * (Letter Digit)∗) * blanks ≤ words .factor := by
  intro w mem
  obtain ⟨_, front, gap, blank, rfl⟩ := Language.mem_mul.mp mem
  obtain ⟨_, ⟨c, digit, rfl⟩, others, more, rfl⟩ := Language.mem_mul.mp front
  apply Derives.number _ gap (by simp) _ blank
  intro d mem
  rcases List.mem_cons.mp mem with rfl | mem
  · exact digit
  · exact letters_many Digit more d mem

theorem parens_pieces : ({['(']} * blanks) * (words .expr * ({[')']} * blanks)) ≤ words .factor := by
  intro w mem
  obtain ⟨_, front, _, behind, rfl⟩ := Language.mem_mul.mp mem
  obtain ⟨_, rfl, gap, blank, rfl⟩ := Language.mem_mul.mp front
  obtain ⟨v, derived, _, back, rfl⟩ := Language.mem_mul.mp behind
  obtain ⟨_, rfl, last, blank', rfl⟩ := Language.mem_mul.mp back
  exact .parens gap v last blank derived blank'

theorem operations_pieces (signs : List Char) (L M : Language Char) (none : [] ∈ M)
    (more : ∀ c ∈ signs, ∀ gap ∈ blanks, ∀ v ∈ L, ∀ w ∈ M, c :: gap ++ v ++ w ∈ M) :
    (Letter (· ∈ signs) * blanks * L)∗ ≤ M := by
  apply many_le _ _ none
  intro _ mem w others
  obtain ⟨_, front, v, one, rfl⟩ := Language.mem_mul.mp mem
  obtain ⟨_, ⟨c, sign, rfl⟩, gap, blank, rfl⟩ := Language.mem_mul.mp front
  exact more c sign gap blank v one w others

def behind : Part → List Char
  | .expr | .terms => [')', '\n']
  | .term | .factors => ['+', '-', ')', '\n']
  | .factor => ['*', '/', '+', '-', ')', '\n']

theorem factors_start (w s : List Char) (derived : Derives .factors w) (ended : Starts (· ∈ behind .factors) s) :
    Starts (· ∈ behind .factor) (w ++ s) := by
  cases derived with
  | no_factors => exact starts_le _ _ (fun c mem => .tail _ (.tail _ mem)) s ended
  | factors c gap v w sign _ _ _ => exact starts_cons _ c _ (each_among _ _ (by decide) c sign)

theorem terms_start (w s : List Char) (derived : Derives .terms w) (ended : Starts (· ∈ behind .terms) s) :
    Starts (· ∈ behind .term) (w ++ s) := by
  cases derived with
  | no_terms => exact starts_le _ _ (fun c mem => .tail _ (.tail _ mem)) s ended
  | terms c gap v w sign _ _ _ => exact starts_cons _ c _ (each_among _ _ (by decide) c sign)

theorem operand_start (p : Part) (w : List Char) (derived : Derives p w) :
    match p with
    | .terms | .factors => True
    | _ => ∃ c u, w = c :: u ∧ c ∉ [' ', '\t'] := by
  induction derived with
  | expr v w _ _ ih _ =>
      obtain ⟨c, u, rfl, solid⟩ := ih
      exact ⟨c, u ++ w, rfl, solid⟩
  | term v w _ _ ih _ =>
      obtain ⟨c, u, rfl, solid⟩ := ih
      exact ⟨c, u ++ w, rfl, solid⟩
  | number digits gap some all _ =>
      obtain ⟨c, digits, rfl⟩ := List.exists_cons_of_ne_nil some
      have digit := all c List.mem_cons_self
      refine ⟨c, digits ++ gap, rfl, fun blank => ?_⟩
      rcases List.mem_pair.mp blank with rfl | rfl
      · exact absurd digit (by decide)
      · exact absurd digit (by decide)
  | parens gap v last _ _ _ _ => exact ⟨'(', _, rfl, by decide⟩
  | _ => trivial

end Arith

open Arith

variable (t : Input)

def Demo.operations (many pair choice first second : Nat) (a b : Char) (operand : Rule) : Rule :=
  .zeroOrMore many (.sequence pair [.firstOf choice [Demo.token first a, Demo.token second b], operand])

section Reads

variable (i : Nat)

theorem spacing_reads : Demo.arith.Reads t Demo.spacing blanks i := by
  apply Demo.arith.reads_labelled
  exact Demo.arith.reads_letters t _ 1 i _ (Demo.arith.one_any_of t 2 [' ', '\t'])

theorem token_reads (id : Nat) (c : Char) : Demo.arith.Reads t (Demo.token id c) ({[c]} * blanks) i := by
  apply Demo.arith.reads_labelled
  apply Demo.arith.reads_sequence_cons
  · exact Demo.arith.reads_ch t (id + 2) i c
  exact fun _ _ => Demo.arith.reads_sequence_single t _ _ (id + 1) _ (spacing_reads t _)

theorem sign_reads (choice first second : Nat) (a b : Char) :
    Demo.arith.Reads t (.firstOf choice [Demo.token first a, Demo.token second b]) (Letter (· ∈ [a, b]) * blanks) i := by
  have either : {[a]} * blanks + {[b]} * blanks ≤ Letter (· ∈ [a, b]) * blanks := by
    rw [← add_mul]
    gcongr
    rintro _ (rfl | rfl)
    · exact ⟨a, by simp, rfl⟩
    · exact ⟨b, by simp, rfl⟩
  apply Demo.arith.reads_le t _ _ _ i either
  apply Demo.arith.reads_first_cons
  · exact token_reads t i first a
  exact Demo.arith.reads_first_single t _ _ choice i (token_reads t i second b)

theorem operands_reads (all many pair choice first second : Nat) (a b : Char) (operand : Rule) (L M : Language Char)
    (none : [] ∈ M) (more : ∀ c ∈ [a, b], ∀ gap ∈ blanks, ∀ v ∈ L, ∀ w ∈ M, c :: gap ++ v ++ w ∈ M)
    (reads : ∀ j, i ≤ j → Demo.arith.Reads t operand L j) :
    Demo.arith.Reads t (.sequence all [operand, Demo.operations many pair choice first second a b operand]) (L * M) i := by
  apply Demo.arith.reads_sequence_cons
  · exact reads i (Nat.le_refl i)
  intro u _
  apply Demo.arith.reads_sequence_single
  apply Demo.arith.reads_le t _ _ _ _ (operations_pieces [a, b] L M none more)
  apply Demo.arith.reads_many
  intro j ahead
  apply Demo.arith.reads_sequence_cons
  · exact sign_reads t j choice first second a b
  exact fun w _ => Demo.arith.reads_sequence_single t _ _ pair _ (reads _ (by omega))

theorem number_reads : Demo.arith.Reads t Demo.number (words .factor) i := by
  apply Demo.arith.reads_labelled
  apply Demo.arith.reads_le t _ _ _ i number_pieces
  apply Demo.arith.reads_sequence_cons
  · exact Demo.arith.reads_some t _ _ 6 i fun j _ => Demo.arith.reads_one t _ j _ (Demo.arith.one_range t 7 '0' '9')
  exact fun _ _ => Demo.arith.reads_sequence_single t _ _ 5 _ (spacing_reads t _)

-- Behind the parenthesis that opens, the index has moved on.
theorem parens_reads (inner : ∀ j, i < j → Demo.arith.Reads t Demo.expr (words .expr) j) :
    Demo.arith.Reads t Demo.parens (words .factor) i := by
  apply Demo.arith.reads_labelled
  apply Demo.arith.reads_le t _ _ _ i parens_pieces
  apply Demo.arith.reads_sequence_cons
  · exact token_reads t i 30 '('
  intro w mem
  obtain ⟨_, rfl, gap, -, rfl⟩ := Language.mem_mul.mp mem
  apply Demo.arith.reads_sequence_cons
  · exact inner _ (by simp)
  exact fun _ _ => Demo.arith.reads_sequence_single t _ _ 9 _ (token_reads t _ 40 ')')

theorem factor_reads (inner : ∀ j, i < j → Demo.arith.Reads t Demo.expr (words .expr) j) :
    Demo.arith.Reads t Demo.factor (words .factor) i := by
  apply Demo.arith.reads_labelled
  rw [← add_idem (words .factor)]
  apply Demo.arith.reads_first_cons
  · exact number_reads t i
  exact Demo.arith.reads_first_single t _ _ 11 i (parens_reads t i inner)

theorem term_reads (inner : ∀ j, i < j → Demo.arith.Reads t Demo.expr (words .expr) j) :
    Demo.arith.Reads t Demo.term (words .term) i := by
  have pieces : words .factor * words .factors ≤ words .term := by
    intro w mem
    obtain ⟨v, one, u, others, rfl⟩ := Language.mem_mul.mp mem
    exact .term v u one others
  apply Demo.arith.reads_labelled
  apply Demo.arith.reads_le t _ _ _ i pieces
  apply operands_reads t i 13 14 15 16 50 60 '*' '/' Demo.factor _ _ .no_factors
  · exact fun c sign gap blank v one w others => .factors c gap v w sign blank one others
  · exact fun j ahead => factor_reads t j fun k further => inner k (Nat.lt_of_le_of_lt ahead further)

theorem sum_reads (inner : ∀ j, i < j → Demo.arith.Reads t Demo.expr (words .expr) j) :
    Demo.arith.Reads t Demo.sum (words .expr) i := by
  have pieces : words .term * words .terms ≤ words .expr := by
    intro w mem
    obtain ⟨v, one, u, others, rfl⟩ := Language.mem_mul.mp mem
    exact .expr v u one others
  apply Demo.arith.reads_labelled
  apply Demo.arith.reads_le t _ _ _ i pieces
  apply operands_reads t i 18 19 20 21 70 80 '+' '-' Demo.term _ _ .no_terms
  · exact fun c sign gap blank v one w others => .terms c gap v w sign blank one others
  · exact fun j ahead => term_reads t j fun k further => inner k (Nat.lt_of_le_of_lt ahead further)

theorem expr_bound : Demo.arith.target? 3 = some Demo.sum := rfl

-- By the text that is left: what stands behind its end is never read.
theorem expr_reads : Demo.arith.Reads t Demo.expr (words .expr) i := by
  have enough (n : Nat) : ∀ i, t.length < i + n → Demo.arith.Reads t Demo.expr (words .expr) i := by
    induction n with
    | zero =>
        intro i past s rest
        have length := rest_length t i s rest
        omega
    | succ n ih =>
        intro i _
        apply Demo.arith.reads_proxy t Demo.sum _ 3 i "Expr" expr_bound
        exact sum_reads t i fun j further => ih j (by omega)
  exact enough (t.length + 1) i (by omega)

end Reads

section Takes

variable (s : List Char)

theorem spacing_takes (gap : List Char) (blank : gap ∈ blanks) (solid : Starts (· ∉ [' ', '\t']) s) :
    Demo.arith.Takes t Demo.spacing gap s := by
  apply Demo.arith.takes_labelled
  exact Demo.arith.takes_letters t _ gap s 1 _ (Demo.arith.one_any_of t 2 [' ', '\t']) blank solid

theorem token_takes (id : Nat) (c : Char) (gap : List Char) (blank : gap ∈ blanks) (solid : Starts (· ∉ [' ', '\t']) s) :
    Demo.arith.Takes t (Demo.token id c) (c :: gap) s := by
  apply Demo.arith.takes_labelled
  apply Demo.arith.takes_sequence_cons t _ _ [c]
  · exact Demo.arith.takes_ch t _ (id + 2) c
  exact Demo.arith.takes_sequence_single t _ _ _ (id + 1) (spacing_takes t s gap blank solid)

theorem token_refuses (id : Nat) (c : Char) (other : Starts (· ≠ c) s) : Demo.arith.Refuses t (Demo.token id c) s := by
  apply Demo.arith.refuses_labelled
  exact Demo.arith.refuses_sequence t _ _ s (id + 1) (Demo.arith.refuses_ch t s (id + 2) c other)

theorem sign_takes (choice first second : Nat) (a b c : Char) (sign : c ∈ [a, b]) (gap : List Char) (blank : gap ∈ blanks)
    (solid : Starts (· ∉ [' ', '\t']) s) :
    Demo.arith.Takes t (.firstOf choice [Demo.token first a, Demo.token second b]) (c :: gap) s := by
  by_cases same : c = a
  · subst same
    exact Demo.arith.takes_first t _ _ _ s choice (token_takes t s first c gap blank solid)
  · obtain rfl : c = b := by simpa [same] using sign
    apply Demo.arith.takes_other
    · exact token_refuses t _ first a (starts_cons _ c _ same)
    exact Demo.arith.takes_first t _ _ _ s choice (token_takes t s second c gap blank solid)

section Operations

variable (many pair choice first second : Nat) (a b : Char) (operand : Rule)

theorem operations_end (ended : Starts (· ∉ [a, b]) s) :
    Demo.arith.Takes t (Demo.operations many pair choice first second a b operand) [] s := by
  apply Demo.arith.takes_many_nil
  apply Demo.arith.refuses_sequence
  apply Demo.arith.refuses_first_cons
  · exact token_refuses t s first a (starts_le _ _ (by rintro c mem rfl; simp at mem) s ended)
  apply Demo.arith.refuses_first_cons
  · exact token_refuses t s second b (starts_le _ _ (by rintro c mem rfl; simp at mem) s ended)
  exact Demo.arith.refuses_first_nil t s choice

theorem operations_more (c : Char) (gap v w : List Char) (sign : c ∈ [a, b]) (blank : gap ∈ blanks)
    (solid : Starts (· ∉ [' ', '\t']) (v ++ (w ++ s))) (one : Demo.arith.Takes t operand v (w ++ s))
    (others : Demo.arith.Takes t (Demo.operations many pair choice first second a b operand) w s) :
    Demo.arith.Takes t (Demo.operations many pair choice first second a b operand) (c :: gap ++ v ++ w) s := by
  apply Demo.arith.takes_many_cons t _ (c :: gap ++ v) w s many _ (by simp) others
  apply Demo.arith.takes_sequence_cons t _ _ (c :: gap) v
  · exact sign_takes t _ choice first second a b c sign gap blank solid
  exact Demo.arith.takes_sequence_single t _ _ _ pair one

end Operations

theorem number_takes (digits gap : List Char) (some : digits ≠ []) (all : digits ∈ Letters Digit) (blank : gap ∈ blanks)
    (ended : Starts (· ∈ behind .factor) s) : Demo.arith.Takes t Demo.number (digits ++ gap) s := by
  obtain ⟨c, digits, rfl⟩ := List.exists_cons_of_ne_nil some
  have one := Demo.arith.one_range t 7 '0' '9'
  have stop : Starts (¬ Digit ·) (gap ++ s) := by
    apply starts_letters
    · exact fun c mem => each_among [' ', '\t'] (¬ Digit ·) (by decide) c (blank c mem)
    · exact starts_among _ _ (by decide) s ended
  apply Demo.arith.takes_labelled
  apply Demo.arith.takes_sequence_cons
  · apply Demo.arith.takes_some t _ [c] digits _ 6 _ (by simp)
    · exact Demo.arith.takes_letters t _ digits _ 6 _ one (fun d mem => all d (List.mem_cons_of_mem c mem)) stop
    · exact Demo.arith.takes_one t _ _ _ one c (all c List.mem_cons_self)
  exact Demo.arith.takes_sequence_single t _ _ _ 5 (spacing_takes t s gap blank (starts_among _ _ (by decide) s ended))

theorem number_refuses (other : Starts (¬ Digit ·) s) : Demo.arith.Refuses t Demo.number s := by
  apply Demo.arith.refuses_labelled
  apply Demo.arith.refuses_sequence
  apply Demo.arith.refuses_some
  exact Demo.arith.refuses_one t _ s _ (Demo.arith.one_range t 7 '0' '9') other

def Arith.rule : Part → Rule
  | .expr => Demo.sum
  | .terms => Demo.operations 19 20 21 70 80 '+' '-' Demo.term
  | .term => Demo.term
  | .factors => Demo.operations 14 15 16 50 60 '*' '/' Demo.factor
  | .factor => Demo.factor

theorem operand_solid (p : Part) (operand : p = .expr ∨ p = .term ∨ p = .factor) (v : List Char) (derived : Derives p v) :
    Starts (· ∉ [' ', '\t']) (v ++ s) := by
  have first := operand_start p v derived
  rcases operand with rfl | rfl | rfl
  all_goals
    obtain ⟨c, u, rfl, solid⟩ := first
    exact starts_cons _ c _ solid

-- A word that is derived is taken whole, whatever may follow it, for its rule stops nowhere inside.
theorem derived_takes (p : Part) (w : List Char) (derived : Derives p w) :
    ∀ s, Starts (· ∈ behind p) s → Demo.arith.Takes t (rule p) w s := by
  induction derived with
  | expr v w _ others one more =>
      intro s ended
      apply Demo.arith.takes_labelled
      apply Demo.arith.takes_sequence_cons
      · exact one _ (terms_start w s others ended)
      exact Demo.arith.takes_sequence_single t _ _ _ 18 (more s ended)
  | no_terms =>
      intro s ended
      exact operations_end t s 19 20 21 70 80 '+' '-' _ (starts_among _ _ (by decide) s ended)
  | terms c gap v w sign blank derived others one more =>
      intro s ended
      apply operations_more t s 19 20 21 70 80 '+' '-' _ c gap v w sign blank
      · exact operand_solid _ .term (by simp) v derived
      · exact one _ (terms_start w s others ended)
      · exact more s ended
  | term v w _ others one more =>
      intro s ended
      apply Demo.arith.takes_labelled
      apply Demo.arith.takes_sequence_cons
      · exact one _ (factors_start w s others ended)
      exact Demo.arith.takes_sequence_single t _ _ _ 13 (more s ended)
  | no_factors =>
      intro s ended
      exact operations_end t s 14 15 16 50 60 '*' '/' _ (starts_among _ _ (by decide) s ended)
  | factors c gap v w sign blank derived others one more =>
      intro s ended
      apply operations_more t s 14 15 16 50 60 '*' '/' _ c gap v w sign blank
      · exact operand_solid _ .factor (by simp) v derived
      · exact one _ (factors_start w s others ended)
      · exact more s ended
  | number digits gap some all blank =>
      intro s ended
      apply Demo.arith.takes_labelled
      apply Demo.arith.takes_first
      exact number_takes t s digits gap some all blank ended
  | parens gap v last blank derived blank' inner =>
      intro s ended
      have shape : '(' :: gap ++ (v ++ ')' :: last) = ('(' :: gap) ++ (v ++ (')' :: last)) := rfl
      rw [shape]
      apply Demo.arith.takes_labelled
      apply Demo.arith.takes_other
      · exact number_refuses t _ (starts_cons _ '(' _ (by decide))
      apply Demo.arith.takes_first
      apply Demo.arith.takes_labelled
      apply Demo.arith.takes_sequence_cons
      · apply token_takes t _ 30 '(' gap blank
        rw [List.append_assoc]
        exact operand_solid _ .expr (by simp) v derived
      apply Demo.arith.takes_sequence_cons
      · exact Demo.arith.takes_proxy t _ v _ 3 "Expr" expr_bound (inner _ (starts_cons _ ')' _ (by decide)))
      apply Demo.arith.takes_sequence_single
      exact token_takes t s 40 ')' last blank' (starts_among _ _ (by decide) s ended)

theorem expr_takes (w : List Char) (derived : w ∈ words .expr) (ended : Starts (· ∈ behind .expr) s) :
    Demo.arith.Takes t Demo.expr w s :=
  Demo.arith.takes_proxy t Demo.sum w s 3 "Expr" expr_bound (derived_takes t .expr w derived s ended)

end Takes

def Arith.parts : List Rule :=
  [Demo.spacing, Demo.expr, .optional 24 (Demo.ch 25 '\n'), .terminal 26 .endOfInput]

theorem expression_read_out :
    Demo.arith.ReadsOut t 23 Arith.parts (blanks * (words .expr * (({['\n']} + 1) * 1))) 0 := by
  apply Demo.arith.reads_out_cons
  · exact spacing_reads t 0
  intro u _
  apply Demo.arith.reads_out_cons
  · exact expr_reads t _
  intro v _
  apply Demo.arith.reads_out_cons
  · exact Demo.arith.reads_optional t _ _ 24 _ (Demo.arith.reads_ch t 25 _ '\n')
  exact fun _ _ => Demo.arith.reads_out_end t 23 _ 26

theorem feed_takes (last : List Char) (ended : last ∈ (1 + {['\n']} : Language Char)) :
    Starts (· ∈ ['\n']) last ∧ Demo.arith.Takes t (.optional 24 (Demo.ch 25 '\n')) last [] := by
  rcases ended with rfl | rfl
  · exact ⟨starts_nil _, Demo.arith.takes_optional_nil t _ [] 24 (Demo.arith.refuses_ch t [] 25 '\n' (starts_nil _))⟩
  · exact ⟨starts_cons _ '\n' [] (by simp), Demo.arith.takes_optional t _ _ [] 24 (Demo.arith.takes_ch t [] 25 '\n')⟩

theorem expression_taken_out (w : List Char) (mem : w ∈ Arith.text) : Demo.arith.TakesOut t 23 Arith.parts w := by
  obtain ⟨gap, blank, _, more, rfl⟩ := Language.mem_mul.mp mem
  obtain ⟨v, derived, last, ended, rfl⟩ := Language.mem_mul.mp more
  obtain ⟨ahead, feed⟩ := feed_takes t last ended
  apply Demo.arith.takes_out_cons
  · exact spacing_takes t _ gap blank (operand_solid _ .expr (by simp) v derived)
  apply Demo.arith.takes_out_cons
  · exact expr_takes t _ v derived (starts_among _ _ (by decide) last ahead)
  rw [← List.append_nil last]
  apply Demo.arith.takes_out_cons
  · exact feed
  exact Demo.arith.takes_out_end t 23 26

theorem arith_recognizes : Demo.arith.Recognizes Arith.text where
  reads t := by
    obtain ⟨e, meaning, words⟩ := expression_read_out t _ (rest_start t)
    refine ⟨e, .labelled 22 "Arith" _ 0 e meaning, fun j matched => ?_⟩
    rw [mul_one, add_comm] at words
    exact words j matched
  takes t mem := .labelled 22 "Arith" _ 0 _ (expression_taken_out t _ mem 0 (rest_start t))

/-- With the grammar of arithmetic, a parse of any text ends, and without an error, for the proxy in front of the sum
is bound. It matches if and only if the text is an expression that can be derived, behind any blanks and with at most
one line feed at the end, and a match ends one past the text. -/
theorem arith_matches_expressions {ε σ : Type} (input : Input) (l : Listener ε σ) (obliging : ∀ s h, (l s h).2 = none)
    (s : σ) :
    Demo.arith.target? Demo.expr.id = some Demo.sum ∧
      ∃ fuel t matched, (matched = true ↔ input.chars.toList ∈ Arith.text) ∧ ∀ more, fuel ≤ more →
        Demo.arith.heardWith more input l s =
          some (t, .ok ⟨matched, if matched then input.length + 1 else 0, input.length⟩) :=
  ⟨expr_bound, Demo.arith.recognized_parse Arith.text arith_recognizes input l obliging s⟩

theorem nested_sum_matches :
    (∀ s h, ((Listener.deaf (ε := Unit)) s h).2 = none) ∧ (Input.ofString " 2*(1 +34)\n").chars.toList ∈ Arith.text ∧
      ∃ fuel t, ∀ more, fuel ≤ more →
        Demo.arith.heardWith more (.ofString " 2*(1 +34)\n") (Listener.deaf (ε := Unit)) () =
          some (t, .ok ⟨true, 12, 11⟩) := by
  have blank (gap : List Char) (all : gap.all (· ∈ [' ', '\t']) = true) : gap ∈ blanks := each_among gap _ all
  have number (digits gap : List Char) (some : digits ≠ []) (all : digits.all (Digit ·) = true)
      (all' : gap.all (· ∈ [' ', '\t']) = true) : Derives .factor (digits ++ gap) :=
    .number digits gap some (each_among digits _ all) (each_among gap _ all')
  have one : Derives .term ['1', ' '] := .term _ _ (number ['1'] [' '] (by simp) rfl rfl) .no_factors
  have more : Derives .term ['3', '4'] := .term _ _ (number ['3', '4'] [] (by simp) rfl rfl) .no_factors
  have inner : Derives .expr ['1', ' ', '+', '3', '4'] :=
    .expr _ _ one (.terms '+' [] ['3', '4'] [] (by simp) (blank [] rfl) more .no_terms)
  have factor : Derives .factor ['(', '1', ' ', '+', '3', '4', ')'] := .parens [] _ [] (blank [] rfl) inner (blank [] rfl)
  have product : Derives .term ['2', '*', '(', '1', ' ', '+', '3', '4', ')'] :=
    .term _ _ (number ['2'] [] (by simp) rfl rfl) (.factors '*' [] _ [] (by simp) (blank [] rfl) factor .no_factors)
  have mem : [' '] ++ (['2', '*', '(', '1', ' ', '+', '3', '4', ')'] ++ ['\n']) ∈ Arith.text :=
    Language.append_mem_mul (blank [' '] rfl) (Language.append_mem_mul (.expr _ [] product .no_terms) (.inr rfl))
  obtain ⟨-, fuel, t, matched, exactly, heard⟩ :=
    arith_matches_expressions (.ofString " 2*(1 +34)\n") (Listener.deaf (ε := Unit)) (fun _ _ => rfl) ()
  rw [exactly.mpr mem] at heard
  exact ⟨fun _ _ => rfl, mem, fuel, t, heard⟩

end MatchTrace
