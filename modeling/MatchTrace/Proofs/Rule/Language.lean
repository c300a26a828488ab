import Mathlib.Computability.Language
import Mathlib.Order.CompletePartialOrder
import MatchTrace.Proofs.Rule.Peg

/-!
The words that rules stand for. A rule reads a language if it has a meaning and matches words of the language only;
that it takes a word, in front of the text that follows, is the other direction. Sequence, choice and repetition
of rules go with product, sum and star of languages, but for what has to follow a word: no rule gives back what it
has matched.
-/

namespace MatchTrace

set_option autoImplicit false

open scoped Computability

def Rest (t : Input) (i : Nat) (s : List Char) : Prop := ∃ before, t.chars.toList = before ++ s ∧ before.length = i

theorem rest_start (t : Input) : Rest t 0 t.chars.toList := ⟨[], rfl, rfl⟩

theorem rest_skip (t : Input) (i : Nat) (w s : List Char) (rest : Rest t i (w ++ s)) : Rest t (i + w.length) s := by
  obtain ⟨before, text, rfl⟩ := rest
  exact ⟨before ++ w, by simp [text], by simp⟩

theorem rest_length (t : Input) (i : Nat) (s : List Char) (rest : Rest t i s) : i + s.length = t.length := by
  obtain ⟨before, text, rfl⟩ := rest
  rw [Input.length, ← Array.length_toList, text, List.length_append]

theorem rest_unique (t : Input) (i : Nat) (s u : List Char) (rest : Rest t i s) (other : Rest t i u) : s = u := by
  obtain ⟨before, text, rfl⟩ := rest
  obtain ⟨front, same, place⟩ := other
  exact (List.append_inj (text.symm.trans same) place.symm).2

theorem rest_char (t : Input) (i : Nat) (s : List Char) (rest : Rest t i s) : t.charAt i = s.head? := by
  obtain ⟨before, text, rfl⟩ := rest
  rw [Input.charAt, ← Array.getElem?_toList, text, List.getElem?_append_right (Nat.le_refl _), Nat.sub_self,
    List.head?_eq_getElem?]

theorem rest_occurs (t : Input) (i : Nat) (w s : List Char) (rest : Rest t i s) : Occurs t i w ↔ w <+: s := by
  constructor
  · rintro ⟨before, after, text, place⟩
    have there : Rest t i (w ++ after) := ⟨before, by simp [text], place⟩
    rw [rest_unique t i s _ rest there]
    exact List.prefix_append w after
  · rintro ⟨after, rfl⟩
    obtain ⟨before, text, place⟩ := rest
    exact ⟨before, after, by simp [text], place⟩

theorem many_le (L M : Language Char) (none : [] ∈ M) (more : ∀ v ∈ L, ∀ w ∈ M, v ++ w ∈ M) : L∗ ≤ M := by
  apply kstar_le_of_mul_le_right
  · rintro _ rfl
    exact none
  · intro w mem
    obtain ⟨v, first, u, rest, rfl⟩ := Language.mem_mul.mp mem
    exact more v first u rest

theorem many_once (L : Language Char) (w : List Char) (mem : w ∈ L) : w ∈ L∗ := (le_kstar : L ≤ L∗) mem

def Separated (item separator : Language Char) : Language Char := item * (separator * item)∗

def Letter (p : Char → Prop) : Language Char := {w | ∃ c, p c ∧ w = [c]}

def Letters (p : Char → Prop) : Language Char := {w | ∀ c ∈ w, p c}

theorem letters_many (p : Char → Prop) : (Letter p)∗ ≤ Letters p := by
  apply many_le
  · intro c mem
    cases mem
  · rintro _ ⟨c, kind, rfl⟩ w all d mem
    rcases List.mem_cons.mp mem with rfl | mem
    · exact kind
    · exact all d mem

def Starts (p : Char → Prop) (s : List Char) : Prop := ∀ c, s.head? = some c → p c

theorem starts_nil (p : Char → Prop) : Starts p [] := by
  intro c first
  cases first

theorem starts_cons (p : Char → Prop) (c : Char) (s : List Char) (kind : p c) : Starts p (c :: s) := by
  intro d first
  cases first
  exact kind

theorem starts_le (p q : Char → Prop) (le : ∀ c, p c → q c) (s : List Char) (starts : Starts p s) : Starts q s :=
  fun c first => le c (starts c first)

theorem each_among (chars : List Char) (q : Char → Prop) [DecidablePred q] (each : chars.all (q ·) = true) :
    ∀ c ∈ chars, q c := by
  simpa using each

theorem starts_among (chars : List Char) (q : Char → Prop) [DecidablePred q] (each : chars.all (q ·) = true)
    (s : List Char) (starts : Starts (· ∈ chars) s) : Starts q s := starts_le _ q (each_among chars q each) s starts

theorem starts_letters (p : Char → Prop) (w s : List Char) (all : w ∈ Letters p) (behind : Starts p s) :
    Starts p (w ++ s) := by
  cases w with
  | nil => exact behind
  | cons c w => exact starts_cons p c _ (all c List.mem_cons_self)

theorem starts_many (p : Char → Prop) (L : Language Char) (heads : ∀ v ∈ L, ∃ c u, v = c :: u ∧ p c) (w s : List Char)
    (mem : w ∈ L∗) (behind : Starts p s) : Starts p (w ++ s) := by
  obtain ⟨words, rfl, all⟩ := Language.mem_kstar.mp mem
  cases words with
  | nil => exact behind
  | cons v words =>
      obtain ⟨c, u, rfl, kind⟩ := heads v (all v List.mem_cons_self)
      exact starts_cons p c _ kind

namespace Grammar

variable (g : Grammar) (t : Input)

structure One (r : Rule) (p : Char → Prop) : Prop where
  hit : ∀ i c, t.charAt i = some c → p c → Peg g t r i (some (i + 1))
  miss : ∀ i, (∀ c, t.charAt i = some c → ¬ p c) → Peg g t r i none

theorem one_terminal (id : Nat) (terminal : Terminal) (p : Char → Prop)
    (shape : ∀ i j, terminal.Moves t i j ↔ (∃ c, p c ∧ t.charAt i = some c) ∧ j = i + 1) :
    g.One t (.terminal id terminal) p where
  hit i c here kind := .hit id terminal i (i + 1) ((shape i (i + 1)).mpr ⟨⟨c, kind, here⟩, rfl⟩)
  miss i other := by
    apply Peg.miss
    intro j moves
    obtain ⟨⟨c, kind, here⟩, -⟩ := (shape i j).mp moves
    exact other c here kind

theorem one_ch (id : Nat) (c : Char) : g.One t (.terminal id (.ch c)) (· = c) :=
  one_terminal g t id _ _ fun i j => by simp [Terminal.Moves, occurs_single]

theorem one_range (id : Nat) (low high : Char) :
    g.One t (.terminal id (.range low high)) fun c => low ≤ c ∧ c ≤ high :=
  one_terminal g t id _ _ fun i j => by simp [Terminal.Moves, occurs_single, and_assoc]

theorem one_any_of (id : Nat) (chars : List Char) : g.One t (.terminal id (.anyOf chars)) (· ∈ chars) :=
  one_terminal g t id _ _ fun i j => by simp [Terminal.Moves, occurs_single]

theorem one_any (id : Nat) : g.One t (.terminal id .any) fun _ => True :=
  one_terminal g t id _ _ fun i j => by simp [Terminal.Moves, occurs_single]

theorem one_other (id not all : Nat) (r : Rule) (p : Char → Prop) (one : g.One t r p) :
    g.One t (.sequence id [.testNot not r, .terminal all .any]) fun c => ¬ p c where
  hit i c here other := by
    have fails : Peg g t r i none := by
      apply one.miss
      intro d there
      rw [here] at there
      cases there
      exact other
    have passes := Peg.test_not not r i none fails
    have last := Peg.sequence_step id _ [] i _ _ ((one_any g t all).hit i c here trivial) (.sequence_end id (i + 1))
    exact .sequence_step id _ _ i i _ passes last
  miss i none := by
    cases here : t.charAt i with
    | none =>
        have fails : Peg g t r i Option.none := by
          apply one.miss
          intro c there
          rw [here] at there
          cases there
        have stuck := (one_any g t all).miss i fun c there => by
          rw [here] at there
          cases there
        exact .sequence_step id _ _ i i _ (Peg.test_not not r i Option.none fails)
          (.sequence_fail id _ [] i stuck)
    | some c =>
        have kind := Classical.not_not.mp (none c here)
        exact .sequence_fail id _ _ i (Peg.test_not not r i (some (i + 1)) (one.hit i c here kind))

section Reads

-- At position `i`, where the text goes on with `s`, a word of the language stands that ends at `j`.
def Spells (L : Language Char) (i : Nat) (s : List Char) (j : Nat) : Prop :=
  ∃ w ∈ L, ∃ after, s = w ++ after ∧ j = i + w.length

def Reads (r : Rule) (L : Language Char) (i : Nat) : Prop :=
  ∀ s, Rest t i s → ∃ e, Peg g t r i e ∧ ∀ j, e = some j → Spells L i s j

theorem spells_append (L M : Language Char) (i j : Nat) (w s : List Char) (mem : w ∈ L)
    (spells : Spells M (i + w.length) s j) : Spells (L * M) i (w ++ s) j := by
  obtain ⟨v, mem', after, rfl, rfl⟩ := spells
  refine ⟨w ++ v, Language.append_mem_mul mem mem', after, by simp, ?_⟩
  rw [List.length_append, Nat.add_assoc]

theorem spells_le (L M : Language Char) (le : L ≤ M) (i j : Nat) (s : List Char) (spells : Spells L i s j) :
    Spells M i s j := by
  obtain ⟨w, mem, read⟩ := spells
  exact ⟨w, le mem, read⟩

variable (r : Rule) (rs : List Rule) (L M : Language Char) (id i : Nat)

theorem reads_le (le : L ≤ M) (reads : g.Reads t r L i) : g.Reads t r M i := by
  intro s rest
  obtain ⟨e, meaning, words⟩ := reads s rest
  exact ⟨e, meaning, fun j matched => spells_le L M le i j s (words j matched)⟩

theorem reads_one (p : Char → Prop) (one : g.One t r p) : g.Reads t r (Letter p) i := by
  intro s rest
  have here := rest_char t i s rest
  by_cases kind : ∃ c, s.head? = some c ∧ p c
  · obtain ⟨c, first, kind⟩ := kind
    obtain ⟨after, rfl⟩ := List.head?_eq_some_iff.mp first
    refine ⟨some (i + 1), one.hit i c here kind, fun j same => ?_⟩
    cases same
    exact ⟨[c], ⟨c, kind, rfl⟩, after, rfl, rfl⟩
  · refine ⟨none, one.miss i fun c first kinds => kind ⟨c, here ▸ first, kinds⟩, fun j same => ?_⟩
    cases same

theorem reads_ch (c : Char) : g.Reads t (.terminal id (.ch c)) {[c]} i := by
  apply g.reads_le t _ _ _ i _ (g.reads_one t _ i _ (g.one_ch t id c))
  rintro _ ⟨_, rfl, rfl⟩
  rfl

theorem reads_string (cs : List Char) : g.Reads t (.terminal id (.string cs)) {cs} i := by
  intro s rest
  have there := rest_occurs t i cs s rest
  by_cases occurs : cs <+: s
  · refine ⟨some (i + cs.length), .hit id _ i _ ⟨there.mpr occurs, rfl⟩, fun j same => ?_⟩
    cases same
    obtain ⟨after, rfl⟩ := occurs
    exact ⟨cs, rfl, after, rfl, rfl⟩
  · refine ⟨none, .miss id _ i fun j moves => occurs (there.mp moves.1), fun j same => ?_⟩
    cases same

theorem reads_sequence_nil : g.Reads t (.sequence id []) 1 i := by
  intro s rest
  refine ⟨some i, .sequence_end id i, fun j same => ?_⟩
  cases same
  exact ⟨[], rfl, s, rfl, rfl⟩

theorem reads_sequence_cons (first : g.Reads t r L i)
    (later : ∀ w ∈ L, g.Reads t (.sequence id rs) M (i + w.length)) :
    g.Reads t (.sequence id (r :: rs)) (L * M) i := by
  intro s rest
  obtain ⟨e, meaning, words⟩ := first s rest
  cases e with
  | none =>
      refine ⟨none, .sequence_fail id r rs i meaning, fun j same => ?_⟩
      cases same
  | some k =>
      obtain ⟨w, mem, after, rfl, rfl⟩ := words k rfl
      obtain ⟨e, meaning', words'⟩ := later w mem after (rest_skip t i w after rest)
      exact ⟨e, .sequence_step id r rs i _ e meaning meaning', fun j matched =>
        spells_append L M i j w after mem (words' j matched)⟩

theorem reads_sequence_single (inner : g.Reads t r L i) : g.Reads t (.sequence id [r]) L i := by
  have last := g.reads_sequence_cons t r [] L 1 id i inner fun w _ => g.reads_sequence_nil t id (i + w.length)
  rwa [mul_one] at last

theorem reads_first_nil : g.Reads t (.firstOf id []) 0 i := by
  intro s rest
  refine ⟨none, .first_none id i, fun j same => ?_⟩
  cases same

theorem reads_first_cons (first : g.Reads t r L i) (others : g.Reads t (.firstOf id rs) M i) :
    g.Reads t (.firstOf id (r :: rs)) (L + M) i := by
  intro s rest
  obtain ⟨e, meaning, words⟩ := first s rest
  cases e with
  | some k =>
      exact ⟨some k, .first_match id r rs i k meaning, fun j matched =>
        spells_le L (L + M) le_self_add i j s (words j matched)⟩
  | none =>
      obtain ⟨e, meaning', words'⟩ := others s rest
      exact ⟨e, .first_next id r rs i e meaning meaning', fun j matched =>
        spells_le M (L + M) le_add_self i j s (words' j matched)⟩

theorem reads_first_single (inner : g.Reads t r L i) : g.Reads t (.firstOf id [r]) L i := by
  have last := g.reads_first_cons t r [] L 0 id i inner (g.reads_first_nil t id i)
  rwa [add_zero] at last

theorem reads_optional (inner : g.Reads t r L i) : g.Reads t (.optional id r) (L + 1) i := by
  intro s rest
  obtain ⟨e, meaning, words⟩ := inner s rest
  refine ⟨some (e.getD i), .optional id r i e meaning, fun j same => ?_⟩
  cases same
  cases e with
  | none => exact ⟨[], .inr rfl, s, rfl, rfl⟩
  | some k => exact spells_le L (L + 1) le_self_add i k s (words k rfl)

theorem reads_labelled (label : String) (inner : g.Reads t r L i) : g.Reads t (.labelled id label r) L i := by
  intro s rest
  obtain ⟨e, meaning, words⟩ := inner s rest
  exact ⟨e, .labelled id label r i e meaning, words⟩

theorem reads_proxy (label : String) (bound : g.target? id = some r) (inner : g.Reads t r L i) :
    g.Reads t (.proxy id label) L i := by
  intro s rest
  obtain ⟨e, meaning, words⟩ := inner s rest
  exact ⟨e, .proxy id label r i e bound meaning, words⟩

-- By the text that is left, for a repetition goes round only if it has read some of it.
theorem reads_many (child : ∀ j, i ≤ j → g.Reads t r L j) : g.Reads t (.zeroOrMore id r) L∗ i := by
  intro s rest
  induction left : s.length using Nat.strongRecOn generalizing i s with
  | ind left ih =>
      obtain ⟨e, meaning, words⟩ := child i (Nat.le_refl i) s rest
      cases e with
      | none =>
          refine ⟨some i, .many_end id r i meaning, fun j same => ?_⟩
          cases same
          exact ⟨[], Language.nil_mem_kstar L, s, rfl, rfl⟩
      | some k =>
          by_cases still : i < k
          · obtain ⟨w, mem, after, rfl, rfl⟩ := words k rfl
            obtain ⟨e, meaning', words'⟩ := ih after.length (by rw [← left, List.length_append]; omega) (i + w.length)
              (fun j ahead => child j (by omega)) after (rest_skip t i w after rest) rfl
            exact ⟨e, .many_step id r i _ e meaning still meaning', fun j matched =>
              spells_le (L * L∗) L∗ mul_kstar_le_kstar i j _ (spells_append L L∗ i j w after mem (words' j matched))⟩
          · exact ⟨some k, .many_still id r i k meaning still, fun j matched =>
              spells_le L L∗ le_kstar i j s (words j matched)⟩

theorem reads_some (child : ∀ j, i ≤ j → g.Reads t r L j) : g.Reads t (.oneOrMore id r) (L * L∗) i := by
  intro s rest
  obtain ⟨e, meaning, words⟩ := child i (Nat.le_refl i) s rest
  cases e with
  | none =>
      refine ⟨none, .some_fail id r i meaning, fun j same => ?_⟩
      cases same
  | some k =>
      by_cases still : i < k
      · obtain ⟨w, mem, after, rfl, rfl⟩ := words k rfl
        obtain ⟨e, meaning', words'⟩ := g.reads_many t r L id (i + w.length) (fun j ahead => child j (by omega)) after
          (rest_skip t i w after rest)
        exact ⟨e, .some_step id r i _ e meaning still meaning', fun j matched =>
          spells_append L L∗ i j w after mem (words' j matched)⟩
      · have once : L ≤ L * L∗ := le_mul_of_one_le_right' one_le_kstar
        exact ⟨some k, .some_still id r i k meaning still, fun j matched =>
          spells_le L (L * L∗) once i j s (words j matched)⟩

theorem reads_letters (p : Char → Prop) (one : g.One t r p) : g.Reads t (.zeroOrMore id r) (Letters p) i :=
  g.reads_le t _ _ _ i (letters_many p) (g.reads_many t r _ id i fun j _ => g.reads_one t r j p one)

end Reads

section Takes

-- The rule takes the word where the text goes on with `s` behind it.
def Takes (r : Rule) (w s : List Char) : Prop := ∀ i, Rest t i (w ++ s) → Peg g t r i (some (i + w.length))

def Refuses (r : Rule) (s : List Char) : Prop := ∀ i, Rest t i s → Peg g t r i none

variable (r : Rule) (rs : List Rule) (v w s : List Char) (id : Nat)

theorem takes_one (p : Char → Prop) (one : g.One t r p) (c : Char) (kind : p c) : g.Takes t r [c] s :=
  fun i rest => one.hit i c (rest_char t i _ rest) kind

theorem refuses_one (p : Char → Prop) (one : g.One t r p) (other : Starts (fun c => ¬ p c) s) : g.Refuses t r s :=
  fun i rest => one.miss i fun c here => other c (rest_char t i s rest ▸ here)

theorem takes_ch (c : Char) : g.Takes t (.terminal id (.ch c)) [c] s := g.takes_one t _ s _ (g.one_ch t id c) c rfl

theorem refuses_ch (c : Char) (other : Starts (· ≠ c) s) : g.Refuses t (.terminal id (.ch c)) s :=
  g.refuses_one t _ s _ (g.one_ch t id c) other

theorem takes_string (cs : List Char) : g.Takes t (.terminal id (.string cs)) cs s := by
  intro i rest
  exact .hit id _ i _ ⟨(rest_occurs t i cs _ rest).mpr (List.prefix_append cs s), rfl⟩

theorem refuses_string (cs : List Char) (other : ¬ cs <+: s) : g.Refuses t (.terminal id (.string cs)) s :=
  fun i rest => .miss id _ i fun _ moves => other ((rest_occurs t i cs s rest).mp moves.1)

theorem takes_sequence_nil : g.Takes t (.sequence id []) [] s := fun i _ => .sequence_end id i

theorem takes_both (q : Rule) (first : g.Takes t r v (w ++ s)) (later : g.Takes t q w s) (i : Nat)
    (rest : Rest t i ((v ++ w) ++ s)) :
    Peg g t r i (some (i + v.length)) ∧ Peg g t q (i + v.length) (some (i + (v ++ w).length)) := by
  rw [List.append_assoc] at rest
  have last := later (i + v.length) (rest_skip t i v (w ++ s) rest)
  rw [Nat.add_assoc, ← List.length_append] at last
  exact ⟨first i rest, last⟩

theorem takes_sequence_cons (first : g.Takes t r v (w ++ s)) (later : g.Takes t (.sequence id rs) w s) :
    g.Takes t (.sequence id (r :: rs)) (v ++ w) s := by
  intro i rest
  obtain ⟨front, back⟩ := g.takes_both t r v w s _ first later i rest
  exact .sequence_step id r rs i _ _ front back

theorem takes_sequence_single (inner : g.Takes t r w s) : g.Takes t (.sequence id [r]) w s := by
  have last := g.takes_sequence_cons t r [] w [] s id inner (g.takes_sequence_nil t s id)
  rwa [List.append_nil] at last

theorem refuses_sequence (first : g.Refuses t r s) : g.Refuses t (.sequence id (r :: rs)) s :=
  fun i rest => .sequence_fail id r rs i (first i rest)

theorem refuses_behind (first : g.Takes t r w s) (later : g.Refuses t (.sequence id rs) s) :
    g.Refuses t (.sequence id (r :: rs)) (w ++ s) :=
  fun i rest => .sequence_step id r rs i _ none (first i rest) (later _ (rest_skip t i w s rest))

theorem takes_first (first : g.Takes t r w s) : g.Takes t (.firstOf id (r :: rs)) w s :=
  fun i rest => .first_match id r rs i _ (first i rest)

theorem takes_other (first : g.Refuses t r (w ++ s)) (others : g.Takes t (.firstOf id rs) w s) :
    g.Takes t (.firstOf id (r :: rs)) w s :=
  fun i rest => .first_next id r rs i _ (first i rest) (others i rest)

theorem refuses_first_nil : g.Refuses t (.firstOf id []) s := fun i _ => .first_none id i

theorem refuses_first_cons (first : g.Refuses t r s) (others : g.Refuses t (.firstOf id rs) s) :
    g.Refuses t (.firstOf id (r :: rs)) s :=
  fun i rest => .first_next id r rs i none (first i rest) (others i rest)

theorem takes_optional (inner : g.Takes t r w s) : g.Takes t (.optional id r) w s :=
  fun i rest => .optional id r i _ (inner i rest)

theorem takes_optional_nil (inner : g.Refuses t r s) : g.Takes t (.optional id r) [] s :=
  fun i rest => .optional id r i none (inner i rest)

theorem takes_labelled (label : String) (inner : g.Takes t r w s) : g.Takes t (.labelled id label r) w s :=
  fun i rest => .labelled id label r i _ (inner i rest)

theorem refuses_labelled (label : String) (inner : g.Refuses t r s) : g.Refuses t (.labelled id label r) s :=
  fun i rest => .labelled id label r i none (inner i rest)

theorem takes_proxy (label : String) (bound : g.target? id = some r) (inner : g.Takes t r w s) :
    g.Takes t (.proxy id label) w s :=
  fun i rest => .proxy id label r i _ bound (inner i rest)

theorem takes_many_nil (stop : g.Refuses t r s) : g.Takes t (.zeroOrMore id r) [] s :=
  fun i rest => .many_end id r i (stop i rest)

theorem takes_many_cons (first : g.Takes t r v (w ++ s)) (moves : v ≠ []) (later : g.Takes t (.zeroOrMore id r) w s) :
    g.Takes t (.zeroOrMore id r) (v ++ w) s := by
  intro i rest
  obtain ⟨front, back⟩ := g.takes_both t r v w s _ first later i rest
  exact .many_step id r i _ _ front (Nat.lt_add_of_pos_right (List.length_pos_of_ne_nil moves)) back

theorem takes_some (first : g.Takes t r v (w ++ s)) (moves : v ≠ []) (later : g.Takes t (.zeroOrMore id r) w s) :
    g.Takes t (.oneOrMore id r) (v ++ w) s := by
  intro i rest
  obtain ⟨front, back⟩ := g.takes_both t r v w s _ first later i rest
  exact .some_step id r i _ _ front (Nat.lt_add_of_pos_right (List.length_pos_of_ne_nil moves)) back

theorem refuses_some (stop : g.Refuses t r s) : g.Refuses t (.oneOrMore id r) s :=
  fun i rest => .some_fail id r i (stop i rest)

theorem takes_many (p : Char → Prop) (L : Language Char) (heads : ∀ v ∈ L, ∃ c u, v = c :: u ∧ p c)
    (item : ∀ v ∈ L, ∀ u, Starts p u → g.Takes t r v u) (behind : Starts p s) (stop : g.Refuses t r s) (mem : w ∈ L∗) :
    g.Takes t (.zeroOrMore id r) w s := by
  obtain ⟨words, rfl, all⟩ := Language.mem_kstar.mp mem
  clear mem
  induction words with
  | nil => exact g.takes_many_nil t r s id stop
  | cons v words ih =>
      have here := all v List.mem_cons_self
      have others : ∀ u ∈ words, u ∈ L := fun u mem => all u (List.mem_cons_of_mem v mem)
      have ahead := starts_many p L heads words.flatten s (Language.join_mem_kstar others) behind
      obtain ⟨c, u, rfl, -⟩ := heads v here
      exact g.takes_many_cons t r _ words.flatten s id (item _ here _ ahead) (by simp) (ih others)

theorem takes_letters (p : Char → Prop) (one : g.One t r p) (all : ∀ c ∈ w, p c) (stop : Starts (fun c => ¬ p c) s) :
    g.Takes t (.zeroOrMore id r) w s := by
  induction w with
  | nil => exact g.takes_many_nil t r s id (g.refuses_one t r s p one stop)
  | cons c w ih =>
      exact g.takes_many_cons t r [c] w s id (g.takes_one t r _ p one c (all c List.mem_cons_self)) (by simp)
        (ih fun d mem => all d (List.mem_cons_of_mem c mem))

end Takes

section Whole

variable (r : Rule) (rs : List Rule) (L M : Language Char) (w s : List Char) (id i : Nat)

def ReadsOut (rs : List Rule) (L : Language Char) (i : Nat) : Prop :=
  ∀ s, Rest t i s → ∃ e, Peg g t (.sequence id rs) i e ∧ ∀ j, e = some j → s ∈ L ∧ j = t.length + 1

theorem reads_out_end (last : Nat) : g.ReadsOut t id [.terminal last .endOfInput] 1 i := by
  intro s rest
  have length := rest_length t i s rest
  cases s with
  | nil =>
      have here : i = t.length := length
      have hit := Peg.hit (g := g) last .endOfInput i (i + 1) ⟨here, rfl⟩
      refine ⟨some (i + 1), .sequence_step id _ [] i _ _ hit (.sequence_end id (i + 1)), fun j same => ?_⟩
      cases same
      exact ⟨rfl, by rw [here]⟩
  | cons c s =>
      have miss := Peg.miss (g := g) (t := t) last .endOfInput i fun j moves => by
        obtain ⟨here, -⟩ := moves
        rw [List.length_cons] at length
        omega
      refine ⟨none, .sequence_fail id _ [] i miss, fun j same => ?_⟩
      cases same

theorem reads_out_cons (first : g.Reads t r L i) (later : ∀ w ∈ L, g.ReadsOut t id rs M (i + w.length)) :
    g.ReadsOut t id (r :: rs) (L * M) i := by
  intro s rest
  obtain ⟨e, meaning, words⟩ := first s rest
  cases e with
  | none =>
      refine ⟨none, .sequence_fail id r rs i meaning, fun j same => ?_⟩
      cases same
  | some k =>
      obtain ⟨w, mem, after, rfl, rfl⟩ := words k rfl
      obtain ⟨e, meaning', words'⟩ := later w mem after (rest_skip t i w after rest)
      refine ⟨e, .sequence_step id r rs i _ e meaning meaning', fun j matched => ?_⟩
      obtain ⟨mem', last⟩ := words' j matched
      exact ⟨Language.append_mem_mul mem mem', last⟩

def TakesOut (rs : List Rule) (s : List Char) : Prop :=
  ∀ i, Rest t i s → Peg g t (.sequence id rs) i (some (t.length + 1))

theorem takes_out_end (last : Nat) : g.TakesOut t id [.terminal last .endOfInput] [] := by
  intro i rest
  obtain rfl : i = t.length := rest_length t i [] rest
  have hit := Peg.hit (g := g) last .endOfInput t.length (t.length + 1) ⟨rfl, rfl⟩
  exact .sequence_step id _ [] _ _ _ hit (.sequence_end id _)

theorem takes_out_cons (first : g.Takes t r w s) (later : g.TakesOut t id rs s) : g.TakesOut t id (r :: rs) (w ++ s) :=
  fun i rest => .sequence_step id r rs i _ _ (first i rest) (later _ (rest_skip t i w s rest))

end Whole

end Grammar

end MatchTrace
