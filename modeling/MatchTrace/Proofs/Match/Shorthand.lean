import MatchTrace.Proofs.Match.Adequacy
import MatchTrace.Proofs.Match.Words
import MatchTrace.Proofs.Rule.Language

/-!
Rules that say in one step what others spell out: a string for its characters in sequence, a choice of strings or of
characters for the choice among them. A run that comes to such a rule ends there as it would have ended with what the
rule stands for. The one exception is the empty string past the end of the text.
-/

namespace MatchTrace

set_option autoImplicit false

namespace Grammar

-- However deep a run is when it comes to the rule at position `i`, and whoever listens without failing: the rule ends
-- as `e` tells, without an error.
def Ends (g : Grammar) (t : Input) (i : Nat) (r : Rule) (e : Option Nat) : Prop :=
  ∃ fuel, ∀ more, fuel ≤ more → ∀ (ε σ : Type) (l : Listener ε σ), (∀ s h, (l s h).2 = none) → ∀ (level : Nat) (s : σ),
    ∃ u v, invoke (.heard l) (g.setting t) more level r i s = some (u, .ok v) ∧ v.end? = e

def Alike (g : Grammar) (t : Input) (i : Nat) (r q : Rule) : Prop := ∃ e, g.Ends t i r e ∧ g.Ends t i q e

end Grammar

section Ends

variable (g : Grammar) (t : Input) (i : Nat) (r q : Rule) (e f : Option Nat)

theorem peg_ends (meaning : Peg g t r i e) : g.Ends t i r e := by
  obtain ⟨fuel, settled⟩ := settled_invoke g t r i e (peg_settles g t r i e meaning)
  refine ⟨fuel, fun more bound ε σ l obliging level s => ?_⟩
  obtain ⟨hooks, v, ran, ended⟩ := settled more bound level
  refine ⟨(announce l s hooks).1, v, ?_, ended⟩
  rw [obliging_invoke l obliging, ran]
  rfl

theorem ends_unique (one : g.Ends t i r e) (other : g.Ends t i r f) : e = f := by
  obtain ⟨first, ends⟩ := one
  obtain ⟨second, ends'⟩ := other
  obtain ⟨_, v, ran, rfl⟩ := ends (max first second) (Nat.le_max_left _ _) Unit Unit Listener.deaf (fun _ _ => rfl) 0 ()
  obtain ⟨_, w, ran', rfl⟩ :=
    ends' (max first second) (Nat.le_max_right _ _) Unit Unit Listener.deaf (fun _ _ => rfl) 0 ()
  rw [ran] at ran'
  cases ran'
  rfl

theorem peg_alike (meaning : Peg g t r i e) (same : Peg g t q i e) : g.Alike t i r q :=
  ⟨e, peg_ends g t i r e meaning, peg_ends g t i q e same⟩

theorem peg_unlike (meaning : Peg g t r i e) (other : Peg g t q i f) (differ : e ≠ f) : ¬ g.Alike t i r q := by
  intro alike
  obtain ⟨d, first, second⟩ := alike
  have one := ends_unique g t i r d e first (peg_ends g t i r e meaning)
  have two := ends_unique g t i q d f second (peg_ends g t i q f other)
  exact differ (one.symm.trans two)

end Ends

def Rule.each {α : Type} (make : α → Terminal) (nodes : List (Nat × α)) : List Rule :=
  nodes.map fun n => .terminal n.1 (make n.2)

section Shorthand

variable (g : Grammar) (t : Input) (id i : Nat)

theorem first_strings_meaning (nodes : List (Nat × List Char)) :
    Peg g t (.firstOf id (Rule.each .string nodes)) i
      (((Terminal.firstOfStrings (nodes.map (·.2))).width t i).map (i + ·)) := by
  induction nodes with
  | nil => exact .first_none id i
  | cons n nodes ih =>
      have first := terminal_meaning g t n.1 i (.string n.2)
      simp only [Terminal.width, List.map_cons, List.find?_cons] at first ih ⊢
      cases here : t.hasAt i n.2 with
      | true =>
          simp only [here, if_true] at first
          exact .first_match id _ _ i _ first
      | false =>
          simp only [here, Bool.false_eq_true, if_false] at first
          exact .first_next id _ _ i _ first ih

theorem one_first_of (nodes : List (Nat × Char)) :
    g.One t (.firstOf id (Rule.each .ch nodes)) (· ∈ nodes.map (·.2)) := by
  induction nodes with
  | nil => exact ⟨fun i c _ mem => absurd mem List.not_mem_nil, fun i _ => .first_none id i⟩
  | cons n nodes ih =>
      have first := g.one_ch t n.1 n.2
      constructor
      · intro i c here mem
        by_cases same : c = n.2
        · exact .first_match id _ _ i _ (first.hit i c here same)
        · have missed : Peg g t (.terminal n.1 (.ch n.2)) i none := by
            apply first.miss
            intro d there
            rw [here] at there
            exact Option.some.inj there ▸ same
          exact .first_next id _ _ i _ missed (ih.hit i c here ((List.mem_cons.mp mem).resolve_left same))
      · intro i other
        refine .first_next id _ _ i _ (first.miss i fun c here same => ?_) (ih.miss i fun c here mem => ?_)
        · exact other c here (List.mem_cons.mpr (.inl same))
        · exact other c here (List.mem_cons_of_mem _ mem)

theorem one_alike (p : Char → Prop) (r q : Rule) (one : g.One t r p) (other : g.One t q p) : g.Alike t i r q := by
  by_cases kind : ∃ c, t.charAt i = some c ∧ p c
  · obtain ⟨c, here, kind⟩ := kind
    exact peg_alike g t i r q _ (one.hit i c here kind) (other.hit i c here kind)
  · have none (c : Char) (here : t.charAt i = some c) : ¬ p c := fun holds => kind ⟨c, here, holds⟩
    exact peg_alike g t i r q _ (one.miss i none) (other.miss i none)

theorem string_width_cons (c : Char) (cs : List Char) (here : t.charAt i = some c) :
    ((Terminal.string (c :: cs)).width t i).map (i + ·) = ((Terminal.string cs).width t (i + 1)).map (i + 1 + ·) := by
  simp only [Terminal.width, Input.hasAt, here, beq_self_eq_true, Bool.true_and]
  split
  · simp [Nat.add_comm, Nat.add_left_comm]
  · rfl

theorem spelled_meaning (nodes : List (Nat × Char)) (inside : nodes ≠ [] ∨ i ≤ t.length) :
    Peg g t (.sequence id (Rule.each .ch nodes)) i (((Terminal.string (nodes.map (·.2))).width t i).map (i + ·)) := by
  induction nodes generalizing i with
  | nil =>
      have within : i ≤ t.length := inside.resolve_left fun some => some rfl
      have width : (Terminal.string []).width t i = some 0 := by simp [Terminal.width, Input.hasAt, within]
      rw [List.map_nil, width]
      exact .sequence_end id i
  | cons n nodes ih =>
      have first := g.one_ch t n.1 n.2
      by_cases here : t.charAt i = some n.2
      · have within : i + 1 ≤ t.length := char_at_within t i n.2 here
        rw [List.map_cons, string_width_cons t i n.2 _ here]
        exact .sequence_step id _ _ i (i + 1) _ (first.hit i n.2 here rfl) (ih (i + 1) (.inr within))
      · have width : (Terminal.string ((n :: nodes).map (·.2))).width t i = none := by
          simp [Terminal.width, Input.hasAt, here]
        rw [width]
        exact .sequence_fail id _ _ i (first.miss i fun c there same => here (same ▸ there))

-- Past the end nothing stands in the text, not even an empty string, but a sequence of no rules matches anywhere.
theorem empty_unlike (sequence : Nat) (past : t.length < i) :
    ¬ g.Alike t i (.terminal id (.string [])) (.sequence sequence []) := by
  have missed : (Terminal.string []).width t i = none := by
    simp [Terminal.width, Input.hasAt, past]
  have string := terminal_meaning g t id i (.string [])
  rw [missed] at string
  exact peg_unlike g t i _ _ none (some i) string (.sequence_end sequence i) (by simp)

end Shorthand

/-- A string ends as the sequence of its characters does, at any position up to the end of the text, and past the end
too unless it is empty. -/
theorem string_spells_characters (g : Grammar) (t : Input) (i string sequence : Nat) (nodes : List (Nat × Char)) :
    g.Alike t i (.terminal string (.string (nodes.map (·.2)))) (.sequence sequence (Rule.each .ch nodes)) ↔
      nodes ≠ [] ∨ i ≤ t.length := by
  constructor
  · intro alike
    cases nodes with
    | nil => exact .inr (Nat.le_of_not_lt fun past => empty_unlike g t string i sequence past alike)
    | cons n nodes => exact .inl (List.cons_ne_nil n nodes)
  · intro inside
    exact peg_alike g t i _ _ _ (terminal_meaning g t string i _) (spelled_meaning g t sequence i nodes inside)

theorem empty_string_past_end :
    ¬ (⟨.terminal 0 .empty, [], [], []⟩ : Grammar).Alike (.ofString "") 1 (.terminal 1 (.string []))
      (.sequence 2 (Rule.each .ch [])) :=
  empty_unlike _ _ 1 1 2 (by decide)

/-- A choice among strings in one step ends as the choice among a rule for each string in the same order, and a choice
among characters ends as the choice among a rule for each of them in any order, at every position. -/
theorem choices_in_one_step (g : Grammar) (t : Input) (i short first : Nat) :
    (∀ nodes : List (Nat × List Char), g.Alike t i (.terminal short (.firstOfStrings (nodes.map (·.2))))
      (.firstOf first (Rule.each .string nodes))) ∧
    ∀ (chars : List Char) (nodes : List (Nat × Char)), (∀ c, c ∈ chars ↔ c ∈ nodes.map (·.2)) →
      g.Alike t i (.terminal short (.anyOf chars)) (.firstOf first (Rule.each .ch nodes)) := by
  constructor
  · intro nodes
    have chosen := terminal_meaning g t short i (.firstOfStrings (nodes.map (·.2)))
    exact peg_alike g t i _ _ _ chosen (first_strings_meaning g t first i nodes)
  · intro chars nodes same
    have one := one_first_of g t first nodes
    simp only [← same] at one
    exact one_alike g t i _ _ _ (g.one_any_of t short chars) one

-- Of these strings each is the beginning of the one in front of it, and the signs are listed twice and in no order.
theorem overlapping_choices :
    (∀ c, c ∈ ['+', '-', '+'] ↔ c ∈ [(4, '-'), (5, '+')].map (·.2)) ∧
      (⟨.terminal 0 .empty, [], [], []⟩ : Grammar).Alike (.ofString "i+f") 0
        (.terminal 1 (.firstOfStrings [['i', 'f'], ['i'], []]))
        (.firstOf 2 (Rule.each .string [(3, ['i', 'f']), (4, ['i']), (5, [])])) ∧
      (⟨.terminal 0 .empty, [], [], []⟩ : Grammar).Alike (.ofString "i+f") 1
        (.terminal 1 (.anyOf ['+', '-', '+'])) (.firstOf 2 (Rule.each .ch [(4, '-'), (5, '+')])) := by
  have same (c : Char) : c ∈ ['+', '-', '+'] ↔ c ∈ [(4, '-'), (5, '+')].map (·.2) := by
    simp only [List.map_cons, List.map_nil, List.mem_cons, List.not_mem_nil, or_false]
    tauto
  exact ⟨same, (choices_in_one_step _ _ 0 1 2).1 [(3, ['i', 'f']), (4, ['i']), (5, [])],
    (choices_in_one_step _ _ 1 1 2).2 _ _ same⟩

end MatchTrace
