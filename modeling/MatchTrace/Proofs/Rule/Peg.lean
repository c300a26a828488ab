import MatchTrace.Rule.Grammar

/-!
What the rules of a grammar mean, apart from any way to run them: from a start index, a rule fails or
matches up to an end index. A rule that is left of a sequence, a choice or a repetition is a rule of
the same kind, so that each step of the meaning is one derivation step.
-/

namespace MatchTrace

set_option autoImplicit false

def Occurs (t : Input) (i : Nat) (cs : List Char) : Prop :=
  ∃ before after, t.chars.toList = before ++ cs ++ after ∧ before.length = i

theorem occurs_nil (t : Input) (i : Nat) : Occurs t i [] ↔ i ≤ t.length := by
  constructor
  · rintro ⟨before, after, text, rfl⟩
    have := congrArg List.length text
    simp only [List.append_nil, List.length_append, Array.length_toList] at this
    simp only [Input.length]
    omega
  · intro within
    refine ⟨t.chars.toList.take i, t.chars.toList.drop i, by simp, ?_⟩
    rw [List.length_take, Array.length_toList]
    exact Nat.min_eq_left within

theorem occurs_cons (t : Input) (i : Nat) (c : Char) (cs : List Char) :
    Occurs t i (c :: cs) ↔ t.charAt i = some c ∧ Occurs t (i + 1) cs := by
  constructor
  · rintro ⟨before, after, text, rfl⟩
    constructor
    · rw [Input.charAt, ← Array.getElem?_toList, text]
      simp
    · exact ⟨before ++ [c], after, by simp [text], by simp⟩
  · rintro ⟨first, before, after, text, place⟩
    rw [Input.charAt, ← Array.getElem?_toList, text] at first
    rcases List.eq_nil_or_concat before with rfl | ⟨front, last, rfl⟩
    · cases place
    · obtain rfl : front.length = i := by simpa using place
      obtain rfl : last = c := by simpa using first
      exact ⟨front, after, by simp [text], rfl⟩

theorem occurs_single (t : Input) (i : Nat) (c : Char) : Occurs t i [c] ↔ t.charAt i = some c := by
  rw [occurs_cons, occurs_nil]
  constructor
  · exact And.left
  · intro first
    refine ⟨first, ?_⟩
    obtain ⟨within, _⟩ := Array.getElem?_eq_some_iff.mp first
    exact within

theorem has_at_iff (t : Input) (i : Nat) (cs : List Char) : t.hasAt i cs = true ↔ Occurs t i cs := by
  induction cs generalizing i with
  | nil => simp [Input.hasAt, occurs_nil]
  | cons c cs ih => simp [Input.hasAt, occurs_cons, ih]

-- The end of input is one position long, and stands at the end only.
def Terminal.Moves (t : Input) (i j : Nat) : Terminal → Prop
  | .ch c => Occurs t i [c] ∧ j = i + 1
  | .endOfInput => i = t.length ∧ j = i + 1
  | .ignoreCase lower upper => (Occurs t i [lower] ∨ Occurs t i [upper]) ∧ j = i + 1
  | .range low high => (∃ c, low ≤ c ∧ c ≤ high ∧ Occurs t i [c]) ∧ j = i + 1
  | .anyOf chars => (∃ c ∈ chars, Occurs t i [c]) ∧ j = i + 1
  | .any => (∃ c, Occurs t i [c]) ∧ j = i + 1
  | .empty => j = i
  | .nothing => False
  | .string cs => Occurs t i cs ∧ j = i + cs.length
  | .firstOfStrings alternatives =>
      ∃ skipped cs rest, alternatives = skipped ++ cs :: rest ∧ (∀ s ∈ skipped, ¬ Occurs t i s) ∧
        Occurs t i cs ∧ j = i + cs.length

-- The meaning of a rule at an index: `none` is a failure, and a match has an end index.
inductive Peg (g : Grammar) (t : Input) : Rule → Nat → Option Nat → Prop where
  | hit (id : Nat) (terminal : Terminal) (i j : Nat) :
      terminal.Moves t i j → Peg g t (.terminal id terminal) i (some j)
  | miss (id : Nat) (terminal : Terminal) (i : Nat) :
      (∀ j, ¬ terminal.Moves t i j) → Peg g t (.terminal id terminal) i none
  | sequence_end (id i : Nat) : Peg g t (.sequence id []) i (some i)
  | sequence_fail (id : Nat) (r : Rule) (rs : List Rule) (i : Nat) :
      Peg g t r i none → Peg g t (.sequence id (r :: rs)) i none
  | sequence_step (id : Nat) (r : Rule) (rs : List Rule) (i j : Nat) (e : Option Nat) :
      Peg g t r i (some j) → Peg g t (.sequence id rs) j e → Peg g t (.sequence id (r :: rs)) i e
  | first_none (id i : Nat) : Peg g t (.firstOf id []) i none
  | first_match (id : Nat) (r : Rule) (rs : List Rule) (i j : Nat) :
      Peg g t r i (some j) → Peg g t (.firstOf id (r :: rs)) i (some j)
  | first_next (id : Nat) (r : Rule) (rs : List Rule) (i : Nat) (e : Option Nat) :
      Peg g t r i none → Peg g t (.firstOf id rs) i e → Peg g t (.firstOf id (r :: rs)) i e
  | optional (id : Nat) (r : Rule) (i : Nat) (e : Option Nat) :
      Peg g t r i e → Peg g t (.optional id r) i (some (e.getD i))
  | many_end (id : Nat) (r : Rule) (i : Nat) :
      Peg g t r i none → Peg g t (.zeroOrMore id r) i (some i)
  | many_still (id : Nat) (r : Rule) (i j : Nat) :
      Peg g t r i (some j) → ¬ i < j → Peg g t (.zeroOrMore id r) i (some j)
  | many_step (id : Nat) (r : Rule) (i j : Nat) (e : Option Nat) :
      Peg g t r i (some j) → i < j → Peg g t (.zeroOrMore id r) j e → Peg g t (.zeroOrMore id r) i e
  | some_fail (id : Nat) (r : Rule) (i : Nat) :
      Peg g t r i none → Peg g t (.oneOrMore id r) i none
  | some_still (id : Nat) (r : Rule) (i j : Nat) :
      Peg g t r i (some j) → ¬ i < j → Peg g t (.oneOrMore id r) i (some j)
  | some_step (id : Nat) (r : Rule) (i j : Nat) (e : Option Nat) :
      Peg g t r i (some j) → i < j → Peg g t (.zeroOrMore id r) j e → Peg g t (.oneOrMore id r) i e
  | test (id : Nat) (r : Rule) (i : Nat) (e : Option Nat) :
      Peg g t r i e → Peg g t (.test id r) i (if e.isSome then some i else none)
  | test_not (id : Nat) (r : Rule) (i : Nat) (e : Option Nat) :
      Peg g t r i e → Peg g t (.testNot id r) i (if e.isSome then none else some i)
  | action (id : Nat) (label : String) (verdict : View → Except Cause Bool) (i : Nat) (matched : Bool) :
      (∀ view : View, view.input = t → view.index = i → verdict view = .ok matched) →
      Peg g t (.action id label verdict) i (if matched then some i else none)
  | proxy (id : Nat) (label : String) (r : Rule) (i : Nat) (e : Option Nat) :
      g.target? id = some r → Peg g t r i e → Peg g t (.proxy id label) i e
  | labelled (id : Nat) (label : String) (r : Rule) (i : Nat) (e : Option Nat) :
      Peg g t r i e → Peg g t (.labelled id label r) i e

theorem moves_forward (t : Input) (i j : Nat) (terminal : Terminal) (moves : terminal.Moves t i j) :
    i ≤ j := by
  cases terminal <;> simp only [Terminal.Moves] at moves
  case firstOfStrings alternatives =>
    obtain ⟨_, cs, _, _, _, _, rfl⟩ := moves
    exact Nat.le_add_right i cs.length
  all_goals omega

theorem peg_forward (g : Grammar) (t : Input) (r : Rule) (i j : Nat) (e : Option Nat)
    (meaning : Peg g t r i e) (matched : e = some j) : i ≤ j := by
  induction meaning generalizing j with
  | hit id terminal i k moves =>
      cases matched
      exact moves_forward t i k terminal moves
  | sequence_step id r rs i k e _ _ first rest => exact Nat.le_trans (first k rfl) (rest j matched)
  | first_match id r rs i k _ ih => exact ih j matched
  | first_next id r rs i e _ _ _ ih => exact ih j matched
  | many_still id r i k _ _ ih => exact ih j matched
  | some_still id r i k _ _ ih => exact ih j matched
  | many_step id r i k e _ _ _ first rest => exact Nat.le_trans (first k rfl) (rest j matched)
  | some_step id r i k e _ _ _ first rest => exact Nat.le_trans (first k rfl) (rest j matched)
  | proxy id label r i e _ _ ih => exact ih j matched
  | labelled id label r i e _ ih => exact ih j matched
  | optional id r i e _ ih =>
      cases e with
      | none => exact Nat.le_of_eq (Option.some.inj matched)
      | some k =>
          cases matched
          exact ih k rfl
  | sequence_end id i => exact Nat.le_of_eq (Option.some.inj matched)
  | many_end id r i => exact Nat.le_of_eq (Option.some.inj matched)
  | test id r i e =>
      cases e with
      | none => cases matched
      | some k => exact Nat.le_of_eq (Option.some.inj matched)
  | test_not id r i e =>
      cases e with
      | none => exact Nat.le_of_eq (Option.some.inj matched)
      | some k => cases matched
  | action id label verdict i accepted =>
      cases accepted with
      | false => cases matched
      | true => exact Nat.le_of_eq (Option.some.inj matched)
  | miss => cases matched
  | sequence_fail => cases matched
  | first_none => cases matched
  | some_fail => cases matched

theorem char_width_iff (t : Input) (i n : Nat) (accepts : Char → Bool) :
    Terminal.charWidth t i accepts = some n ↔ (∃ c, accepts c = true ∧ Occurs t i [c]) ∧ n = 1 := by
  simp only [Terminal.charWidth, occurs_single]
  cases t.charAt i with
  | none => simp
  | some c => simpa using fun _ => eq_comm

theorem some_char_iff (t : Input) (i : Nat) : (∃ c, Occurs t i [c]) ↔ i < t.length := by
  simp only [occurs_single, Input.charAt, Input.length, ← Option.isSome_iff_exists]
  simp

theorem first_string_iff (t : Input) (i n : Nat) (alternatives : List (List Char)) :
    (Terminal.firstOfStrings alternatives).width t i = some n ↔
      (Terminal.firstOfStrings alternatives).Moves t i (i + n) := by
  simp only [Terminal.Moves, Terminal.width, Option.map_eq_some_iff, List.find?_eq_some_iff_append,
    Bool.not_eq_true', Bool.eq_false_iff, ne_eq, has_at_iff, Nat.add_left_cancel_iff]
  constructor
  · rintro ⟨cs, ⟨here, skipped, rest, shape, absent⟩, rfl⟩
    exact ⟨skipped, cs, rest, shape, absent, here, rfl⟩
  · rintro ⟨skipped, cs, rest, shape, absent, here, rfl⟩
    exact ⟨cs, ⟨here, skipped, rest, shape, absent⟩, rfl⟩

theorem width_iff_moves (t : Input) (i n : Nat) (terminal : Terminal) :
    terminal.width t i = some n ↔ terminal.Moves t i (i + n) := by
  cases terminal with
  | ch c => simp [Terminal.Moves, Terminal.width, char_width_iff]
  | endOfInput => simpa [Terminal.Moves, Terminal.width] using fun _ => eq_comm
  | ignoreCase lower upper => simp [Terminal.Moves, Terminal.width, char_width_iff, or_and_right, exists_or]
  | range low high => simp [Terminal.Moves, Terminal.width, char_width_iff, and_assoc]
  | anyOf chars => simp [Terminal.Moves, Terminal.width, char_width_iff]
  | any => simpa [Terminal.Moves, Terminal.width, some_char_iff] using fun _ => eq_comm
  | empty => simp [Terminal.Moves, Terminal.width, eq_comm]
  | nothing => simp [Terminal.Moves, Terminal.width]
  | string cs => simpa [Terminal.Moves, Terminal.width, has_at_iff] using fun _ => eq_comm
  | firstOfStrings alternatives => exact first_string_iff t i n alternatives

theorem terminal_meaning (g : Grammar) (t : Input) (id i : Nat) (terminal : Terminal) :
    Peg g t (.terminal id terminal) i ((terminal.width t i).map (i + ·)) := by
  cases width : terminal.width t i with
  | some n => exact .hit id terminal i (i + n) ((width_iff_moves t i n terminal).mp width)
  | none =>
      apply Peg.miss
      intro j moves
      obtain ⟨n, rfl⟩ := Nat.exists_eq_add_of_le (moves_forward t i j terminal moves)
      rw [← width_iff_moves, width] at moves
      cases moves

theorem target_live (g : Grammar) (id : Nat) : Binding.target? g.liveBindings id = g.target? id := by
  have same (b : Binding) : decide ((Binding.target? g.bindings b.proxy).any (fun r => g.living.contains r.id) = true ∧
      (b.proxy == id) = true) = ((Binding.target? g.bindings id).any (fun r => g.living.contains r.id) &&
        b.proxy == id) := by
    by_cases proxy : b.proxy = id
    · simp [proxy]
    · simp [beq_eq_false_iff_ne.mpr proxy]
  rw [Binding.target?, Grammar.liveBindings, List.find?_filter, funext same, Grammar.target?]
  cases bound : Binding.target? g.bindings id with
  | none => simp
  | some r =>
      have kept : g.isAlive r = true ↔ r.id ∈ g.living := by simp [Grammar.isAlive]
      by_cases alive : r.id ∈ g.living
      · simpa [Option.filter_some, kept, alive, Binding.target?] using bound
      · simp [Option.filter_some, kept, alive]

namespace Grammar

inductive Reaches (g : Grammar) : Rule → Prop where
  | root : Reaches g g.root
  | child (r c : Rule) : Reaches g r → c ∈ r.children → Reaches g c
  | target (id : Nat) (label : String) (r : Rule) :
      Reaches g (.proxy id label) → g.target? id = some r → Reaches g r

def Plain (g : Grammar) : Rule → Prop
  | .proxy id _ => ∃ r, g.target? id = some r
  | .action _ _ verdict => ∃ accepts : Input → Nat → Bool, ∀ view, verdict view = .ok (accepts view.input view.index)
  | .custom _ _ _ _ _ => False
  | _ => True

end Grammar

end MatchTrace
