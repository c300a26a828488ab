import MatchTrace.Demo
import MatchTrace.Proofs.Match.Adequacy
import MatchTrace.Proofs.Match.Advance
import MatchTrace.Proofs.Match.Audience

/-!
The places of the invocations of a run. Each begins where the one around it stands, which is where the last success
inside of that one ended, so an attempt that failed moves nobody. This holds of every run, also of one that a listener
stops, and so of any part from the beginning of one that would go on for ever.
-/

namespace MatchTrace

set_option autoImplicit false

-- An invocation that is open, and how those ended that it made, the latest first.
structure Visit where
  call : Call
  ended : List Verdict := []

namespace Visit

def place (x : Visit) : Nat := ((x.ended.find? (·.matched)).map (·.index)).getD x.call.index

def placeOf : List Visit → Nat
  | [] => 0
  | x :: _ => x.place

def leave (v : Verdict) : List Visit → List Visit
  | [] => []
  | x :: outer => { x with ended := v :: x.ended } :: outer

theorem place_leave (x : Visit) (v : Verdict) :
    place { x with ended := v :: x.ended } = v.resume x.place := by
  cases matched : v.matched with
  | true => simp [place, Verdict.resume, matched]
  | false => simp [place, Verdict.resume, matched]

-- The hook that may come next where these invocations are open, innermost first, and those that are open after it.
inductive Follows (top : Nat) : List Visit → Hook → List Visit → Prop where
  | enter (opened : List Visit) (c : Call) :
      c.level = opened.length → c.index = placeOf opened → c.index ≤ top →
      Follows top opened (.beforeMatch c) ({ call := c } :: opened)
  | exit (x : Visit) (outer : List Visit) (v : Verdict) :
      x.call.index ≤ v.index → v.index ≤ top → (x.call.rule.looksAhead = true → v.index = x.call.index) →
      Follows top (x :: outer) (v.closing x.call) (leave v outer)

inductive Walk (top : Nat) : List Visit → List Hook → List Visit → Prop where
  | nil (opened : List Visit) : Walk top opened [] opened
  | cons (opened after left : List Visit) (h : Hook) (hs : List Hook) :
      Follows top opened h after → Walk top after hs left → Walk top opened (h :: hs) left

theorem walk_append (top : Nat) (opened middle left : List Visit) (hs ks : List Hook)
    (first : Walk top opened hs middle) (second : Walk top middle ks left) : Walk top opened (hs ++ ks) left := by
  induction first with
  | nil => exact second
  | cons opened after _ h hs follows _ ih => exact .cons opened after left h _ follows (ih second)

theorem follows_entry (top : Nat) (opened after : List Visit) (h : Hook) (follows : Follows top opened h after)
    (c : Call) (same : h = .beforeMatch c) : c.index ≤ top := by
  cases follows with
  | enter _ d _ _ inside =>
      cases same
      exact inside
  | exit x outer v _ _ _ =>
      rcases v with ⟨_ | _, index⟩
      · cases same
      · cases same

theorem walk_entry (top : Nat) (opened left : List Visit) (hooks : List Hook) (walk : Walk top opened hooks left)
    (c : Call) (mem : .beforeMatch c ∈ hooks) : c.index ≤ top := by
  induction walk with
  | nil => cases mem
  | cons opened after left h hs follows _ ih =>
      rcases List.mem_cons.mp mem with same | mem
      · exact follows_entry top opened after h follows c same.symm
      · exact ih mem

end Visit

section Walks

variable {ε σ α β : Type} (l : Listener ε σ) (top : Nat)

-- If the part of a run comes to an end, one way or the other, the hooks that were written down in it walk on from
-- the invocations that were open; if it comes to a value, the value and what is open then are such.
def Walks (opened : List Visit) (part : Heard ε (List Hook × σ) α) (such : α → List Visit → Prop) : Prop :=
  ∀ stream s whole t ending, part (stream, s) = some ((whole, t), ending) →
    ∃ hooks left, whole = stream ++ hooks ∧ Visit.Walk top opened hooks left ∧ ∀ x, ending = .ok x → such x left

theorem walks_give (opened : List Visit) (such : α → List Visit → Prop) (x : α) (holds : such x opened) :
    Walks top opened (Heard.give x : Heard ε (List Hook × σ) α) such := by
  intro stream s whole t ending heard
  cases heard
  refine ⟨[], opened, (List.append_nil _).symm, .nil opened, fun y same => ?_⟩
  cases same
  exact holds

theorem walks_stop (opened : List Visit) (such : α → List Visit → Prop) (e : RunError ε) :
    Walks top opened (Heard.stop e : Heard ε (List Hook × σ) α) such := by
  intro stream s whole t ending heard
  cases heard
  exact ⟨[], opened, (List.append_nil _).symm, .nil opened, fun y same => nomatch same⟩

theorem tell_noted (h : Hook) (stream whole : List Hook) (s t : σ) (ending : Except (RunError ε) Unit)
    (heard : Heard.tell (.both .noting l) h (stream, s) = some ((whole, t), ending)) : whole = stream ++ [h] := by
  rcases answer : l s h with ⟨u, _ | e⟩
  · simp only [Heard.tell, Listener.both, Listener.noting, answer, Option.or_none] at heard
    cases heard
    rfl
  · simp only [Heard.tell, Listener.both, Listener.noting, answer, Option.none_or] at heard
    cases heard
    rfl

theorem walks_tell (opened after : List Visit) (h : Hook) (follows : Visit.Follows top opened h after) :
    Walks top opened (Heard.tell (.both .noting l) h) fun _ left => left = after := by
  intro stream s whole t ending heard
  exact ⟨[h], after, tell_noted l h stream whole s t ending heard, .cons _ _ _ h [] follows (.nil after),
    fun _ _ => rfl⟩

theorem walks_then (opened : List Visit) (part : Heard ε (List Hook × σ) α) (next : α → Heard ε (List Hook × σ) β)
    (midway : α → List Visit → Prop) (such : β → List Visit → Prop) (first : Walks top opened part midway)
    (rest : ∀ x left, midway x left → Walks top left (next x) such) : Walks top opened (part.andThen next) such := by
  intro stream s whole t ending heard
  rcases heard_then_cases part next _ _ ending heard with ⟨e, front, rfl⟩ | ⟨⟨between, u⟩, x, front, back⟩
  · obtain ⟨hooks, left, told, walk, -⟩ := first stream s whole t _ front
    exact ⟨hooks, left, told, walk, fun y same => nomatch same⟩
  · obtain ⟨hooks, middle, rfl, walk, holds⟩ := first stream s between u _ front
    obtain ⟨more, left, rfl, walk', holds'⟩ := rest x middle (holds x rfl) _ u whole t ending back
    exact ⟨hooks ++ more, left, List.append_assoc _ _ _, Visit.walk_append top _ _ _ hooks more walk walk', holds'⟩

def Visit.Left (top : Nat) (opened : List Visit) (start : Nat) (v : Verdict) (left : List Visit) : Prop :=
  left = leave v opened ∧ start ≤ v.index ∧ v.index ≤ top

def Visit.Stays (c : Call) (outer : List Visit) (low high : Nat) (v : Verdict) (left : List Visit) : Prop :=
  (∃ ended, left = ⟨c, ended⟩ :: outer) ∧ low ≤ v.index ∧ v.index ≤ high

theorem walks_advances (c : Call) (outer : List Visit) :
    (Mode.heard (.both .noting l)).Advances top (fun ended => Visit.place ⟨c, ended⟩)
      (fun ended part => Walks top (⟨c, ended⟩ :: outer) part
        (Visit.Left top (⟨c, ended⟩ :: outer) (Visit.place ⟨c, ended⟩)))
      (fun low high ended part => Walks top (⟨c, ended⟩ :: outer) part (Visit.Stays c outer low high)) where
  exhausted low high ended stream s whole t ending heard := nomatch heard
  conclude low high ended v ahead below := walks_give top _ _ v ⟨⟨ended, rfl⟩, ahead, below⟩
  abort low high ended e := walks_stop top _ _ _
  andThen low high ended part next first others := by
    apply walks_then top _ _ _ _ _ first
    rintro v left ⟨rfl, ahead, below⟩
    exact others (v :: ended) v ahead below (Visit.place_leave ⟨c, ended⟩ v)

theorem walks_enclose (c : Call) (opened : List Visit) (level : c.level = opened.length)
    (start : c.index = Visit.placeOf opened) (inside : c.index ≤ top)
    (part : Unit → Heard ε (List Hook × σ) Verdict)
    (body : Walks top ({ call := c } :: opened) (part ())
      (Visit.Stays c opened c.index (if c.rule.looksAhead then c.index else top))) :
    Walks top opened ((Mode.heard (.both .noting l)).enclose c part) (Visit.Left top opened c.index) := by
  apply walks_then top _ _ _ _ _ (walks_tell l top _ _ _ (.enter opened c level start inside))
  rintro _ _ rfl
  apply walks_then top _ _ _ _ _ body
  rintro v _ ⟨⟨ended, rfl⟩, ahead, below⟩
  have within : v.index ≤ top ∧ (c.rule.looksAhead = true → v.index = c.index) := by
    cases looks : c.rule.looksAhead with
    | true =>
        rw [looks, if_pos rfl] at below
        exact ⟨Nat.le_trans below inside, fun _ => Nat.le_antisymm below ahead⟩
    | false =>
        rw [looks, if_neg Bool.false_ne_true] at below
        exact ⟨below, fun other => nomatch other⟩
  apply walks_then top _ _ _ _ _ (walks_tell l top _ _ _ (.exit ⟨c, ended⟩ opened v ahead within.1 within.2))
  rintro _ _ rfl
  exact walks_give top _ _ v ⟨rfl, ahead, within.1⟩

end Walks

section Runs

variable {ε σ : Type} (l : Listener ε σ) (g : Grammar) (builtIn : g.BuiltIn) (input : Input)

include builtIn

theorem walks_invoke (fuel : Nat) (opened : List Visit) (r : Rule) (reached : g.Reaches r)
    (inside : Visit.placeOf opened ≤ input.length + 1) :
    Walks (input.length + 1) opened
      (invoke (.heard (.both .noting l)) (g.setting input) fuel opened.length r (Visit.placeOf opened))
      (Visit.Left (input.length + 1) opened (Visit.placeOf opened)) := by
  induction fuel generalizing opened r with
  | zero => exact fun stream s whole t ending heard => nomatch heard
  | succ fuel ih =>
      apply walks_enclose l _ ⟨r, Visit.placeOf opened, opened.length⟩ opened rfl rfl inside
      exact advances_body input (walks_advances l _ ⟨r, Visit.placeOf opened, opened.length⟩ opened) _ g builtIn fuel _
        (fun child reached ended inside => ih (⟨_, ended⟩ :: opened) child reached inside) [] inside r reached

theorem walks_root (fuel : Nat) :
    Walks (input.length + 1) [] (g.invokeRoot (.heard (.both .noting l)) fuel input) fun _ left => left = [] := by
  intro stream s whole t ending heard
  obtain ⟨hooks, left, told, walk, ends⟩ :=
    walks_invoke l g builtIn input fuel [] g.root .root (Nat.zero_le _) stream s whole t ending heard
  exact ⟨hooks, left, told, walk, fun v same => (ends v same).1⟩

/-- Whatever a listener is told of a run of built-in rules, and wherever it stops the run: between the hooks for the
parse, every invocation begins where the last success of the one around it ended, or at the start of that one. It ends
no earlier than it began and at most one past the text, and a test where it began. So whatever terminal is tried at the
start of an invocation, it moves no further than one past the text either, which is always a word. -/
theorem built_in_runs_keep_their_places (fuel : Nat) (s t : σ) (stream : List Hook)
    (outcome : Except (RunError ε) ParseResult)
    (heard : g.heardWith fuel input (.both .noting l) ([], s) = some ((stream, t), outcome)) :
    ∃ hooks left last, stream = .beforeParse ⟨g.root, 0, 0⟩ input :: (hooks ++ last) ∧
      Visit.Walk (input.length + 1) [] hooks left ∧ (last ≠ [] → left = [] ∧ ∃ result, last = [.afterParse result]) ∧
      ∀ c, .beforeMatch c ∈ hooks → ∀ (terminal : Terminal) n, terminal.width input c.index = some n →
        c.index + n ≤ input.length + 1 ∧
          (input.length < Decimal.maxWord → clampIndex (c.index + n) = c.index + n) := by
  have moves (hooks : List Hook) (left : List Visit) (walk : Visit.Walk (input.length + 1) [] hooks left) (c : Call)
      (mem : .beforeMatch c ∈ hooks) (terminal : Terminal) (n : Nat) (width : terminal.width input c.index = some n) :
      c.index + n ≤ input.length + 1 ∧
        (input.length < Decimal.maxWord → clampIndex (c.index + n) = c.index + n) := by
    have inside := Visit.walk_entry _ _ _ hooks walk c mem
    have below := Nat.le_trans (width_within input c.index n terminal width)
      (Nat.max_le.mpr ⟨inside, Nat.le_refl _⟩)
    exact ⟨below, fun room => Nat.min_eq_left (Nat.le_trans below room)⟩
  rcases heard_then_cases _ _ _ _ outcome heard with ⟨e, first, -⟩ | ⟨⟨begun, u⟩, _, first, heard⟩
  · obtain rfl := tell_noted l _ _ _ _ _ _ first
    exact ⟨[], [], [], rfl, .nil [], fun some => absurd rfl some, moves [] [] (.nil [])⟩
  obtain rfl := tell_noted l _ _ _ _ _ _ first
  rcases heard_then_cases _ _ _ _ outcome heard with ⟨e, inner, -⟩ | ⟨⟨told, w⟩, v, inner, heard⟩
  · obtain ⟨hooks, left, rfl, walk, -⟩ := walks_root l g builtIn input fuel _ u stream t _ inner
    exact ⟨hooks, left, [], by simp, walk, fun some => absurd rfl some, moves hooks left walk⟩
  obtain ⟨hooks, left, rfl, walk, ends⟩ := walks_root l g builtIn input fuel _ u told w _ inner
  obtain rfl := ends v rfl
  have last : stream = .beforeParse ⟨g.root, 0, 0⟩ input :: (hooks ++ [.afterParse (v.result input.length)]) := by
    rcases heard_then_cases _ _ _ _ outcome heard with ⟨e, final, -⟩ | ⟨⟨all, z⟩, _, final, given⟩
    · simpa using tell_noted l _ _ _ _ _ _ final
    · cases given
      simpa using tell_noted l _ _ _ _ _ _ final
  exact ⟨hooks, [], _, last, walk, fun _ => ⟨rfl, _, rfl⟩, moves hooks [] walk⟩

end Runs

namespace Demo

-- A failed attempt that got somewhere, a test under a name of its own, and a rule that runs past the end of the text.
def peek : Grammar where
  root := .sequence 0 [.optional 1 (.sequence 2 [ch 3 'a', ch 4 'c']), .labelled 5 "Ahead" (.test 6 (ch 7 'a')),
    ch 8 'a', .terminal 9 .endOfInput, .optional 10 (.terminal 11 .any)]

end Demo

theorem peek_built_in : Demo.peek.BuiltIn := by
  intro r reached
  have known := reaches_within Demo.peek
    [Demo.peek.root, .optional 1 (.sequence 2 [Demo.ch 3 'a', Demo.ch 4 'c']),
      .sequence 2 [Demo.ch 3 'a', Demo.ch 4 'c'], Demo.ch 3 'a', Demo.ch 4 'c',
      .labelled 5 "Ahead" (.test 6 (Demo.ch 7 'a')), .test 6 (Demo.ch 7 'a'), Demo.ch 7 'a', Demo.ch 8 'a',
      .terminal 9 .endOfInput, .optional 10 (.terminal 11 .any), .terminal 11 .any]
    List.mem_cons_self (by simp [Demo.peek, Demo.ch, Rule.children]) (by simp [Demo.peek, Demo.ch]) r reached
  simp only [List.mem_cons, List.not_mem_nil, or_false] at known
  rcases known with rfl | rfl | rfl | rfl | rfl | rfl | rfl | rfl | rfl | rfl | rfl | rfl
  all_goals exact id

theorem peek_keeps_its_places :
    ∃ stream hooks, Demo.peek.BuiltIn ∧
      Demo.peek.heardWith 5 (.ofString "a") (.both .noting (Listener.deaf (ε := Unit))) ([], ()) =
        some ((stream, ()), .ok ⟨true, 2, 1⟩) ∧
      (∃ last, stream = .beforeParse ⟨Demo.peek.root, 0, 0⟩ (.ofString "a") :: (hooks ++ last)) ∧
      ∃ left, Visit.Walk 2 [] hooks left := by
  have evaluated : (Demo.peek.heardWith 5 (.ofString "a") (.both .noting (Listener.deaf (ε := Unit))) ([], ())).map
      (fun r => r.2.toOption) = some (some ⟨true, 2, 1⟩) := by decide +kernel
  rcases heard : Demo.peek.heardWith 5 (.ofString "a") (.both .noting (Listener.deaf (ε := Unit))) ([], ())
    with _ | ⟨⟨stream, u⟩, outcome⟩
  · rw [heard] at evaluated
    cases evaluated
  rw [heard] at evaluated
  obtain ⟨hooks, left, last, told, walk, -, -⟩ := built_in_runs_keep_their_places Listener.deaf Demo.peek peek_built_in
    (.ofString "a") 5 () u stream outcome heard
  cases outcome with
  | error e => cases evaluated
  | ok result =>
      obtain rfl := Option.some.inj (Option.some.inj evaluated)
      exact ⟨stream, hooks, peek_built_in, rfl, ⟨last, told⟩, left, walk⟩

end MatchTrace
