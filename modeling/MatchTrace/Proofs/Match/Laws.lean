import MatchTrace.Proofs.Match.Audience
import MatchTrace.Proofs.Match.Course

/-!
Laws of the operators, for all rules that do not look at how deep they run. What such a rule comes to from a position is
the same at every level, so operators that put rules together in different ways can be compared by what the parts come
to.
-/

namespace MatchTrace

set_option autoImplicit false

def View.SameButLevel (v w : View) : Prop :=
  v.input = w.input ∧ v.index = w.index ∧ v.label = w.label ∧ v.ruleClass = w.ruleClass

def SameEnding (part other : Option Trail) : Prop := part.map (·.ending) = other.map (·.ending)

theorem gives_same (part other : Nat → Option Trail) (same : ∀ fuel, SameEnding (part fuel) (other fuel))
    (ending : Except RuleError Verdict) (gives : Gives part ending) : Gives other ending := by
  obtain ⟨fuel, hooks, ran⟩ := gives
  have ended := same fuel
  rw [SameEnding, ran] at ended
  obtain ⟨⟨told, _⟩, went, rfl⟩ := Option.map_eq_some_iff.mp ended.symm
  exact ⟨fuel, told, went⟩

theorem endings_couple : Couples Eq Mode.noted Mode.noted SameEnding where
  exhausted := rfl
  conclude := by
    rintro matched i _ rfl
    rfl
  abort e := rfl
  andThen part other next onward same rest := by
    rcases part with _ | ⟨hooks, ending⟩
    · cases other with
      | none => rfl
      | some trail => cases same
    · rcases other with _ | ⟨hooks', ending'⟩
      · cases same
      · obtain rfl : ending = ending' := Option.some.inj same
        cases ending with
        | error e => rfl
        | ok v =>
            have follows := rest v.matched v.index v.index rfl
            simp only [SameEnding, Mode.noted, Option.bind_some, Trail.andThen, Option.map_map]
            exact follows

section Level

variable (g : Grammar) (t : Input) (top : Rule)

theorem endings_invoke (blind : ∀ r, g.Leads top r → r.Blind View.SameButLevel) :
    (g.pairing top t t Eq View.SameButLevel).Invokes (fun _ _ => True) Mode.noted Mode.noted SameEnding where
  bodies := by
    rintro r _ ⟨rfl, reached⟩
    exact pairing_bodies g top t t Eq _ blind (fun _ _ _ _ _ _ => Pairing.steady_in_place _ rfl) _ reached
  deeper _ _ _ := trivial
  seen := by
    rintro r _ i _ d e ⟨rfl, _⟩ rfl _
    exact ⟨rfl, rfl, rfl, rfl⟩
  enclose r q i j d e part other _ _ _ same := by
    simp only [SameEnding, Mode.noted, Option.map_map]
    exact same

theorem course_level (blind : ∀ r, g.Leads top r → r.Blind View.SameButLevel) (level other : Nat) :
    g.course t level top = g.course t other top := by
  have same (d e i fuel : Nat) := (endings_invoke g t top blind).invoke endings_couple
    (Pairing.aligned_in_place _ rfl rfl) fuel d e trivial top top ⟨rfl, .here⟩ i i rfl
  funext i ending
  apply propext
  exact ⟨gives_same _ _ (same level other i) ending, gives_same _ _ (same other level i) ending⟩

end Level

section Laws

variable (g : Grammar) (t : Input) (r : Rule) (blind : ∀ q, g.Leads r q → q.Blind View.SameButLevel) (level i a b c : Nat)
  (ending : Except RuleError Verdict)

include blind in
theorem some_law : g.course t level (.oneOrMore a r) i ending ↔
    g.course t level (.sequence b [r, .zeroOrMore c r]) i ending := by
  have many : g.course t (level + 1) (.zeroOrMore c r) = (g.course t (level + 1) r).Loop true := by
    funext i ending
    apply propext
    rw [course_repeated g t (level + 1) _ r true i fun _ _ _ => rfl, course_level g t r blind (level + 1 + 1) (level + 1)]
  rw [course_repeated g t level _ r false i fun _ _ _ => rfl, Course.loop_turn _ (course_single g t (level + 1) r),
    course_pair g t level (.sequence b [r, .zeroOrMore c r]) r (.zeroOrMore c r) i true
      (fun _ run _ => in_order_pair run r _ i), many]
  apply iff_of_eq
  congr 1
  funext ok j e
  cases ok with
  | true => exact propext (Course.loop_last _ j e).symm
  | false => rfl

include blind in
theorem many_law : g.course t level (.zeroOrMore a r) i ending ↔
    g.course t level (.optional b (.oneOrMore c r)) i ending := by
  have some : g.course t (level + 1) (.oneOrMore c r) = (g.course t (level + 1) r).Loop false := by
    funext i ending
    apply propext
    rw [course_repeated g t (level + 1) _ r false i fun _ _ _ => rfl, course_level g t r blind (level + 1 + 1) (level + 1)]
  rw [course_repeated g t level _ r true i fun _ _ _ => rfl, Course.loop_spared,
    course_attempt g t level _ (.oneOrMore c r) i (fun _ j => ⟨true, j⟩) fun _ _ _ => rfl, some]

theorem empty_course (j : Nat) : g.course t level (.terminal c .empty) j ending ↔ ending = .ok ⟨true, j⟩ := by
  rw [course_body g t level _ j (fun _ => Mode.noted.conclude ⟨true, j⟩) fun _ _ => rfl, gives_conclude]

theorem optional_law : g.course t level (.optional a r) i ending ↔
    g.course t level (.firstOf b [r, .terminal c .empty]) i ending := by
  rw [course_attempt g t level _ r i (fun _ j => ⟨true, j⟩) fun _ _ _ => rfl,
    course_pair g t level (.firstOf b [r, .terminal c .empty]) r (.terminal c .empty) i false
      fun _ run _ => one_of_pair run r _ i]
  apply iff_of_eq
  congr 1
  funext ok j e
  cases ok with
  | true => rfl
  | false =>
      apply propext
      simp only [if_true, Course.attempt, empty_course, exists_eq_left]
      rfl

include blind in
theorem test_law : g.course t level (.test a r) i ending ↔
    g.course t level (.testNot b (.testNot c r)) i ending := by
  rw [course_attempt g t level _ r i (fun ok _ => ⟨ok, i⟩) fun _ _ _ => rfl,
    course_attempt g t level _ (.testNot c r) i (fun ok _ => ⟨!ok, i⟩) fun _ _ _ => rfl,
    course_level g t r blind (level + 1) (level + 1 + 1)]
  have inside (first : Except RuleError Verdict) := course_attempt g t (level + 1) (.testNot c r) r i
    (fun ok _ => ⟨!ok, i⟩) (fun _ _ _ => rfl) first
  simp only [Course.attempt, inside]
  constructor
  · rintro ⟨e | v, child, onward⟩
    · exact ⟨.error e, ⟨_, child, rfl⟩, onward⟩
    · exact ⟨.ok ⟨!v.matched, i⟩, ⟨_, child, rfl⟩, by simpa using onward⟩
  · rintro ⟨first, ⟨e | v, child, inner⟩, onward⟩
    · obtain rfl : first = .error e := inner
      exact ⟨_, child, onward⟩
    · obtain rfl : first = .ok ⟨!v.matched, i⟩ := inner
      exact ⟨_, child, by simpa using onward⟩

end Laws

section Heard

variable {ε σ : Type} (g : Grammar) (t : Input)

theorem obliged_course (l : Listener ε σ) (obliging : ∀ s h, (l s h).2 = none) (level : Nat) (r : Rule) (i : Nat) (s : σ)
    (ending : Except (RunError ε) Verdict) :
    (∃ fuel u, invoke (.heard l) (g.setting t) fuel level r i s = some (u, ending)) ↔
      ∃ inner, g.course t level r i inner ∧ ending = inner.mapError .rule := by
  simp only [obliging_invoke l obliging, Option.map_eq_some_iff, Prod.mk.injEq]
  constructor
  · rintro ⟨fuel, u, ⟨hooks, inner⟩, noted, -, rfl⟩
    exact ⟨inner, ⟨fuel, hooks, noted⟩, rfl⟩
  · rintro ⟨inner, ⟨fuel, hooks, noted⟩, rfl⟩
    exact ⟨fuel, _, ⟨hooks, inner⟩, noted, rfl, rfl⟩

end Heard

-- Two rules of which one may stand for the other: however deep a run is when it comes to them at position `i`, and
-- whoever listens without failing, if one of them ends then so does the other, with the same verdict or rule error.
def Grammar.Exchange (g : Grammar) (t : Input) (i : Nat) (r q : Rule) : Prop :=
  ∀ (ε σ : Type) (l : Listener ε σ), (∀ s h, (l s h).2 = none) → ∀ (level : Nat) (s : σ)
    (ending : Except (RunError ε) Verdict),
    (∃ fuel u, invoke (.heard l) (g.setting t) fuel level r i s = some (u, ending)) ↔
      ∃ fuel u, invoke (.heard l) (g.setting t) fuel level q i s = some (u, ending)

theorem course_exchange (g : Grammar) (t : Input) (i : Nat) (r q : Rule)
    (same : ∀ level ending, g.course t level r i ending ↔ g.course t level q i ending) : g.Exchange t i r q := by
  intro ε σ l obliging level s ending
  simp only [obliged_course g t l obliging, same]

/-- Laws of the operators, at every position of every text, for a rule that leads to no body that looks at its level:
once or more is once and then any number of times; any number of times is once or more, if at all; an option is a choice
with the empty rule; a test is a test that a test fails. -/
theorem operators_obey_laws (g : Grammar) (t : Input) (r : Rule)
    (blind : ∀ q, g.Leads r q → q.Blind View.SameButLevel) (i a b c : Nat) :
    g.Exchange t i (.oneOrMore a r) (.sequence b [r, .zeroOrMore c r]) ∧
    g.Exchange t i (.zeroOrMore a r) (.optional b (.oneOrMore c r)) ∧
    g.Exchange t i (.optional a r) (.firstOf b [r, .terminal c .empty]) ∧
    g.Exchange t i (.test a r) (.testNot b (.testNot c r)) :=
  ⟨course_exchange g t i _ _ fun level ending => some_law g t r blind level i a b c ending,
    course_exchange g t i _ _ fun level ending => many_law g t r blind level i a b c ending,
    course_exchange g t i _ _ fun level ending => optional_law g t r level i a b c ending,
    course_exchange g t i _ _ fun level ending => test_law g t r blind level i a b c ending⟩

namespace Demo

-- A check that is passed at even positions, and that cannot be made at the start of the text.
def even : Rule :=
  .action 6 "Even" fun v => if v.index = 0 then .error ⟨"nothing read", []⟩ else .ok (v.index % 2 == 0)

def evenly : Rule := .firstOf 0 [.sequence 1 [ch 2 '(', .proxy 3 "Evenly", ch 4 ')'], even]

def evenNest : Grammar where
  root := evenly
  bindings := [⟨3, evenly⟩]

end Demo

theorem evenly_blind (q : Rule) (reached : Demo.evenNest.Leads Demo.evenly q) : q.Blind View.SameButLevel := by
  have target : Demo.evenNest.target? 3 = some Demo.evenly := rfl
  have known := leads_within Demo.evenNest
    [Demo.evenly, .sequence 1 [Demo.ch 2 '(', .proxy 3 "Evenly", Demo.ch 4 ')'], Demo.ch 2 '(', .proxy 3 "Evenly",
      Demo.ch 4 ')', Demo.even]
    Demo.evenly (by simp) (by simp [Demo.evenly, Demo.even, Demo.ch, Rule.children]) (by
      simp only [Demo.evenly, Demo.even, Demo.ch, List.mem_cons, reduceCtorEq, Rule.proxy.injEq, List.not_mem_nil,
        false_or, or_false]
      rintro id label r ⟨rfl, rfl⟩ bound
      exact .inl (Option.some.inj (bound.symm.trans target))) q reached
  simp only [List.mem_cons, List.not_mem_nil, or_false] at known
  rcases known with rfl | rfl | rfl | rfl | rfl | rfl
  case inr.inr.inr.inr.inr =>
    rintro v w ⟨-, index, -, -⟩
    simp only [index]
  all_goals exact trivial

-- The check matches without moving at the end of the text, and raises an error at its start.
theorem even_nest_obeys_laws :
    (∀ q, Demo.evenNest.Leads Demo.evenly q → q.Blind View.SameButLevel) ∧
      (∃ fuel u, invoke (.heard (Listener.deaf (ε := Unit))) (Demo.evenNest.setting (.ofString "(())")) fuel 0
        (.sequence 11 [Demo.evenly, .zeroOrMore 12 Demo.evenly]) 0 () = some (u, .ok ⟨true, 4⟩)) ∧
      ∃ fuel u, invoke (.heard (Listener.deaf (ε := Unit))) (Demo.evenNest.setting (.ofString "")) fuel 0
        (.testNot 11 (.testNot 12 Demo.evenly)) 0 () =
          some (u, .error (.rule (.actionFailed "Even" ⟨"nothing read", []⟩))) := by
  have some_of_nest := (operators_obey_laws Demo.evenNest (.ofString "(())") Demo.evenly evenly_blind 0 10 11 12).1
  have test_of_start := (operators_obey_laws Demo.evenNest (.ofString "") Demo.evenly evenly_blind 0 10 11 12).2.2.2
  exact ⟨evenly_blind, (some_of_nest Unit Unit Listener.deaf (fun _ _ => rfl) 0 () _).mp ⟨12, (), rfl⟩,
    (test_of_start Unit Unit Listener.deaf (fun _ _ => rfl) 0 () _).mp ⟨12, (), rfl⟩⟩

end MatchTrace
