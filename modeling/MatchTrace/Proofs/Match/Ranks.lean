import MatchTrace.Proofs.Match.Adequacy
import MatchTrace.Proofs.Match.Words

/-!
Runs that come to an end. If ranks fall from every rule to the rules its body may run before the index has moved,
a run goes down in rank as long as it stands still, and it can move on no further than one past the text.
-/

namespace MatchTrace

set_option autoImplicit false

variable {ε σ : Type}

namespace Grammar

def Errorless (g : Grammar) : Rule → Prop
  | .proxy id _ => ∃ r, g.target? id = some r
  | .action _ _ verdict => ∀ view, ∃ matched, verdict view = .ok matched
  | .custom _ _ _ _ _ => False
  | _ => True

def Advances (g : Grammar) (t : Input) (r : Rule) : Prop :=
  ∀ fuel level i trail v, invoke .noted (g.setting t) fuel level r i = some trail → trail.ending = .ok v →
    v.matched = true → i < v.index

-- Ranks that fall from parent to child, but for elements of a sequence behind one that always moves the index.
structure Ranked (g : Grammar) (t : Input) (rank : Rule → Nat) : Prop where
  child : ∀ r c, g.Reaches r → (∀ id rs, r ≠ .sequence id rs) → c ∈ r.children → rank c < rank r
  target : ∀ id label r, g.Reaches (.proxy id label) → g.target? id = some r → rank r < rank (.proxy id label)
  element : ∀ id before c rest, g.Reaches (.sequence id (before ++ c :: rest)) →
    rank c < rank (.sequence id (before ++ c :: rest)) ∨ ∃ b ∈ before, g.Advances t b

end Grammar

def Between (base : Nat) (t : Input) (e : Option Nat) : Prop := ∀ j, e = some j → base ≤ j ∧ j ≤ t.length + 1

-- With enough fuel, the part of a run comes to the end `e`, which is not in front of `base` and at most one past
-- the text.
def Halts (t : Input) (base : Nat) (part : Nat → Option Trail) : Prop :=
  ∃ e fuel, Between base t e ∧ ∀ more, fuel ≤ more → Comes (part more) e

section Parts

variable (t : Input) (run : Nat → Attempt (Option Trail))

theorem halts_conclude (base : Nat) (v : Verdict) (within : v.matched = true → base ≤ v.index ∧ v.index ≤ t.length + 1) :
    Halts t base fun _ => Mode.noted.conclude v := by
  refine ⟨v.end?, 0, ?_, fun _ _ => comes_conclude v⟩
  intro j same
  rcases v with ⟨_ | _, index⟩
  · cases same
  · cases same
    exact within rfl

theorem between_resume (i : Nat) (here : i ≤ t.length + 1) (e : Option Nat) (within : Between i t e) :
    i ≤ e.getD i ∧ e.getD i ≤ t.length + 1 := by
  cases e with
  | none => exact ⟨Nat.le_refl i, here⟩
  | some j => exact within j rfl

theorem halts_attempt (base : Nat) (r : Rule) (i : Nat) (here : i ≤ t.length + 1)
    (next : Nat → Bool → Nat → Option Trail) (child : Halts t i fun more => run more r i)
    (rest : ∀ e, (∃ more, Comes (run more r i) e) → i ≤ e.getD i → e.getD i ≤ t.length + 1 →
      Halts t base fun more => next more e.isSome (e.getD i)) :
    Halts t base fun more => Mode.noted.attempt (run more) r i (next more) := by
  obtain ⟨e, first, within, ran⟩ := child
  obtain ⟨onward, there⟩ := between_resume t i here e within
  obtain ⟨f, second, within', went⟩ := rest e ⟨first, ran first (Nat.le_refl first)⟩ onward there
  refine ⟨f, max first second, within', fun more bound => ?_⟩
  exact comes_attempt (run more) r i _ e f (ran more (by omega)) (went more (by omega))

theorem halts_one_of (rs : List Rule) (i : Nat) (here : i ≤ t.length + 1)
    (children : ∀ r ∈ rs, Halts t i fun more => run more r i) :
    Halts t i fun more => Mode.noted.oneOf (run more) rs i := by
  induction rs with
  | nil => exact halts_conclude t i ⟨false, i⟩ fun matched => by cases matched
  | cons r rs ih =>
      apply halts_attempt t run i r i here _ (children r List.mem_cons_self)
      intro e _ onward there
      cases e with
      | none => exact ih fun r mem => children r (List.mem_cons_of_mem _ mem)
      | some j => exact halts_conclude t i ⟨true, j⟩ fun _ => ⟨onward, there⟩

-- A repetition goes round only if the index moves, and there is only so much text.
theorem repeated_comes (base : Nat) (r : Rule)
    (child : ∀ j, base ≤ j → j ≤ t.length + 1 → Halts t j fun more => run more r j) (enough : Bool) (j : Nat)
    (ahead : base ≤ j) (here : j ≤ t.length + 1) :
    ∃ e fuel, Between base t e ∧ ∀ more count, fuel ≤ more → fuel ≤ count →
      Comes (Mode.noted.repeated (run more) r count enough j) e := by
  induction left : t.length + 1 - j using Nat.strongRecOn generalizing enough j with
  | ind left ih =>
      obtain ⟨e, first, within, ran⟩ := child j ahead here
      have once (f : Option Nat) (more count : Nat) (bound : first ≤ more)
          (rest : Comes (if e.isSome then if e.getD j = j then Mode.noted.succeed (e.getD j)
            else Mode.noted.repeated (run more) r count true (e.getD j) else Mode.noted.conclude ⟨enough, e.getD j⟩) f) :
          Comes (Mode.noted.repeated (run more) r (count + 1) enough j) f :=
        comes_attempt (run more) r j _ e f (ran more bound) rest
      cases e with
      | none =>
          refine ⟨(⟨enough, j⟩ : Verdict).end?, first + 1, ?_, fun more count enough' rounds => ?_⟩
          · intro k same
            cases enough with
            | false => cases same
            | true =>
                cases same
                exact ⟨ahead, here⟩
          · obtain ⟨count, rfl⟩ : ∃ n, count = n + 1 := ⟨count - 1, by omega⟩
            exact once _ more count (by omega) (comes_conclude ⟨enough, j⟩)
      | some k =>
          obtain ⟨onward, there⟩ := within k rfl
          by_cases still : k = j
          · subst still
            refine ⟨some k, first + 1, ?_, fun more count enough' rounds => ?_⟩
            · intro _ same
              cases same
              exact ⟨ahead, here⟩
            · obtain ⟨count, rfl⟩ : ∃ n, count = n + 1 := ⟨count - 1, by omega⟩
              apply once _ more count (by omega)
              simp only [Option.isSome_some, if_true, Option.getD_some]
              exact comes_conclude ⟨true, k⟩
          · obtain ⟨f, second, within', went⟩ := ih (t.length + 1 - k) (by omega) true k (by omega) there rfl
            refine ⟨f, max first (second + 1), within', fun more count enough' rounds => ?_⟩
            obtain ⟨count, rfl⟩ : ∃ n, count = n + 1 := ⟨count - 1, by omega⟩
            apply once f more count (by omega)
            simp only [Option.isSome_some, if_true, Option.getD_some, if_neg still]
            exact went more count (by omega) (by omega)

theorem halts_repeated (r : Rule) (i : Nat) (here : i ≤ t.length + 1)
    (child : ∀ j, i ≤ j → j ≤ t.length + 1 → Halts t j fun more => run more r j) (enough : Bool) :
    Halts t i fun more => Mode.noted.repeated (run more) r more enough i := by
  obtain ⟨e, fuel, within, comes⟩ := repeated_comes t run i r child enough i (Nat.le_refl i) here
  exact ⟨e, fuel, within, fun more bound => comes more more bound bound⟩

end Parts

section Ranked

variable (g : Grammar) (t : Input) (rank : Rule → Nat) (ranked : g.Ranked t rank)
  (errorless : ∀ r, g.Reaches r → g.Errorless r)

-- What is known of the invocations that a body opens, if all of lower rank that start where it stands halt, and
-- all that start further on.
structure Grammar.Below (level i bound : Nat) : Prop where
  near : ∀ c, g.Reaches c → rank c < bound → Halts t i fun more => invoke .noted (g.setting t) more level c i
  far : ∀ c j, g.Reaches c → i < j → j ≤ t.length + 1 →
    Halts t j fun more => invoke .noted (g.setting t) more level c j

variable (level i bound : Nat) (here : i ≤ t.length + 1) (below : g.Below t rank level i bound)

include below in
theorem halts_below (c : Rule) (j : Nat) (reached : g.Reaches c) (lower : rank c < bound) (onward : i ≤ j)
    (there : j ≤ t.length + 1) : Halts t j fun more => invoke .noted (g.setting t) more level c j := by
  rcases Nat.eq_or_lt_of_le onward with rfl | further
  · exact below.near c reached lower
  · exact below.far c j reached further there

include ranked below in
theorem halts_child (r c : Rule) (reached : g.Reaches r) (lower : rank r ≤ bound)
    (shape : ∀ id rs, r ≠ .sequence id rs) (mem : c ∈ r.children) (j : Nat) (onward : i ≤ j) (there : j ≤ t.length + 1) :
    Halts t j fun more => invoke .noted (g.setting t) more level c j :=
  halts_below g t rank level i bound below c j (.child r c reached mem)
    (Nat.lt_of_lt_of_le (ranked.child r c reached shape mem) lower) onward there

theorem advances_comes (r : Rule) (advances : g.Advances t r) (more j k : Nat)
    (comes : Comes (invoke .noted (g.setting t) more level r j) (some k)) : j < k := by
  obtain ⟨hooks, ⟨_ | _, index⟩, ran, same⟩ := comes
  · cases same
  · cases same
    exact advances more level j _ _ ran rfl rfl

include ranked below in
theorem halts_in_order (id : Nat) (before rs : List Rule) (reached : g.Reaches (.sequence id (before ++ rs)))
    (lower : rank (.sequence id (before ++ rs)) ≤ bound) (j : Nat) (onward : i ≤ j) (there : j ≤ t.length + 1)
    (still : j = i → ∀ b ∈ before, ¬ g.Advances t b) :
    Halts t i fun more => Mode.noted.inOrder (invoke .noted (g.setting t) more level) rs j := by
  induction rs generalizing before j with
  | nil => exact halts_conclude t i ⟨true, j⟩ fun _ => ⟨onward, there⟩
  | cons r rs ih =>
      have element : g.Reaches r := .child _ r reached (by simp [Rule.children])
      have child : Halts t j fun more => invoke .noted (g.setting t) more level r j := by
        rcases Nat.eq_or_lt_of_le onward with rfl | further
        · rcases ranked.element id before r rs reached with less | ⟨b, mem, advances⟩
          · exact below.near r element (Nat.lt_of_lt_of_le less lower)
          · exact absurd advances (still rfl b mem)
        · exact below.far r j element further there
      apply halts_attempt t _ i r j there _ child
      rintro e ⟨more, comes⟩ moved there'
      cases e with
      | none => exact halts_conclude t i ⟨false, j⟩ fun matched => by cases matched
      | some k =>
          have shape : before ++ r :: rs = (before ++ [r]) ++ rs := by simp
          apply ih (before ++ [r]) (shape ▸ reached) (shape ▸ lower) k (Nat.le_trans onward moved) there'
          rintro rfl b mem advances
          rcases List.mem_append.mp mem with mem | mem
          · exact still (Nat.le_antisymm moved onward) b mem advances
          · rw [List.mem_singleton.mp mem] at advances
            exact absurd (advances_comes g t level r advances more j _ comes) (Nat.not_lt_of_le onward)

include ranked errorless here below in
theorem halts_body (view : Nat → View) : ∀ r, g.Reaches r → rank r ≤ bound →
    Halts t i fun more => body .noted (g.setting t) more (invoke .noted (g.setting t) more level) view r i
  | .terminal id terminal, _, _ => by
      simp only [body, Grammar.setting]
      cases width : terminal.width t i with
      | none => exact halts_conclude t i ⟨false, i⟩ fun matched => by cases matched
      | some n =>
          have within := width_within t i n terminal width
          exact halts_conclude t i ⟨true, i + n⟩ fun _ => ⟨Nat.le_add_right i n, by dsimp only; omega⟩
  | .sequence id rs, reached, lower =>
      halts_in_order g t rank ranked level i bound below id [] rs reached lower i (Nat.le_refl i) here
        fun _ b mem => by cases mem
  | .firstOf id rs, reached, lower =>
      halts_one_of t _ rs i here fun c mem =>
        halts_child g t rank ranked level i bound below _ c reached lower (by simp) mem i (Nat.le_refl i) here
  | .optional id r, reached, lower => by
      apply halts_attempt t _ i r i here _
        (halts_child g t rank ranked level i bound below _ r reached lower (by simp) List.mem_cons_self i (Nat.le_refl i) here)
      exact fun e _ onward there => halts_conclude t i ⟨true, e.getD i⟩ fun _ => ⟨onward, there⟩
  | .zeroOrMore id r, reached, lower =>
      halts_repeated t _ r i here
        (halts_child g t rank ranked level i bound below _ r reached lower (by simp) List.mem_cons_self) true
  | .oneOrMore id r, reached, lower =>
      halts_repeated t _ r i here
        (halts_child g t rank ranked level i bound below _ r reached lower (by simp) List.mem_cons_self) false
  | .test id r, reached, lower => by
      apply halts_attempt t _ i r i here _
        (halts_child g t rank ranked level i bound below _ r reached lower (by simp) List.mem_cons_self i (Nat.le_refl i) here)
      exact fun e _ _ _ => halts_conclude t i ⟨e.isSome, i⟩ fun _ => ⟨Nat.le_refl i, here⟩
  | .testNot id r, reached, lower => by
      apply halts_attempt t _ i r i here _
        (halts_child g t rank ranked level i bound below _ r reached lower (by simp) List.mem_cons_self i (Nat.le_refl i) here)
      exact fun e _ _ _ => halts_conclude t i ⟨!e.isSome, i⟩ fun _ => ⟨Nat.le_refl i, here⟩
  | .action id label verdict, reached, _ => by
      obtain ⟨matched, answer⟩ := errorless _ reached (view i)
      simp only [body, answer]
      exact halts_conclude t i ⟨matched, i⟩ fun _ => ⟨Nat.le_refl i, here⟩
  | .proxy id label, reached, lower => by
      obtain ⟨r, bound'⟩ := errorless _ reached
      have less := ranked.target id label r reached bound'
      simp only [body, Grammar.setting, target_live, bound']
      apply halts_attempt t _ i r i here _
        (below.near r (.target id label r reached bound') (Nat.lt_of_lt_of_le less lower))
      exact fun e _ onward there => halts_conclude t i ⟨e.isSome, e.getD i⟩ fun _ => ⟨onward, there⟩
  | .labelled id label inner, reached, lower => by
      have less := ranked.child _ inner reached (by simp) List.mem_cons_self
      exact halts_body view inner (.child _ inner reached List.mem_cons_self)
        (Nat.le_of_lt (Nat.lt_of_lt_of_le less lower))
  | .custom _ _ _ _ _, reached, _ => (errorless _ reached).elim

end Ranked

-- By what is left of the text, and by rank where none of it is consumed.
theorem halts_invoke (g : Grammar) (t : Input) (rank : Rule → Nat) (ranked : g.Ranked t rank)
    (errorless : ∀ r, g.Reaches r → g.Errorless r) (r : Rule) (i level : Nat) (reached : g.Reaches r)
    (here : i ≤ t.length + 1) : Halts t i fun more => invoke .noted (g.setting t) more level r i := by
  have below : g.Below t rank (level + 1) i (rank r) := {
    near := fun c reached less => halts_invoke g t rank ranked errorless c i (level + 1) reached here
    far := fun c j reached further there => halts_invoke g t rank ranked errorless c j (level + 1) reached there }
  obtain ⟨e, fuel, within, comes⟩ := halts_body g t rank ranked errorless (level + 1) i (rank r) here below
    (fun j => ⟨t, j, level, r.label, r.ruleClass⟩) r reached (Nat.le_refl _)
  refine ⟨e, fuel + 1, within, fun more bound => ?_⟩
  obtain ⟨more, rfl⟩ : ∃ n, more = n + 1 := ⟨more - 1, by omega⟩
  exact comes_enclose ⟨r, i, level⟩ _ e (comes more (by omega))
termination_by (t.length + 1 - i, rank r)
decreasing_by
  · exact Prod.Lex.right _ less
  · exact Prod.Lex.left _ _ (by omega)

/-- Built-in rules that raise no errors of their own, with ranks that fall from every rule to its children and from
a proxy to its target, but for elements of a sequence behind one that never matches without moving the index: on
such a grammar every run with listeners that never fail ends with a result, and more fuel does not change it. -/
theorem ranked_run_ends (g : Grammar) (errorless : ∀ r, g.Reaches r → g.Errorless r) (input : Input)
    (rank : Rule → Nat) (ranked : g.Ranked input rank) (l : Listener ε σ) (obliging : ∀ s h, (l s h).2 = none) (s : σ) :
    ∃ fuel t result, ∀ more, fuel ≤ more → g.heardWith more input l s = some (t, .ok result) := by
  obtain ⟨e, fuel, -, comes⟩ :=
    halts_invoke g input rank ranked errorless g.root 0 0 .root (Nat.zero_le _)
  obtain ⟨hooks, v, ran, -⟩ := comes fuel (Nat.le_refl fuel)
  have noted : g.runWith fuel input = some ((⟨hooks, .ok v⟩ : Trail).toRun g.root input) :=
    congrArg (Option.map _) ran
  refine ⟨fuel, (announce l s ((⟨hooks, .ok v⟩ : Trail).toRun g.root input).hooks).1, v.result input.length, ?_⟩
  intro more bound
  rw [obliging_heard l obliging, run_longer g input fuel more bound _ noted]
  rfl

namespace Demo

def group : Rule :=
  .labelled 0 "Group" (.sequence 1 [ch 2 '(', .zeroOrMore 3 (.optional 4 (.proxy 5 "Group")), ch 6 ')'])

def groups : Grammar where
  root := .oneOrMore 7 (.optional 8 group)
  bindings := [⟨5, group⟩]

-- A proxy is ranked above the rule it stands for, and what stands behind a parenthesis may rank as high as it likes.
def groupRank (r : Rule) : Nat :=
  match r.id with
  | 1 => 1
  | 0 => 2
  | 5 | 8 => 3
  | 4 | 7 => 4
  | 3 => 5
  | _ => 0

end Demo

theorem char_advances (g : Grammar) (t : Input) (id : Nat) (c : Char) : g.Advances t (.terminal id (.ch c)) := by
  intro fuel level i trail v ran ended matched
  cases fuel with
  | zero => cases ran
  | succ fuel =>
      obtain ⟨inner, came, rfl⟩ := Option.map_eq_some_iff.mp ran
      simp only [body, Terminal.width] at came
      cases width : Terminal.charWidth (g.setting t).input i (· == c) with
      | none =>
          rw [width] at came
          cases came
          cases ended
          cases matched
      | some n =>
          rw [width] at came
          cases came
          cases ended
          obtain ⟨-, rfl⟩ := (char_width_iff _ _ _ _).mp width
          exact Nat.lt_succ_self i

theorem groups_nodes (r : Rule) (reached : Demo.groups.Reaches r) :
    r ∈ [Demo.groups.root, .optional 8 Demo.group, Demo.group,
      .sequence 1 [Demo.ch 2 '(', .zeroOrMore 3 (.optional 4 (.proxy 5 "Group")), Demo.ch 6 ')'], Demo.ch 2 '(',
      .zeroOrMore 3 (.optional 4 (.proxy 5 "Group")), .optional 4 (.proxy 5 "Group"), .proxy 5 "Group",
      Demo.ch 6 ')'] := by
  have target : Demo.groups.target? 5 = some Demo.group := rfl
  apply reaches_within Demo.groups _ (by simp) (by simp [Demo.groups, Demo.group, Demo.ch, Rule.children]) ?_ r reached
  simp only [Demo.groups, Demo.group, Demo.ch, List.mem_cons, reduceCtorEq, Rule.proxy.injEq, List.not_mem_nil,
    false_or, or_false]
  rintro id label r ⟨rfl, rfl⟩ bound
  exact .inr (.inr (.inl (Option.some.inj (bound.symm.trans target))))

theorem groups_errorless (r : Rule) (reached : Demo.groups.Reaches r) : Demo.groups.Errorless r := by
  have target : Demo.groups.target? 5 = some Demo.group := rfl
  have known := groups_nodes r reached
  simp only [List.mem_cons, List.not_mem_nil, or_false] at known
  rcases known with rfl | rfl | rfl | rfl | rfl | rfl | rfl | rfl | rfl <;>
    simp [Grammar.Errorless, Demo.groups, Demo.group, Demo.ch]
  exact ⟨_, target⟩

theorem groups_ranked (input : Input) : Demo.groups.Ranked input Demo.groupRank where
  child r c reached shape mem := by
    have known := groups_nodes r reached
    simp only [List.mem_cons, List.not_mem_nil, or_false] at known
    rcases known with rfl | rfl | rfl | rfl | rfl | rfl | rfl | rfl | rfl
    case inr.inr.inr.inl => exact absurd rfl (shape 1 _)
    all_goals
      revert c
      decide
  target id label r reached bound := by
    have target : Demo.groups.target? 5 = some Demo.group := rfl
    have known := groups_nodes _ reached
    simp only [Demo.groups, Demo.group, Demo.ch, List.mem_cons, reduceCtorEq, Rule.proxy.injEq, List.not_mem_nil,
      false_or, or_false] at known
    obtain ⟨rfl, rfl⟩ := known
    obtain rfl := Option.some.inj (bound.symm.trans target)
    decide
  element id before c rest reached := by
    have known := groups_nodes _ reached
    simp only [Demo.groups, Demo.group, Demo.ch, List.mem_cons, reduceCtorEq, Rule.sequence.injEq, List.not_mem_nil,
      false_or, or_false] at known
    obtain ⟨rfl, shape⟩ := known
    cases before with
    | nil =>
        obtain ⟨rfl, -⟩ := List.cons.inj shape
        exact .inl (Nat.zero_lt_succ 0)
    | cons b before =>
        obtain ⟨rfl, -⟩ := List.cons.inj shape
        exact .inr ⟨_, List.mem_cons_self, char_advances Demo.groups input 2 '('⟩

theorem groups_run_ends :
    (∀ r, Demo.groups.Reaches r → Demo.groups.Errorless r) ∧ Demo.groups.Ranked (.ofString "(()())") Demo.groupRank ∧
      (∀ s h, ((Listener.deaf (ε := Unit)) s h).2 = none) ∧
      ∃ fuel t result, ∀ more, fuel ≤ more →
        Demo.groups.heardWith more (.ofString "(()())") (Listener.deaf (ε := Unit)) () = some (t, .ok result) :=
  ⟨groups_errorless, groups_ranked _, fun _ _ => rfl,
    ranked_run_ends Demo.groups groups_errorless (.ofString "(()())") Demo.groupRank (groups_ranked _)
      (Listener.deaf (ε := Unit)) (fun _ _ => rfl) ()⟩

end MatchTrace
