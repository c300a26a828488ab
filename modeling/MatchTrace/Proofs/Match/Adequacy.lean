import MatchTrace.Demo
import MatchTrace.Proofs.Match.Meaning

/-!
Evaluation against the meaning of rules. Every meaning is reached with enough fuel, so a rule has one
meaning at most, and the result of a parse is the one that the meaning of the root gives.
-/

namespace MatchTrace

set_option autoImplicit false

variable {ε σ : Type}

theorem longer_simulation :
    Simulation Mode.noted Mode.noted (fun _ => True)
      fun _ less more => ∀ trail, less = some trail → more = some trail where
  exhausted _ _ trail eq := nomatch eq
  conclude _ _ _ trail eq := eq
  abort _ _ trail eq := eq
  andThen _ less more f g part next := by
    intro whole eq
    obtain ⟨trail, ran, eq⟩ := Option.bind_eq_some_iff.mp eq
    simp only [Mode.noted, part trail ran, Option.bind_some]
    rcases trail with ⟨hooks, e | v⟩
    · exact eq
    · obtain ⟨rest, went, rfl⟩ := Option.map_eq_some_iff.mp eq
      exact congrArg (Option.map _) (next v trivial rest went)
  enclose c f g _ part := by
    intro whole eq
    obtain ⟨trail, ran, rfl⟩ := Option.map_eq_some_iff.mp eq
    exact congrArg (Option.map _) (part trail ran)

theorem run_longer (g : Grammar) (input : Input) (less more : Nat) (bound : less ≤ more) (run : Run)
    (noted : g.runWith less input = some run) : g.runWith more input = some run := by
  obtain ⟨trail, ran, rfl⟩ := Option.map_eq_some_iff.mp noted
  have longer := longer_simulation.invoke (g.setting input) (closed_anywhere input) less more bound 0 g.root 0 trivial
  exact congrArg (Option.map _) (longer trail ran)

theorem run_unique (g : Grammar) (input : Input) (first second : Nat) (run other : Run)
    (noted : g.runWith first input = some run) (renoted : g.runWith second input = some other) : run = other := by
  rcases Nat.le_total first second with bound | bound
  · exact Option.some.inj ((run_longer g input first second bound run noted).symm.trans renoted)
  · exact Option.some.inj (noted.symm.trans (run_longer g input second first bound other renoted))

def EndsIn (noted : Option Trail) (ending : Except RuleError Verdict) : Prop := ∃ hooks, noted = some ⟨hooks, ending⟩

theorem ends_in_raised (part : Option Trail) (next : Verdict → Option Trail) (e : RuleError)
    (ends : EndsIn part (.error e)) : EndsIn (Mode.noted.andThen part next) (.error e) := by
  obtain ⟨hooks, rfl⟩ := ends
  exact ⟨hooks, rfl⟩

theorem ends_in_then (part : Option Trail) (next : Verdict → Option Trail) (v : Verdict)
    (ending : Except RuleError Verdict) (first : EndsIn part (.ok v)) (rest : EndsIn (next v) ending) :
    EndsIn (Mode.noted.andThen part next) ending := by
  obtain ⟨hooks, rfl⟩ := first
  obtain ⟨more, after⟩ := rest
  refine ⟨hooks ++ more, ?_⟩
  simp only [Mode.noted, Option.bind_some, Trail.andThen, after, Option.map_some, Trail.followedBy]

theorem ends_in_enclose (c : Call) (part : Unit → Option Trail) (ending : Except RuleError Verdict) :
    EndsIn (Mode.noted.enclose c part) ending ↔ EndsIn (part ()) ending := by
  constructor
  · rintro ⟨hooks, ran⟩
    obtain ⟨⟨told, _⟩, inside, same⟩ := Option.map_eq_some_iff.mp ran
    cases same
    exact ⟨told, inside⟩
  · rintro ⟨hooks, inside⟩
    refine ⟨((⟨hooks, ending⟩ : Trail).enclose c).hooks, ?_⟩
    simp only [Mode.noted, inside, Option.map_some]
    rfl

theorem ends_in_unique (part : Option Trail) (first second : Except RuleError Verdict) (ends : EndsIn part first)
    (other : EndsIn part second) : first = second := by
  obtain ⟨hooks, rfl⟩ := ends
  obtain ⟨told, same⟩ := other
  cases same
  rfl

theorem ends_in_cases (part : Option Trail) (next : Verdict → Option Trail) (ending : Except RuleError Verdict)
    (ends : EndsIn (Mode.noted.andThen part next) ending) :
    ∃ first, EndsIn part first ∧
      match first with
      | .ok v => EndsIn (next v) ending
      | .error e => ending = .error e := by
  obtain ⟨hooks, ran⟩ := ends
  obtain ⟨⟨told, first⟩, front, ran⟩ := Option.bind_eq_some_iff.mp ran
  refine ⟨first, ⟨told, front⟩, ?_⟩
  cases first with
  | error e =>
      cases ran
      rfl
  | ok v =>
      obtain ⟨⟨more, last⟩, back, same⟩ := Option.map_eq_some_iff.mp ran
      cases same
      exact ⟨more, back⟩

def Comes (part : Option Trail) (e : Option Nat) : Prop :=
  ∃ hooks v, part = some ⟨hooks, .ok v⟩ ∧ v.end? = e

theorem comes_conclude (v : Verdict) : Comes (Mode.noted.conclude v) v.end? := ⟨[], v, rfl, rfl⟩

theorem comes_attempt (run : Attempt (Option Trail)) (r : Rule) (i : Nat) (next : Bool → Nat → Option Trail)
    (e f : Option Nat) (child : Comes (run r i) e) (rest : Comes (next e.isSome (e.getD i)) f) :
    Comes (Mode.noted.attempt run r i next) f := by
  obtain ⟨hooks, v, ran, rfl⟩ := child
  obtain ⟨more, w, went, rfl⟩ := rest
  rw [← matched_eq, ← resume_eq] at went
  obtain ⟨told, whole⟩ := ends_in_then _ (fun v => next v.matched (v.resume i)) v _ ⟨hooks, ran⟩ ⟨more, went⟩
  exact ⟨told, w, whole, rfl⟩

theorem comes_enclose (c : Call) (part : Unit → Option Trail) (e : Option Nat) (comes : Comes (part ()) e) :
    Comes (Mode.noted.enclose c part) e := by
  obtain ⟨hooks, v, ran, rfl⟩ := comes
  obtain ⟨told, whole⟩ := (ends_in_enclose c part (.ok v)).mpr ⟨hooks, ran⟩
  exact ⟨told, v, whole, rfl⟩

theorem comes_longer (s : Environment) (r : Rule) (less more level fuel : Nat) (bound : less ≤ more)
    (enough : Bool) (i : Nat) (e : Option Nat)
    (comes : Comes (Mode.noted.repeated (invoke .noted s less level) r fuel enough i) e) :
    Comes (Mode.noted.repeated (invoke .noted s more level) r fuel enough i) e := by
  obtain ⟨hooks, v, ran, rfl⟩ := comes
  have longer := longer_simulation.repeated level _ _
    (longer_simulation.invoke s (closed_anywhere s.input) less more bound level) r fuel fuel (Nat.le_refl fuel) enough i
    trivial
  exact ⟨hooks, v, longer _ ran, rfl⟩

def Settles (g : Grammar) (t : Input) (r : Rule) (i : Nat) (e : Option Nat) : Prop :=
  ∃ fuel, ∀ more, fuel ≤ more → ∀ level (view : Nat → View), (∀ j, (view j).input = t ∧ (view j).index = j) →
    Comes (body .noted (g.setting t) more (invoke .noted (g.setting t) more level) view r i) e

theorem settled_invoke (g : Grammar) (t : Input) (r : Rule) (i : Nat) (e : Option Nat) (settles : Settles g t r i e) :
    ∃ fuel, ∀ more, fuel ≤ more → ∀ level, Comes (invoke .noted (g.setting t) more level r i) e := by
  obtain ⟨fuel, settled⟩ := settles
  refine ⟨fuel + 1, fun more bound level => ?_⟩
  obtain ⟨more, rfl⟩ : ∃ n, more = n + 1 := ⟨more - 1, by omega⟩
  apply comes_enclose
  exact settled more (by omega) (level + 1) _ fun _ => ⟨rfl, rfl⟩

theorem settled_body (g : Grammar) (t : Input) (r : Rule) (i : Nat) (e : Option Nat) (settles : Settles g t r i e) :
    ∃ fuel, ∀ more, fuel ≤ more → ∀ level, ∃ view,
      Comes (body .noted (g.setting t) more (invoke .noted (g.setting t) more level) view r i) e := by
  obtain ⟨fuel, settled⟩ := settles
  refine ⟨fuel, fun more bound level => ⟨fun j => ⟨t, j, level, r.label, r.ruleClass⟩, ?_⟩⟩
  exact settled more bound level _ fun _ => ⟨rfl, rfl⟩

theorem settles_after (g : Grammar) (t : Input) (r c : Rule) (i : Nat) (e f : Option Nat)
    (next : Nat → Attempt (Option Trail) → Bool → Nat → Option Trail) (child : Settles g t c i e)
    (shape : ∀ fuel run view, body .noted (g.setting t) (fuel + 1) run view r i =
      Mode.noted.attempt run c i (next fuel run))
    (rest : ∃ fuel, ∀ more, fuel ≤ more → ∀ level,
      Comes (next more (invoke .noted (g.setting t) (more + 1) level) e.isSome (e.getD i)) f) :
    Settles g t r i f := by
  obtain ⟨first, ran⟩ := settled_invoke g t c i e child
  obtain ⟨second, went⟩ := rest
  refine ⟨max first second + 1, fun more bound level view _ => ?_⟩
  obtain ⟨more, rfl⟩ : ∃ n, more = n + 1 := ⟨more - 1, by omega⟩
  rw [shape]
  exact comes_attempt _ c i _ e f (ran (more + 1) (by omega) level) (went more (by omega) level)

theorem settles_child (g : Grammar) (t : Input) (r c : Rule) (i : Nat) (e : Option Nat) (v : Verdict)
    (next : Nat → Attempt (Option Trail) → Bool → Nat → Option Trail) (child : Settles g t c i e)
    (shape : ∀ fuel run view, body .noted (g.setting t) (fuel + 1) run view r i =
      Mode.noted.attempt run c i (next fuel run))
    (concluded : ∀ fuel run, next fuel run e.isSome (e.getD i) = Mode.noted.conclude v) :
    Settles g t r i v.end? := by
  apply settles_after g t r c i e v.end? next child shape
  refine ⟨0, fun more _ level => ?_⟩
  rw [concluded]
  exact comes_conclude v

section Repeated

variable (g : Grammar) (t : Input) (r c : Rule) (i : Nat) (e : Option Nat) (enough : Bool)

theorem settles_stop (child : Settles g t c i e) (stops : e.getD i = i)
    (shape : ∀ fuel run view, body .noted (g.setting t) fuel run view r i =
      Mode.noted.repeated run c fuel enough i) : Settles g t r i (if e.isSome || enough then some i else none) := by
  apply settles_child g t r c i e ⟨e.isSome || enough, i⟩ (fun fuel run ok j =>
    if ok then if j = i then Mode.noted.succeed j else Mode.noted.repeated run c fuel true j
    else Mode.noted.conclude ⟨enough, j⟩) child fun fuel run view => shape (fuel + 1) run view
  intro fuel run
  cases e with
  | none => rfl
  | some j =>
      obtain rfl : j = i := stops
      simp [Mode.succeed]

theorem settles_step (j : Nat) (id : Nat) (child : Settles g t c i (some j)) (forward : i < j)
    (tail : Settles g t (.zeroOrMore id c) j e)
    (shape : ∀ fuel run view, body .noted (g.setting t) fuel run view r i =
      Mode.noted.repeated run c fuel enough i) : Settles g t r i e := by
  apply settles_after g t r c i (some j) e _ child fun fuel run view => shape (fuel + 1) run view
  obtain ⟨fuel, settled⟩ := settled_body g t _ j e tail
  refine ⟨fuel, fun more bound level => ?_⟩
  obtain ⟨view, comes⟩ := settled more bound level
  simp only [Option.isSome_some, if_true, Option.getD_some, Nat.ne_of_gt forward, if_false]
  exact comes_longer _ c more (more + 1) level more (by omega) true j e comes

end Repeated

theorem peg_settles (g : Grammar) (t : Input) (r : Rule) (i : Nat) (e : Option Nat) (meaning : Peg g t r i e) :
    Settles g t r i e := by
  induction meaning with
  | hit id terminal i j moves =>
      obtain ⟨n, rfl⟩ := Nat.exists_eq_add_of_le (moves_forward t i j terminal moves)
      refine ⟨0, fun more _ level view _ => ?_⟩
      simp only [body, Grammar.setting, (width_iff_moves t i n terminal).mpr moves]
      exact comes_conclude ⟨true, i + n⟩
  | miss id terminal i stuck =>
      have width : terminal.width t i = none := by
        cases width : terminal.width t i with
        | none => rfl
        | some n => exact absurd ((width_iff_moves t i n terminal).mp width) (stuck (i + n))
      refine ⟨0, fun more _ level view _ => ?_⟩
      simp only [body, Grammar.setting, width]
      exact comes_conclude ⟨false, i⟩
  | sequence_end id i => exact ⟨0, fun _ _ _ _ _ => comes_conclude ⟨true, i⟩⟩
  | sequence_fail id r rs i _ first =>
      exact settles_child g t _ r i none ⟨false, i⟩
        (fun _ run ok j => if ok then Mode.noted.inOrder run rs j else Mode.noted.fail j) first
        (fun _ _ _ => rfl) fun _ _ => rfl
  | sequence_step id r rs i j e _ _ first tail =>
      apply settles_after g t _ r i (some j) e
        (fun _ run ok j => if ok then Mode.noted.inOrder run rs j else Mode.noted.fail j) first fun _ _ _ => rfl
      obtain ⟨fuel, settled⟩ := settled_body g t _ j e tail
      refine ⟨fuel, fun more bound level => ?_⟩
      obtain ⟨view, comes⟩ := settled (more + 1) (by omega) level
      exact comes
  | first_none id i => exact ⟨0, fun _ _ _ _ _ => comes_conclude ⟨false, i⟩⟩
  | first_match id r rs i j _ first =>
      exact settles_child g t _ r i (some j) ⟨true, j⟩
        (fun _ run ok j => if ok then Mode.noted.succeed j else Mode.noted.oneOf run rs j) first
        (fun _ _ _ => rfl) fun _ _ => rfl
  | first_next id r rs i e _ _ first tail =>
      apply settles_after g t _ r i none e
        (fun _ run ok j => if ok then Mode.noted.succeed j else Mode.noted.oneOf run rs j) first fun _ _ _ => rfl
      obtain ⟨fuel, settled⟩ := settled_body g t _ i e tail
      refine ⟨fuel, fun more bound level => ?_⟩
      obtain ⟨view, comes⟩ := settled (more + 1) (by omega) level
      exact comes
  | optional id r i e _ inner =>
      exact settles_child g t _ r i e ⟨true, e.getD i⟩ (fun _ _ _ j => Mode.noted.succeed j) inner
        (fun _ _ _ => rfl) fun _ _ => rfl
  | many_end id r i _ first => exact settles_stop g t _ r i none true first rfl fun _ _ _ => rfl
  | some_fail id r i _ first => exact settles_stop g t _ r i none false first rfl fun _ _ _ => rfl
  | many_still id r i j meaning still first =>
      obtain rfl : j = i := Nat.le_antisymm (Nat.le_of_not_lt still) (peg_forward g t r i j _ meaning rfl)
      exact settles_stop g t _ r j (some j) true first rfl fun _ _ _ => rfl
  | some_still id r i j meaning still first =>
      obtain rfl : j = i := Nat.le_antisymm (Nat.le_of_not_lt still) (peg_forward g t r i j _ meaning rfl)
      exact settles_stop g t _ r j (some j) false first rfl fun _ _ _ => rfl
  | many_step id r i j e _ forward _ first tail =>
      exact settles_step g t _ r i e true j id first forward tail fun _ _ _ => rfl
  | some_step id r i j e _ forward _ first tail =>
      exact settles_step g t _ r i e false j id first forward tail fun _ _ _ => rfl
  | test id r i e _ inner =>
      exact settles_child g t _ r i e ⟨e.isSome, i⟩ (fun _ _ ok _ => Mode.noted.conclude ⟨ok, i⟩) inner
        (fun _ _ _ => rfl) fun _ _ => rfl
  | test_not id r i e _ inner =>
      have settles := settles_child g t (.testNot id r) r i e ⟨!e.isSome, i⟩
        (fun _ _ ok _ => Mode.noted.conclude ⟨!ok, i⟩) inner (fun _ _ _ => rfl) fun _ _ => rfl
      cases e <;> exact settles
  | action id label verdict i matched same =>
      refine ⟨0, fun more _ level view sees => ?_⟩
      simp only [body, same (view i) (sees i).1 (sees i).2]
      exact comes_conclude ⟨matched, i⟩
  | proxy id label r i e bound _ inner =>
      have settles := settles_child g t (.proxy id label) r i e ⟨e.isSome, e.getD i⟩
        (fun _ _ ok j => Mode.noted.conclude ⟨ok, j⟩) inner
        (fun _ _ _ => by simp only [body, Grammar.setting, target_live, bound]) fun _ _ => rfl
      cases e <;> exact settles
  | labelled id label r i e _ inner =>
      obtain ⟨fuel, settled⟩ := inner
      exact ⟨fuel, settled⟩

theorem peg_unique (g : Grammar) (t : Input) (r : Rule) (i : Nat) (e f : Option Nat) (one : Peg g t r i e)
    (other : Peg g t r i f) : e = f := by
  obtain ⟨first, ran⟩ := settled_invoke g t r i e (peg_settles g t r i e one)
  obtain ⟨second, went⟩ := settled_invoke g t r i f (peg_settles g t r i f other)
  obtain ⟨_, v, eq, rfl⟩ := ran (max first second) (by omega) 0
  obtain ⟨_, w, same, rfl⟩ := went (max first second) (by omega) 0
  rw [eq] at same
  cases same
  rfl

theorem obliged_iff (fuel : Nat) (g : Grammar) (input : Input) (l : Listener ε σ)
    (obliging : ∀ s h, (l s h).2 = none) (s : σ) (outcome : Except (RunError ε) ParseResult) :
    (∃ t, g.heardWith fuel input l s = some (t, outcome)) ↔
      ∃ trail, g.invokeRoot .noted fuel input = some trail ∧
        outcome = (trail.ending.map fun v => v.result input.length).mapError .rule := by
  simp only [obliging_heard l obliging, Grammar.runWith, Option.map_map, Option.map_eq_some_iff, Function.comp,
    Prod.mk.injEq]
  constructor
  · rintro ⟨t, trail, ran, -, rfl⟩
    exact ⟨trail, ran, rfl⟩
  · rintro ⟨trail, ran, rfl⟩
    exact ⟨_, trail, ran, rfl, rfl⟩

theorem result_eq (v : Verdict) (n : Nat) : v.result n = ⟨v.end?.isSome, v.end?.getD 0, n⟩ := by
  rw [Verdict.result, matched_eq, resume_eq]

theorem parse_follows_peg (g : Grammar) (plain : ∀ r, g.Reaches r → g.Plain r) (input : Input) (l : Listener ε σ)
    (obliging : ∀ s h, (l s h).2 = none) (s : σ) (outcome : Except (RunError ε) ParseResult) :
    (∃ fuel t, g.heardWith fuel input l s = some (t, outcome)) ↔
      ∃ e, (∀ other, Peg g input g.root 0 other ↔ other = e) ∧
        outcome = .ok ⟨e.isSome, e.getD 0, input.length⟩ := by
  constructor
  · rintro ⟨fuel, heard⟩
    obtain ⟨trail, ran, rfl⟩ := (obliged_iff fuel g input l obliging s outcome).mp heard
    obtain ⟨v, ended, means⟩ := meant_invoke g input plain fuel 0 g.root 0 .root trail ran
    refine ⟨v.end?, fun other => ⟨fun same => peg_unique g input g.root 0 _ _ same means, ?_⟩, ?_⟩
    · rintro rfl
      exact means
    · rw [ended, ← result_eq]
      rfl
  · rintro ⟨e, only, rfl⟩
    obtain ⟨fuel, settled⟩ := settled_invoke g input g.root 0 e (peg_settles g input g.root 0 e ((only e).mpr rfl))
    obtain ⟨hooks, v, ran, rfl⟩ := settled fuel (Nat.le_refl fuel) 0
    refine ⟨fuel, (obliged_iff fuel g input l obliging s _).mpr ⟨_, ran, ?_⟩⟩
    rw [← result_eq]
    rfl

theorem reaches_leads (g : Grammar) (r : Rule) (reached : g.Reaches r) : g.Leads g.root r := by
  induction reached with
  | root => exact .here
  | child r c _ mem ih => exact .child r c ih mem
  | target id label r _ bound ih => exact .target id label r ih bound

theorem reaches_within (g : Grammar) (nodes : List Rule) (root : g.root ∈ nodes)
    (down : ∀ r ∈ nodes, ∀ c ∈ r.children, c ∈ nodes)
    (across : ∀ id label r, .proxy id label ∈ nodes → g.target? id = some r → r ∈ nodes) (r : Rule)
    (reached : g.Reaches r) : r ∈ nodes :=
  leads_within g nodes g.root root down across r (reaches_leads g r reached)

namespace Demo

def nest : Rule :=
  .labelled 0 "Nest" (.firstOf 1 [.sequence 2 [ch 3 '(', .proxy 4 "Nest", ch 5 ')'], .terminal 6 .empty])

def nested : Grammar where
  root := nest
  bindings := [⟨4, nest⟩]

def nestRules : List Rule :=
  [nest, .firstOf 1 [.sequence 2 [ch 3 '(', .proxy 4 "Nest", ch 5 ')'], .terminal 6 .empty],
    .sequence 2 [ch 3 '(', .proxy 4 "Nest", ch 5 ')'], ch 3 '(', .proxy 4 "Nest", ch 5 ')', .terminal 6 .empty]

end Demo

theorem nest_rules_down : ∀ r ∈ Demo.nestRules, ∀ c ∈ r.children, c ∈ Demo.nestRules := by
  simp [Demo.nestRules, Demo.nest, Demo.ch, Rule.children]

theorem nest_rules_across (id : Nat) (label : String) (r : Rule) (mem : .proxy id label ∈ Demo.nestRules)
    (bound : Demo.nested.target? id = some r) : r ∈ Demo.nestRules := by
  simp only [Demo.nestRules, Demo.nest, Demo.ch, List.mem_cons, reduceCtorEq, Rule.proxy.injEq, List.not_mem_nil,
    false_or, or_false] at mem
  obtain ⟨rfl, rfl⟩ := mem
  have target : Demo.nested.target? 4 = some Demo.nest := rfl
  exact List.mem_cons.mpr (.inl (Option.some.inj (bound.symm.trans target)))

theorem nested_plain (r : Rule) (reached : Demo.nested.Reaches r) : Demo.nested.Plain r := by
  have target : Demo.nested.target? 4 = some Demo.nest := rfl
  have known := reaches_within Demo.nested Demo.nestRules List.mem_cons_self nest_rules_down nest_rules_across r reached
  simp only [Demo.nestRules, List.mem_cons, List.not_mem_nil, or_false] at known
  rcases known with rfl | rfl | rfl | rfl | rfl | rfl | rfl <;> simp [Grammar.Plain, Demo.nest, Demo.ch, target]

theorem nested_parse_follows_peg :
    (∀ r, Demo.nested.Reaches r → Demo.nested.Plain r) ∧ (∀ s h, ((Listener.deaf (ε := Unit)) s h).2 = none) ∧
      ∃ e, (∀ other, Peg Demo.nested (.ofString "(())") Demo.nested.root 0 other ↔ other = e) ∧
        (.ok ⟨true, 4, 4⟩ : Except (RunError Unit) ParseResult) = .ok ⟨e.isSome, e.getD 0, 4⟩ :=
  ⟨nested_plain, fun _ _ => rfl,
    (parse_follows_peg Demo.nested nested_plain (.ofString "(())") Listener.deaf (fun _ _ => rfl) () _).mp
      ⟨20, (), rfl⟩⟩

end MatchTrace
