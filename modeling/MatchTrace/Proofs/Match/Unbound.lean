import MatchTrace.Proofs.Match.OpenCalls
import MatchTrace.Proofs.Match.Pairing
import MatchTrace.Proofs.Match.Visits
import MatchTrace.Proofs.Rule.Ownership

/-!
Proxies that stand for nothing. A run ends with the error of such a proxy if and only if it comes to one, and whether it
is one can be read off the bindings and off what the grammar holds.
-/

namespace MatchTrace

set_option autoImplicit false

def Rule.proxy? : Rule → Option (Nat × String)
  | .proxy id label => some (id, label)
  | .labelled _ _ inner => inner.proxy?
  | _ => none

-- A body that somebody else wrote may raise the error of a proxy that is not there.
def Rule.Forges : Rule → Prop
  | .custom _ _ _ _ script => ∃ answers label, script answers = .abort (.unboundProxy label)
  | _ => False

namespace Grammar

def Dangling (g : Grammar) (proxy : Nat) : Prop :=
  (∀ b ∈ g.bindings, b.proxy ≠ proxy) ∨ ∃ r, Binding.First g.bindings proxy r ∧ ¬ g.Holds r

-- Somebody is told the hook in a run on the text, and may well be the one that stops it there.
def Tells (g : Grammar) (input : Input) (h : Hook) : Prop :=
  ∃ (ε σ : Type) (l : Listener ε σ) (s t : σ) (fuel : Nat) (stream : List Hook)
    (outcome : Except (RunError ε) ParseResult),
    g.heardWith fuel input (.both .noting l) ([], s) = some ((stream, t), outcome) ∧ h ∈ stream

end Grammar

theorem dangling_iff (g : Grammar) (numbered : g.Numbered) (proxy : Nat) :
    g.Dangling proxy ↔ g.target? proxy = none := by
  rw [target_none g numbered]
  constructor
  · rintro (never | ⟨r, first, gone⟩) q ⟨before, after, same, others⟩ held
    · exact never ⟨proxy, q⟩ (same ▸ by simp) rfl
    · have bound := (first_iff _ _ _).mp first
      rw [(first_iff _ _ _).mp ⟨before, after, same, others⟩] at bound
      cases bound
      exact gone held
  · intro lost
    cases bound : Binding.target? g.bindings proxy with
    | none =>
        left
        simpa [Binding.target?] using bound
    | some r =>
        have first := (first_iff _ _ _).mpr bound
        exact .inr ⟨r, first, lost r first⟩

theorem body_dangling {ρ : Type} (m : Mode ρ) (s : Environment) (fuel : Nat) (run : Attempt ρ) (view : Nat → View)
    (i id : Nat) (label : String) (lost : Binding.target? s.bindings id = none) :
    ∀ r : Rule, r.proxy? = some (id, label) → body m s fuel run view r i = m.abort (.unboundProxy label)
  | .proxy _ _, same => by
      cases same
      simp only [body, lost]
  | .labelled _ _ inner, same => body_dangling m s fuel run view i id label lost inner same

def Hook.Strikes (g : Grammar) (label : String) : Hook → Prop
  | .beforeMatch c => ∃ id, c.rule.proxy? = some (id, label) ∧ g.target? id = none
  | _ => False

theorem closing_strikes_not (g : Grammar) (label : String) (v : Verdict) (c : Call) : ¬ (v.closing c).Strikes g label := by
  rcases v with ⟨_ | _, index⟩ <;> exact id

section Strikes

variable {ε σ α β : Type} (l : Listener ε σ) (g : Grammar)

-- If the part of a run comes to an end, one way or the other, what was written down in it strikes only with a label
-- that is such, and if it comes to a value, so is that.
def Hears (part : Heard ε (List Hook × σ) α) (struck : String → Prop) (such : α → Prop) : Prop :=
  ∀ stream s whole t ending, part (stream, s) = some ((whole, t), ending) →
    ∃ hooks, whole = stream ++ hooks ∧ (∀ h ∈ hooks, ∀ label, h.Strikes g label → struck label) ∧
      ∀ x, ending = .ok x → such x

theorem hears_give (struck : String → Prop) (such : α → Prop) (x : α) (holds : such x) :
    Hears g (Heard.give x : Heard ε (List Hook × σ) α) struck such := by
  intro stream s whole t ending heard
  cases heard
  refine ⟨[], (List.append_nil _).symm, fun h mem => (nomatch mem), fun y same => ?_⟩
  cases same
  exact holds

theorem hears_stop (struck : String → Prop) (such : α → Prop) (e : RunError ε) :
    Hears g (Heard.stop e : Heard ε (List Hook × σ) α) struck such := by
  intro stream s whole t ending heard
  cases heard
  exact ⟨[], (List.append_nil _).symm, fun h mem => (nomatch mem), fun y same => (nomatch same)⟩

theorem hears_tell (struck : String → Prop) (h : Hook) (strikes : ∀ label, h.Strikes g label → struck label) :
    Hears g (Heard.tell (.both .noting l) h) struck fun _ => True := by
  intro stream s whole t ending heard
  refine ⟨[h], tell_noted l h stream whole s t ending heard, ?_, fun _ _ => trivial⟩
  intro k mem
  obtain rfl := List.mem_singleton.mp mem
  exact strikes

theorem hears_then (part : Heard ε (List Hook × σ) α) (next : α → Heard ε (List Hook × σ) β) (struck : String → Prop)
    (midway : α → Prop) (such : β → Prop) (first : Hears g part struck midway)
    (rest : ∀ x, midway x → Hears g (next x) struck such) : Hears g (part.andThen next) struck such := by
  intro stream s whole t ending heard
  rcases heard_then_cases part next _ _ ending heard with ⟨e, front, rfl⟩ | ⟨⟨between, u⟩, x, front, back⟩
  · obtain ⟨hooks, told, strikes, -⟩ := first stream s whole t _ front
    exact ⟨hooks, told, strikes, fun y same => (nomatch same)⟩
  · obtain ⟨hooks, rfl, strikes, holds⟩ := first stream s between u _ front
    obtain ⟨more, rfl, strikes', holds'⟩ := rest x (holds x rfl) _ u whole t ending back
    refine ⟨hooks ++ more, List.append_assoc _ _ _, ?_, holds'⟩
    intro h mem
    rcases List.mem_append.mp mem with mem | mem
    · exact strikes h mem
    · exact strikes' h mem

theorem hears_mono (part : Heard ε (List Hook × σ) α) (struck struck' : String → Prop) (such such' : α → Prop)
    (hears : Hears g part struck such) (more : ∀ label, struck label → struck' label) (further : ∀ x, such x → such' x) :
    Hears g part struck' such' := by
  intro stream s whole t ending heard
  obtain ⟨hooks, told, strikes, holds⟩ := hears stream s whole t ending heard
  exact ⟨hooks, told, fun h mem label strike => more label (strikes h mem label strike),
    fun x same => further x (holds x same)⟩

-- A part that is heard beside the same part noted down: what strikes it is its end.
def Struck (heard : Heard ε (List Hook × σ) Verdict) (noted : Option Trail) : Prop :=
  Hears g heard (fun label => EndsIn noted (.error (.unboundProxy label))) fun v => EndsIn noted (.ok v)

theorem struck_couples : Couples Eq (Mode.heard (.both .noting l)) Mode.noted (Struck g) where
  exhausted := fun _ _ _ _ _ heard => (nomatch heard)
  conclude := by
    rintro matched i _ rfl
    exact hears_give g _ _ _ ⟨[], rfl⟩
  abort e := hears_stop g _ _ _
  andThen := by
    intro part noted next onward first rest
    apply hears_then g part next _ (fun v => EndsIn noted (.ok v))
    · exact hears_mono g part _ _ _ _ first (fun label => ends_in_raised noted onward _) fun v => id
    · intro v ended
      exact hears_mono g (next v) _ _ _ _ (rest v.matched v.index v.index rfl)
        (fun label => ends_in_then noted onward v _ ended) fun w => ends_in_then noted onward v _ ended

theorem struck_enclose (c : Call) (part : Unit → Heard ε (List Hook × σ) Verdict) (noted : Unit → Option Trail)
    (own : ∀ label, (Hook.beforeMatch c).Strikes g label → EndsIn (noted ()) (.error (.unboundProxy label)))
    (inside : Struck g (part ()) (noted ())) :
    Struck g ((Mode.heard (.both .noting l)).enclose c part) (Mode.noted.enclose c noted) := by
  apply hears_then g _ _ _ (fun _ => True)
  · exact hears_tell l g _ _ fun label strikes => (ends_in_enclose c noted _).mpr (own label strikes)
  intro _ _
  apply hears_then g _ _ _ (fun v => EndsIn (Mode.noted.enclose c noted) (.ok v))
  · exact hears_mono g (part ()) _ _ _ _ inside (fun label => (ends_in_enclose c noted _).mpr)
      fun v => (ends_in_enclose c noted _).mpr
  intro v ended
  apply hears_then g _ _ _ (fun _ => True)
  · exact hears_tell l g _ _ fun label strikes => absurd strikes (closing_strikes_not g label v c)
  · exact fun _ _ => hears_give g _ _ v ended

theorem struck_invoke (input : Input) (fuel level : Nat) (r : Rule) (i : Nat) :
    Struck g (invoke (.heard (.both .noting l)) (g.setting input) fuel level r i)
      (invoke .noted (g.setting input) fuel level r i) := by
  induction fuel generalizing level r i with
  | zero => exact fun _ _ _ _ _ heard => (nomatch heard)
  | succ fuel ih =>
      apply struck_enclose
      · rintro label ⟨id, proxy, lost⟩
        rw [body_dangling .noted (g.setting input) fuel _ _ i id label ((target_live g id).trans lost) r proxy]
        exact ⟨[], rfl⟩
      · apply Couples.body (p := Pairing.mirror (g.setting input) (g.setting input)) (struck_couples l g)
          (Pairing.aligned_in_place _ rfl rfl) _ _ _ _ _ _ fuel fuel
          (Nat.le_refl fuel) (fun less => absurd less (Nat.lt_irrefl fuel)) r r (mirror_bodies _ _ (fun _ => rfl) r) i i rfl
        · rintro i _ rfl
          rfl
        · rintro r _ rfl i _ rfl
          exact ih (level + 1) r i

theorem struck_root (input : Input) (fuel : Nat) :
    Hears g (g.heardWith fuel input (.both .noting l))
      (fun label => EndsIn (g.invokeRoot .noted fuel input) (.error (.unboundProxy label))) fun _ => True := by
  apply hears_then g _ _ _ (fun _ => True)
  · exact hears_tell l g _ _ fun label strikes => strikes.elim
  intro _ _
  apply hears_then g _ _ _ (fun _ => True)
  · exact hears_mono g _ _ _ _ _ (struck_invoke l g input fuel 0 g.root 0) (fun label => id) fun _ _ => trivial
  intro v _
  apply hears_then g _ _ _ (fun _ => True)
  · exact hears_tell l g _ _ fun label strikes => strikes.elim
  · exact fun _ _ => hears_give g _ _ _ trivial

end Strikes

section Raised

variable (g : Grammar)

theorem nests_entered (opened left : List Call) (hooks : List Hook) (nests : Hook.Nests opened hooks left) (c : Call)
    (mem : c ∈ left) : c ∈ opened ∨ .beforeMatch c ∈ hooks := by
  induction nests with
  | nil => exact .inl mem
  | cons opened after left h hs follows _ ih =>
      rcases ih mem with mem | entered
      · cases follows with
        | enter _ d _ =>
            rcases List.mem_cons.mp mem with rfl | mem
            · exact .inr List.mem_cons_self
            · exact .inl mem
        | success _ d _ _ _ => exact .inl (List.mem_cons_of_mem _ mem)
        | failure _ d _ _ _ => exact .inl (List.mem_cons_of_mem _ mem)
      · exact .inr (List.mem_cons_of_mem _ entered)

theorem callee_reached (c : Rule) : ∀ r : Rule, g.Reaches r → c ∈ g.callees r → g.Reaches c
  | .proxy id label, reached, called => .target id label c reached (by simpa [Grammar.callees] using called)
  | .labelled _ _ inner, reached, called =>
      callee_reached c inner (.child _ inner reached List.mem_cons_self) called
  | .terminal _ _, reached, called | .action _ _ _, reached, called => nomatch called
  | .sequence _ _, reached, called | .firstOf _ _, reached, called | .optional _ _, reached, called
  | .zeroOrMore _ _, reached, called | .oneOrMore _ _, reached, called | .test _ _, reached, called
  | .testNot _ _, reached, called | .custom _ _ _ _ _, reached, called => .child _ c reached called

theorem open_reached (left : List Call) (made : left.IsChain g.Makes) (bottom : [⟨g.root, 0, 0⟩] <:+ left) (c : Call)
    (mem : c ∈ left) : g.Reaches c.rule := by
  induction left generalizing c with
  | nil => cases mem
  | cons d rest ih =>
      rcases rest with _ | ⟨outer, rest⟩
      · obtain rfl := List.mem_singleton.mp mem
        rcases List.suffix_cons_iff.mp bottom with same | below
        · cases same
          exact .root
        · cases List.suffix_nil.mp below
      · have below : [⟨g.root, 0, 0⟩] <:+ outer :: rest := by
          rcases List.suffix_cons_iff.mp bottom with same | below
          · cases same
          · exact below
        have chained := List.isChain_cons_cons.mp made
        rcases List.mem_cons.mp mem with rfl | mem
        · exact callee_reached g c.rule outer.rule (ih chained.2 below outer List.mem_cons_self) chained.1
        · exact ih chained.2 below c mem

theorem raises_unbound (honest : ∀ r, g.Reaches r → ¬ r.Forges) (view : View) (label : String) :
    ∀ r : Rule, g.Reaches r → g.Raises view (.unboundProxy label) r →
      ∃ id, r.proxy? = some (id, label) ∧ g.target? id = none ∧ g.Reaches (.proxy id label)
  | .proxy id _, reached, ⟨lost, same⟩ => by
      cases same
      exact ⟨id, rfl, lost, reached⟩
  | .labelled _ _ inner, reached, raises =>
      raises_unbound honest view label inner (.child _ inner reached List.mem_cons_self) raises
  | .action _ _ _, _, ⟨_, _, other⟩ => nomatch other
  | .custom _ _ _ _ _, reached, ⟨answers, aborts⟩ => absurd ⟨answers, label, aborts⟩ (honest _ reached)
  | .terminal _ _, _, raises | .sequence _ _, _, raises | .firstOf _ _, _, raises | .optional _ _, _, raises
  | .zeroOrMore _ _, _, raises | .oneOrMore _ _, _, raises | .test _ _, _, raises | .testNot _ _, _, raises =>
      raises.elim

theorem unbound_entered (honest : ∀ r, g.Reaches r → ¬ r.Forges) (fuel : Nat) (input : Input) (run : Run)
    (noted : g.runWith fuel input = some run) (label : String) (raised : run.outcome = .error (.unboundProxy label)) :
    ∃ c id, .beforeMatch c ∈ run.hooks ∧ c.rule.proxy? = some (id, label) ∧ g.target? id = none ∧
      g.Reaches (.proxy id label) := by
  obtain ⟨hooks, left, told, -, nests, ending⟩ := run_stands fuel g input run noted
  rw [raised] at ending
  obtain ⟨bottom, made, c, rest, rfl, raises⟩ := ending
  have reached := open_reached g _ made bottom c List.mem_cons_self
  obtain ⟨id, proxy, lost, reached⟩ := raises_unbound g honest _ label c.rule reached raises
  refine ⟨c, id, ?_, proxy, lost, reached⟩
  have entered := (nests_entered [] _ hooks nests c List.mem_cons_self).resolve_left (List.not_mem_nil)
  rw [told]
  exact List.mem_cons_of_mem _ (List.mem_append_left _ entered)

end Raised

section Unbound

variable {ε σ : Type} (g : Grammar) (input : Input)

theorem noted_unbound (l : Listener ε σ) (s t : σ) (fuel : Nat) (label : String)
    (heard : g.heardWith fuel input l s = some (t, .error (.rule (.unboundProxy label)))) :
    ∃ run, g.runWith fuel input = some run ∧ run.outcome = .error (.unboundProxy label) := by
  rcases noted_of_heard fuel g input l s t _ heard with ⟨_, _, _, failed, _⟩ | ⟨run, noted, same⟩
  · cases failed
  · refine ⟨run, noted, ?_⟩
    rcases ended : run.outcome with e | result
    all_goals
      rw [ended] at same
      cases same
    rfl

theorem run_tells (fuel : Nat) (run : Run) (noted : g.runWith fuel input = some run) (h : Hook) (mem : h ∈ run.hooks) :
    g.Tells input h := by
  have beside := obliging_heard (.both .noting (Listener.deaf (ε := Unit))) (fun _ _ => rfl) fuel g input ([], ())
  obtain ⟨last, willing⟩ := announce_obliging (Listener.deaf (ε := Unit)) (fun _ _ => rfl) run.hooks ()
  have first := (announce_beside .noting _ ([], ()) last run.hooks willing).1
  rw [announce_noting] at first
  rw [noted] at beside
  exact ⟨_, _, _, _, _, fuel, _, _, beside, first ▸ mem⟩

theorem told_unbound (c : Call) (id : Nat) (label : String) (tells : g.Tells input (.beforeMatch c))
    (proxy : c.rule.proxy? = some (id, label)) (lost : g.target? id = none) (l : Listener ε σ)
    (obliging : ∀ s h, (l s h).2 = none) (s : σ) :
    ∃ fuel t, g.heardWith fuel input l s = some (t, .error (.rule (.unboundProxy label))) := by
  obtain ⟨_, _, other, u, w, fuel, stream, outcome, heard, mem⟩ := tells
  obtain ⟨hooks, rfl, strikes, -⟩ := struck_root other g input fuel [] u stream w outcome heard
  obtain ⟨told, inside⟩ := strikes (.beforeMatch c) mem label ⟨id, proxy, lost⟩
  have ended : (g.runWith fuel input).map (·.outcome) = some (.error (.unboundProxy label)) := by
    simp only [Grammar.runWith, inside]
    rfl
  obtain ⟨run, noted, raised⟩ := Option.map_eq_some_iff.mp ended
  refine ⟨fuel, (announce l s run.hooks).1, ?_⟩
  rw [obliging_heard l obliging, noted, Option.map_some, raised]
  rfl

theorem heard_alike (h : Grammar) (root : h.root = g.root) (targets : ∀ id, h.target? id = g.target? id)
    (l : Listener ε σ) (fuel : Nat) : h.heardWith fuel input l = g.heardWith fuel input l := by
  have inside : h.invokeRoot (.heard l) fuel input = g.invokeRoot (.heard l) fuel input := by
    simp only [Grammar.invokeRoot, root]
    apply invoke_targets (h.setting input) (g.setting input) _ rfl
    intro id
    exact (target_live h id).trans ((targets id).trans (target_live g id).symm)
  simp only [Grammar.heardWith, inside, root]

theorem target_without (before after : List Binding) (b : Binding) (bindings : g.bindings = before ++ b :: after)
    (again : ∃ a ∈ before, a.proxy = b.proxy) (id : Nat) :
    { g with bindings := before ++ after }.target? id = g.target? id := by
  rw [Grammar.target?, Grammar.target?, bindings, later_ignored before after b again]
  rfl

/-- A run ends with the error of a proxy if and only if it comes to a proxy of that label to which nothing was bound, or
whose first target is held no longer; a proxy that is bound stays as it is, whatever one tries to bind to it later; and
no run ends so if all the proxies that runs can come to have first targets that are held. -/
theorem unbound_proxies_follow_ownership (numbered : g.Numbered) (honest : ∀ r, g.Reaches r → ¬ r.Forges)
    (l : Listener ε σ) (s : σ) :
    ((∀ s h, (l s h).2 = none) → ∀ label,
      (∃ fuel t, g.heardWith fuel input l s = some (t, .error (.rule (.unboundProxy label)))) ↔
        ∃ c id, g.Tells input (.beforeMatch c) ∧ c.rule.proxy? = some (id, label) ∧ g.Dangling id) ∧
    (∀ before b after, g.bindings = before ++ b :: after → (∃ a ∈ before, a.proxy = b.proxy) →
      (Binding.answers [] g.bindings)[before.length]? = some false ∧
        ∀ fuel, { g with bindings := before ++ after }.heardWith fuel input l s = g.heardWith fuel input l s) ∧
    ((∀ id label, g.Reaches (.proxy id label) → ∃ r, Binding.First g.bindings id r ∧ g.Holds r) →
      ∀ fuel t label, g.heardWith fuel input l s ≠ some (t, .error (.rule (.unboundProxy label)))) := by
  refine ⟨?_, ?_, ?_⟩
  · intro obliging label
    simp only [dangling_iff g numbered]
    constructor
    · rintro ⟨fuel, t, heard⟩
      obtain ⟨run, noted, raised⟩ := noted_unbound g input l s t fuel label heard
      obtain ⟨c, id, mem, proxy, lost, -⟩ := unbound_entered g honest fuel input run noted label raised
      exact ⟨c, id, run_tells g input fuel run noted _ mem, proxy, lost⟩
    · rintro ⟨c, id, tells, proxy, lost⟩
      exact told_unbound g input c id label tells proxy lost l obliging s
  · intro before b after bindings again
    refine ⟨?_, ?_⟩
    · rw [bindings]
      exact later_refused before after b [] (.inr again)
    · intro fuel
      have targets := target_without g before after b bindings again
      exact congrFun (heard_alike g input { g with bindings := before ++ after } rfl targets l fuel) s
  · intro kept fuel t label heard
    obtain ⟨run, noted, raised⟩ := noted_unbound g input l s t fuel label heard
    obtain ⟨c, id, -, -, lost, reached⟩ := unbound_entered g honest fuel input run noted label raised
    obtain ⟨r, first, held⟩ := kept id label reached
    rw [(target_iff g numbered id r).mpr ⟨first, held⟩] at lost
    cases lost

end Unbound

namespace Demo

def reference : Rule := .labelled 2 "Reference" (.proxy 3 "Letter")

-- A letter that was given up once it had been bound, and another one that was bound in its place too late.
def forgotten : Grammar where
  root := .sequence 0 [ch 1 'a', reference]
  rules := [("Letter", ch 4 'b')]
  bindings := [⟨3, ch 4 'b'⟩, ⟨3, ch 1 'a'⟩]
  dropped := ["Letter"]

end Demo

theorem forgotten_numbered : Demo.forgotten.Numbered :=
  numbered_within Demo.forgotten
    [Demo.forgotten.root, Demo.ch 1 'a', Demo.reference, .proxy 3 "Letter", Demo.ch 4 'b']
    (contains_within Demo.forgotten _ (by simp) (by simp [Demo.forgotten]) (by simp [Demo.forgotten])
      (by simp [Demo.forgotten, Demo.reference, Demo.ch, Rule.children])) (by decide)

theorem nested_numbered : Demo.nested.Numbered :=
  numbered_within Demo.nested Demo.nestRules
    (contains_within Demo.nested _ List.mem_cons_self (by simp [Demo.nested])
      (by simp [Demo.nested, Demo.nestRules]) nest_rules_down) (by decide)

theorem forgotten_honest (r : Rule) (reached : Demo.forgotten.Reaches r) : ¬ r.Forges := by
  have target : Demo.forgotten.target? 3 = none := rfl
  have known := reaches_within Demo.forgotten
    [Demo.forgotten.root, Demo.ch 1 'a', Demo.reference, .proxy 3 "Letter"]
    (by simp) (by simp [Demo.forgotten, Demo.reference, Demo.ch, Rule.children]) (by
      simp only [Demo.forgotten, Demo.reference, Demo.ch, List.mem_cons, reduceCtorEq, Rule.proxy.injEq, List.not_mem_nil,
        false_or, or_false]
      rintro id label r ⟨rfl, rfl⟩ bound
      cases target.symm.trans bound) r reached
  simp only [List.mem_cons, List.not_mem_nil, or_false] at known
  rcases known with rfl | rfl | rfl | rfl
  all_goals exact fun forges => forges

theorem nested_honest (r : Rule) (reached : Demo.nested.Reaches r) : ¬ r.Forges := by
  intro forges
  cases r with
  | custom => exact nested_plain _ reached
  | _ => exact forges

theorem forgotten_proxy_dangles :
    Demo.forgotten.Numbered ∧ (∀ r, Demo.forgotten.Reaches r → ¬ r.Forges) ∧
      (∃ c id, Demo.forgotten.Tells (.ofString "ab") (.beforeMatch c) ∧ c.rule.proxy? = some (id, "Letter") ∧
        Demo.forgotten.Dangling id) ∧
      (Binding.answers [] Demo.forgotten.bindings)[1]? = some false ∧
      Demo.nested.Numbered ∧ (∀ r, Demo.nested.Reaches r → ¬ r.Forges) ∧
      ∀ fuel t label, Demo.nested.heardWith fuel (.ofString "((") (Listener.deaf (ε := Unit)) () ≠
        some (t, .error (.rule (.unboundProxy label))) := by
  have lost := unbound_proxies_follow_ownership Demo.forgotten (.ofString "ab") forgotten_numbered forgotten_honest
    (Listener.deaf (ε := Unit)) ()
  have kept := unbound_proxies_follow_ownership Demo.nested (.ofString "((") nested_numbered nested_honest
    (Listener.deaf (ε := Unit)) ()
  refine ⟨forgotten_numbered, forgotten_honest, (lost.1 (fun _ _ => rfl) "Letter").mp ⟨5, (), rfl⟩,
    (lost.2.1 [⟨3, Demo.ch 4 'b'⟩] ⟨3, Demo.ch 1 'a'⟩ [] rfl ⟨_, List.mem_cons_self, rfl⟩).1, nested_numbered,
    nested_honest, kept.2.2 ?_⟩
  intro id label reached
  obtain ⟨r, live⟩ := nested_plain _ reached
  exact ⟨r, (target_iff Demo.nested nested_numbered id r).mp live⟩

end MatchTrace
