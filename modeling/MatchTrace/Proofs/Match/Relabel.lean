import MatchTrace.Proofs.Match.Adequacy
import MatchTrace.Proofs.Match.Audience
import MatchTrace.Proofs.Match.Pairing
import MatchTrace.Proofs.Rule.Ownership

/-!
Labels around rules. A labelled rule runs the body of the rule inside as its own, so a grammar with labels put around
its rules does what it does without them, hook by hook; only the rules that the hooks name are others.
-/

namespace MatchTrace

set_option autoImplicit false

def View.SameButLabel (v w : View) : Prop :=
  v.input = w.input ∧ v.index = w.index ∧ v.level = w.level ∧ v.ruleClass = w.ruleClass

-- The second rule is the first one with labels put around any of its nodes, as often as one likes.
inductive Rule.Wraps : Rule → Rule → Prop where
  | wrap (id : Nat) (label : String) (r q : Rule) : Wraps r q → Wraps r (.labelled id label q)
  | labelled (id : Nat) (label : String) (r q : Rule) : Wraps r q → Wraps (.labelled id label r) (.labelled id label q)
  | terminal (id : Nat) (t : Terminal) : Wraps (.terminal id t) (.terminal id t)
  | sequence (id : Nat) (rs qs : List Rule) : List.Forall₂ Wraps rs qs → Wraps (.sequence id rs) (.sequence id qs)
  | firstOf (id : Nat) (rs qs : List Rule) : List.Forall₂ Wraps rs qs → Wraps (.firstOf id rs) (.firstOf id qs)
  | optional (id : Nat) (r q : Rule) : Wraps r q → Wraps (.optional id r) (.optional id q)
  | zeroOrMore (id : Nat) (r q : Rule) : Wraps r q → Wraps (.zeroOrMore id r) (.zeroOrMore id q)
  | oneOrMore (id : Nat) (r q : Rule) : Wraps r q → Wraps (.oneOrMore id r) (.oneOrMore id q)
  | test (id : Nat) (r q : Rule) : Wraps r q → Wraps (.test id r) (.test id q)
  | testNot (id : Nat) (r q : Rule) : Wraps r q → Wraps (.testNot id r) (.testNot id q)
  | action (id : Nat) (label : String) (verdict : View → Except Cause Bool) :
      Wraps (.action id label verdict) (.action id label verdict)
  | proxy (id : Nat) (label : String) : Wraps (.proxy id label) (.proxy id label)
  | custom (id : Nat) (ruleClass : RuleClass) (label : String) (rs qs : List Rule) (script : Script) :
      List.Forall₂ Wraps rs qs → Wraps (.custom id ruleClass label rs script) (.custom id ruleClass label qs script)

namespace Rule

def under (labels : List (Nat × String)) (r : Rule) : Rule := labels.foldr (fun l inner => .labelled l.1 l.2 inner) r

mutual
def signed (labels : Nat → List (Nat × String)) : Rule → Rule
  | terminal id t => (terminal id t).under (labels id)
  | sequence id rs => (sequence id (signedAll labels rs)).under (labels id)
  | firstOf id rs => (firstOf id (signedAll labels rs)).under (labels id)
  | optional id r => (optional id (signed labels r)).under (labels id)
  | zeroOrMore id r => (zeroOrMore id (signed labels r)).under (labels id)
  | oneOrMore id r => (oneOrMore id (signed labels r)).under (labels id)
  | test id r => (test id (signed labels r)).under (labels id)
  | testNot id r => (testNot id (signed labels r)).under (labels id)
  | action id label verdict => (action id label verdict).under (labels id)
  | proxy id label => (proxy id label).under (labels id)
  | labelled id label r => (labelled id label (signed labels r)).under (labels id)
  | custom id ruleClass label rs script => (custom id ruleClass label (signedAll labels rs) script).under (labels id)
def signedAll (labels : Nat → List (Nat × String)) : List Rule → List Rule
  | [] => []
  | r :: rs => signed labels r :: signedAll labels rs
end

end Rule

-- A call of a rule, and the same call of that rule with labels: another label and identity only if there is a label
-- around the rule itself.
def Call.Relabelled (c d : Call) : Prop :=
  d.index = c.index ∧ d.level = c.level ∧ d.rule.ruleClass = c.rule.ruleClass ∧
    ((d.rule.id = c.rule.id ∧ d.rule.label = c.rule.label) ∨
      ∃ id label inner, d.rule = .labelled id label inner ∧ c.rule.Wraps inner)

inductive Hook.Relabelled : Hook → Hook → Prop where
  | beforeParse (c d : Call) (input : Input) : c.Relabelled d → Relabelled (.beforeParse c input) (.beforeParse d input)
  | beforeMatch (c d : Call) : c.Relabelled d → Relabelled (.beforeMatch c) (.beforeMatch d)
  | matchSuccess (c d : Call) : c.Relabelled d → Relabelled (.matchSuccess c) (.matchSuccess d)
  | matchFailure (c d : Call) : c.Relabelled d → Relabelled (.matchFailure c) (.matchFailure d)
  | afterParse (result : ParseResult) : Relabelled (.afterParse result) (.afterParse result)

def Trail.Relabelled (t u : Trail) : Prop := List.Forall₂ Hook.Relabelled t.hooks u.hooks ∧ u.ending = t.ending

namespace Grammar

-- The second grammar is the first one with labels put around its nodes. Which names it gives to them is its own matter.
structure Relabels (g h : Grammar) : Prop where
  root : g.root.Wraps h.root
  bindings : List.Forall₂ (fun b c => c.proxy = b.proxy ∧ b.target.Wraps c.target) g.bindings h.bindings

def KeepsTargets (g : Grammar) : Prop := ∀ id r, Binding.target? g.bindings id = some r → g.isAlive r = true

def signed (labels : Nat → List (Nat × String)) (g : Grammar) : Grammar where
  root := g.root.signed labels
  rules := g.rules.map fun p => (p.1, p.2.signed labels)
  bindings := g.bindings.map fun b => ⟨b.proxy, b.target.signed labels⟩
  dropped := g.dropped

-- Either both grammars come to an end on a text or neither does, with the same result or error, and the hooks are the same
-- but for the labels and identities of rules that got a label.
def SameButLabels (g h : Grammar) : Prop :=
  ∀ (ε : Type) (fuel : Nat) (input : Input),
    Option.Rel (fun heard other => List.Forall₂ Hook.Relabelled heard.1 other.1 ∧ other.2 = heard.2)
      (g.heardWith (ε := ε) fuel input .noting []) (h.heardWith (ε := ε) fuel input .noting [])

def relabelling (g h : Grammar) (input : Input) : Pairing where
  left := g.setting input
  right := h.setting input
  place := Eq
  sees := View.SameButLabel
  pair r q := g.Reaches r ∧ r.Wraps q

end Grammar

theorem wraps_class : ∀ q r : Rule, r.Wraps q → q.ruleClass = r.ruleClass
  | .labelled _ _ inner, r, wraps => by
      cases wraps with
      | wrap _ _ _ _ inside => exact wraps_class inner r inside
      | labelled _ _ r _ inside => exact wraps_class inner r inside
  | .terminal _ _, _, wraps | .sequence _ _, _, wraps | .firstOf _ _, _, wraps | .optional _ _, _, wraps
  | .zeroOrMore _ _, _, wraps | .oneOrMore _ _, _, wraps | .test _ _, _, wraps | .testNot _ _, _, wraps
  | .action _ _ _, _, wraps | .proxy _ _, _, wraps | .custom _ _ _ _ _, _, wraps => by
      cases wraps
      rfl

theorem wraps_call (r q : Rule) (wraps : r.Wraps q) (i level : Nat) :
    Call.Relabelled ⟨r, i, level⟩ ⟨q, i, level⟩ := by
  refine ⟨rfl, rfl, wraps_class q r wraps, ?_⟩
  cases wraps with
  | wrap id label _ inner inside => exact .inr ⟨id, label, inner, rfl, inside⟩
  | _ => exact .inl ⟨rfl, rfl⟩

theorem relabelled_closing (c d : Call) (same : c.Relabelled d) (v : Verdict) :
    (v.closing c).Relabelled (v.closing d) := by
  have there : Call.Relabelled { c with index := v.index } { d with index := v.index } := ⟨rfl, same.2⟩
  rcases v with ⟨_ | _, index⟩
  · exact .matchFailure _ _ there
  · exact .matchSuccess _ _ there

theorem relabelled_enclose (c d : Call) (same : c.Relabelled d) (t u : Trail) (inside : t.Relabelled u) :
    (t.enclose c).Relabelled (u.enclose d) := by
  rcases t with ⟨hooks, _⟩
  rcases u with ⟨hooks', ending⟩
  obtain ⟨told, rfl⟩ := inside
  refine ⟨.cons (.beforeMatch c d same) (List.rel_append told ?_), rfl⟩
  cases ending with
  | error e => exact .nil
  | ok v => exact .cons (relabelled_closing c d same v) .nil

theorem relabelled_couple : Couples Eq Mode.noted Mode.noted (Option.Rel Trail.Relabelled) where
  exhausted := .none
  conclude := by
    rintro matched i _ rfl
    exact .some ⟨.nil, rfl⟩
  abort e := .some ⟨.nil, rfl⟩
  andThen part other next onward same rest := by
    cases same with
    | none => exact .none
    | @some t u told =>
        rcases t with ⟨hooks, e | v⟩
        all_goals
          rcases u with ⟨hooks', _⟩
          obtain ⟨told, rfl⟩ := told
        · exact .some ⟨told, rfl⟩
        · have follows := rest v.matched v.index v.index rfl
          simp only [Mode.noted, Option.bind_some, Trail.andThen]
          generalize next ⟨v.matched, v.index⟩ = later, onward ⟨v.matched, v.index⟩ = later' at follows ⊢
          cases follows with
          | none => exact .none
          | some after => exact .some ⟨List.rel_append told after.1, after.2⟩

section Relabel

variable (g h : Grammar) (input : Input)

theorem kept_target (kept : g.KeepsTargets) (id : Nat) : g.target? id = Binding.target? g.bindings id := by
  rw [Grammar.target?]
  cases bound : Binding.target? g.bindings id with
  | none => rfl
  | some r => rw [Option.filter_some, kept id r bound, if_pos rfl]

theorem keeps_all (alive : g.bindings.all (fun b => g.isAlive b.target) = true) : g.KeepsTargets := by
  intro id r bound
  obtain ⟨b, first, rfl⟩ := Option.map_eq_some_iff.mp bound
  exact List.all_eq_true.mp alive b (List.mem_of_find?_eq_some first)

theorem bound_alike (bindings others : List Binding)
    (alike : List.Forall₂ (fun b c => c.proxy = b.proxy ∧ b.target.Wraps c.target) bindings others) (id : Nat) :
    Option.Rel Rule.Wraps (Binding.target? bindings id) (Binding.target? others id) := by
  simp only [Binding.target?]
  induction alike with
  | nil => exact .none
  | cons first _ ih =>
      obtain ⟨proxy, target⟩ := first
      simp only [List.find?_cons, proxy]
      split
      · exact .some target
      · exact ih

theorem paired_children (r : Rule) (reached : g.Reaches r) (qs : List Rule)
    (wraps : List.Forall₂ Rule.Wraps r.children qs) : List.Forall₂ (g.relabelling h input).pair r.children qs :=
  (List.forall₂_and_left _ _).mpr ⟨fun c mem => .child r c reached mem, wraps⟩

section Runs

variable (relabels : g.Relabels h) (kept : g.KeepsTargets) (kept' : h.KeepsTargets)
  (blind : ∀ r, g.Reaches r → r.Blind View.SameButLabel)

include relabels kept kept' in
theorem targets_paired (id : Nat) (label : String) (reached : g.Reaches (.proxy id label)) :
    Option.Rel (g.relabelling h input).pair (Binding.target? g.liveBindings id) (Binding.target? h.liveBindings id) := by
  have alike := bound_alike g.bindings h.bindings relabels.bindings id
  rw [← kept_target g kept, ← kept_target h kept'] at alike
  rw [target_live, target_live]
  have arrives (r : Rule) (bound : g.target? id = some r) : g.Reaches r := .target id label r reached bound
  generalize g.target? id = bound, h.target? id = bound' at alike arrives ⊢
  cases alike with
  | none => exact .none
  | some wraps => exact .some ⟨arrives _ rfl, wraps⟩

include relabels kept kept' blind in
theorem wraps_bodies : ∀ q r : Rule, g.Reaches r → r.Wraps q → (g.relabelling h input).Bodies r q
  | .labelled id label inner, r, reached, wraps => by
      cases wraps with
      | wrap _ _ _ _ inside => exact .right id label r inner (wraps_bodies inner r reached inside)
      | labelled _ _ r _ inside =>
          apply Pairing.Bodies.left
          exact .right id label r inner (wraps_bodies inner r (.child _ r reached List.mem_cons_self) inside)
  | .terminal id t, _, _, wraps => by
      cases wraps
      exact .terminal id t
  | .sequence id qs, r, reached, wraps => by
      cases wraps with
      | sequence _ rs _ children => exact .sequence id rs qs (paired_children g h input _ reached qs children)
  | .firstOf id qs, r, reached, wraps => by
      cases wraps with
      | firstOf _ rs _ children => exact .firstOf id rs qs (paired_children g h input _ reached qs children)
  | .optional id q, r, reached, wraps => by
      cases wraps with
      | optional _ r _ inside => exact .optional id r q ⟨.child _ r reached List.mem_cons_self, inside⟩
  | .zeroOrMore id q, r, reached, wraps => by
      cases wraps with
      | zeroOrMore _ r _ inside => exact .zeroOrMore id r q ⟨.child _ r reached List.mem_cons_self, inside⟩
  | .oneOrMore id q, r, reached, wraps => by
      cases wraps with
      | oneOrMore _ r _ inside => exact .oneOrMore id r q ⟨.child _ r reached List.mem_cons_self, inside⟩
  | .test id q, r, reached, wraps => by
      cases wraps with
      | test _ r _ inside => exact .test id r q ⟨.child _ r reached List.mem_cons_self, inside⟩
  | .testNot id q, r, reached, wraps => by
      cases wraps with
      | testNot _ r _ inside => exact .testNot id r q ⟨.child _ r reached List.mem_cons_self, inside⟩
  | .action id label verdict, r, reached, wraps => by
      cases wraps
      exact .action id label verdict (blind _ reached)
  | .proxy id label, r, reached, wraps => by
      cases wraps
      exact .proxy id label (targets_paired g h input relabels kept kept' id label reached)
  | .custom id ruleClass label qs script, r, reached, wraps => by
      cases wraps with
      | custom _ _ _ rs _ _ children =>
          exact .custom id ruleClass label rs qs script (Pairing.steady_in_place _ rfl)
            (paired_children g h input _ reached qs children) (blind _ reached)

include relabels kept kept' blind in
theorem relabelled_invokes :
    (g.relabelling h input).Invokes Eq Mode.noted Mode.noted (Option.Rel Trail.Relabelled) where
  bodies r q paired := wraps_bodies g h input relabels kept kept' blind q r paired.1 paired.2
  deeper := by
    rintro d _ rfl
    rfl
  seen := by
    rintro r q i _ d _ ⟨_, wraps⟩ rfl rfl
    exact ⟨rfl, rfl, rfl, (wraps_class q r wraps).symm⟩
  enclose := by
    rintro r q i _ d _ part other ⟨_, wraps⟩ rfl rfl same
    simp only [Mode.noted]
    generalize part () = t, other () = u at same ⊢
    cases same with
    | none => exact .none
    | some inside => exact .some (relabelled_enclose _ _ (wraps_call r q wraps i d) _ _ inside)

end Runs

theorem relabelled_runs (relabels : g.Relabels h) (kept : g.KeepsTargets) (kept' : h.KeepsTargets)
    (blind : ∀ r, g.Reaches r → r.Blind View.SameButLabel) : g.SameButLabels h := by
  intro ε fuel input
  have inside := (relabelled_invokes g h input relabels kept kept' blind).invoke
    relabelled_couple (Pairing.aligned_in_place (g.relabelling h input) rfl rfl) fuel 0 0 rfl
    g.root h.root ⟨.root, relabels.root⟩ 0 0 rfl
  simp only [noting_heard, Grammar.runWith, Grammar.invokeRoot]
  change Option.Rel Trail.Relabelled (invoke .noted (g.setting input) fuel 0 g.root 0)
    (invoke .noted (h.setting input) fuel 0 h.root 0) at inside
  generalize invoke .noted (g.setting input) fuel 0 g.root 0 = part, invoke .noted (h.setting input) fuel 0 h.root 0 = other
    at inside ⊢
  cases inside with
  | none => exact .none
  | @some t u told =>
      rcases t with ⟨hooks, _⟩
      rcases u with ⟨hooks', ending⟩
      obtain ⟨told, rfl⟩ := told
      refine .some ⟨.cons (.beforeParse _ _ input (wraps_call _ _ relabels.root 0 0)) (List.rel_append told ?_), rfl⟩
      cases ending with
      | error e => exact .nil
      | ok v => exact .cons (.afterParse _) .nil

end Relabel

section Signed

variable (labels : Nat → List (Nat × String)) (g : Grammar)

theorem wraps_under (around : List (Nat × String)) (r q : Rule) (wraps : r.Wraps q) : r.Wraps (q.under around) := by
  induction around with
  | nil => exact wraps
  | cons first _ ih => exact .wrap first.1 first.2 r _ ih

mutual
theorem signed_wraps : ∀ r : Rule, r.Wraps (r.signed labels)
  | .terminal id t => wraps_under _ _ _ (.terminal id t)
  | .sequence id rs => wraps_under _ _ _ (.sequence id rs _ (signed_all_wraps rs))
  | .firstOf id rs => wraps_under _ _ _ (.firstOf id rs _ (signed_all_wraps rs))
  | .optional id r => wraps_under _ _ _ (.optional id r _ (signed_wraps r))
  | .zeroOrMore id r => wraps_under _ _ _ (.zeroOrMore id r _ (signed_wraps r))
  | .oneOrMore id r => wraps_under _ _ _ (.oneOrMore id r _ (signed_wraps r))
  | .test id r => wraps_under _ _ _ (.test id r _ (signed_wraps r))
  | .testNot id r => wraps_under _ _ _ (.testNot id r _ (signed_wraps r))
  | .action id label verdict => wraps_under _ _ _ (.action id label verdict)
  | .proxy id label => wraps_under _ _ _ (.proxy id label)
  | .labelled id label r => wraps_under _ _ _ (.labelled id label r _ (signed_wraps r))
  | .custom id ruleClass label rs script =>
      wraps_under _ _ _ (.custom id ruleClass label rs _ script (signed_all_wraps rs))
theorem signed_all_wraps : ∀ rs : List Rule, List.Forall₂ Rule.Wraps rs (Rule.signedAll labels rs)
  | [] => .nil
  | r :: rs => .cons (signed_wraps r) (signed_all_wraps rs)
end

theorem signed_relabels : g.Relabels (g.signed labels) where
  root := signed_wraps labels g.root
  bindings := by
    simp only [Grammar.signed, List.forall₂_map_right_iff, List.forall₂_same]
    exact fun b _ => ⟨trivial, signed_wraps labels b.target⟩

theorem signed_target (bindings : List Binding) (id : Nat) :
    Binding.target? (bindings.map fun b => ⟨b.proxy, b.target.signed labels⟩) id =
      (Binding.target? bindings id).map (·.signed labels) := by
  simp only [Binding.target?, List.find?_map, Option.map_map]
  rfl

theorem signed_all_mem (c : Rule) (rs : List Rule) (mem : c ∈ rs) : c.signed labels ∈ Rule.signedAll labels rs := by
  induction mem with
  | head => exact List.mem_cons_self
  | tail _ _ ih => exact List.mem_cons_of_mem _ ih

theorem signed_children (r : Rule) :
    ∃ q : Rule, r.signed labels = q.under (labels r.id) ∧ q.children = Rule.signedAll labels r.children := by
  cases r <;> exact ⟨_, rfl, rfl⟩

theorem held_under (around : List (Nat × String)) (r : Rule) (held : g.Holds (r.under around)) : g.Holds r := by
  induction around with
  | nil => exact held
  | cons first _ ih => exact ih (.child _ _ held List.mem_cons_self)

theorem signed_held (r : Rule) (held : g.Holds r) : (g.signed labels).Holds (r.signed labels) := by
  induction held with
  | root => exact .root
  | named name r mem kept => exact .named name _ (List.mem_map_of_mem mem) kept
  | child r c _ mem ih =>
      obtain ⟨q, same, children⟩ := signed_children labels r
      have below := held_under _ _ q (same ▸ ih)
      exact .child q _ below (children ▸ signed_all_mem labels c r.children mem)

-- Targets stay alive where every node has its labels around it in all its places, be it held or bound there.
theorem signed_keeps (numbered : g.Numbered) (numbered' : (g.signed labels).Numbered) (kept : g.KeepsTargets) :
    (g.signed labels).KeepsTargets := by
  intro id q bound
  rw [show (g.signed labels).bindings = g.bindings.map _ from rfl, signed_target] at bound
  obtain ⟨r, first, rfl⟩ := Option.map_eq_some_iff.mp bound
  have held := ((target_iff g numbered id r).mp ((kept_target g kept id).trans first)).2
  have held' := signed_held labels g r held
  exact (alive_iff_held _ numbered' _ (contains_held _ _ held')).mpr held'

end Signed

/-- A grammar whose targets stay alive, and whose own code cannot see by what rule it is run, runs as it does with labels
put around its nodes, in any places that keep the targets alive. Labels that each node gets in all its places do. -/
theorem labels_change_names_only (g : Grammar) (kept : g.KeepsTargets)
    (blind : ∀ r, g.Reaches r → r.Blind View.SameButLabel) :
    (∀ h, g.Relabels h → h.KeepsTargets → g.SameButLabels h) ∧
      (g.Numbered → ∀ labels, (g.signed labels).Numbered → g.SameButLabels (g.signed labels)) := by
  refine ⟨fun h relabels kept' => relabelled_runs g h relabels kept kept' blind, ?_⟩
  intro numbered labels numbered'
  have kept' := signed_keeps labels g numbered numbered' kept
  exact relabelled_runs g _ (signed_relabels labels g) kept kept' blind

namespace Demo

def stop : Rule := .action 4 "stop" fun v => if v.index = 1 then .error ⟨"refused", []⟩ else .ok true

-- A letter that is read for somebody else, and a check behind it that cannot be made there.
def errand : Grammar where
  root := .custom 0 (.base 40 "Errand") "Errand" [.proxy 1 "Letter"] (.call 0 .finish)
  rules := [("Letter", .sequence 2 [ch 3 'a', stop])]
  bindings := [⟨1, .sequence 2 [ch 3 'a', stop]⟩]

def signature : Nat → List (Nat × String)
  | 0 => [(10, "Root"), (11, "Start")]
  | 1 => [(12, "Reference")]
  | 2 => [(13, "Signed")]
  | 4 => [(14, "Stop")]
  | _ => []

def signedRoot : Rule :=
  .custom 0 (.base 40 "Errand") "Errand" [.labelled 12 "Reference" (.proxy 1 "Letter")] (.call 0 .finish)

def signedLetter : Rule := .labelled 13 "Signed" (.sequence 2 [ch 3 'a', .labelled 14 "Stop" stop])

def signedNodes : List Rule :=
  [.labelled 10 "Root" (.labelled 11 "Start" signedRoot), .labelled 11 "Start" signedRoot, signedRoot,
    .labelled 12 "Reference" (.proxy 1 "Letter"), .proxy 1 "Letter", signedLetter,
    .sequence 2 [ch 3 'a', .labelled 14 "Stop" stop], ch 3 'a', .labelled 14 "Stop" stop, stop]

end Demo

theorem errand_numbered : Demo.errand.Numbered :=
  numbered_within Demo.errand
    [Demo.errand.root, .proxy 1 "Letter", .sequence 2 [Demo.ch 3 'a', Demo.stop], Demo.ch 3 'a', Demo.stop]
    (contains_within Demo.errand _ (by simp) (by simp [Demo.errand]) (by simp [Demo.errand])
      (by simp [Demo.errand, Demo.stop, Demo.ch, Rule.children])) (by decide)

theorem signed_errand_numbered : (Demo.errand.signed Demo.signature).Numbered := by
  have target : Demo.signedLetter ∈ Demo.signedNodes := by simp [Demo.signedNodes]
  apply numbered_within _ Demo.signedNodes ?_ (by decide)
  apply contains_within _ Demo.signedNodes List.mem_cons_self
  · exact List.forall_mem_singleton.mpr target
  · exact List.forall_mem_singleton.mpr target
  · simp [Demo.signedNodes, Demo.signedRoot, Demo.signedLetter, Demo.stop, Demo.ch, Rule.children]

theorem errand_blind (r : Rule) (reached : Demo.errand.Reaches r) : r.Blind View.SameButLabel := by
  have target : Demo.errand.target? 1 = some (.sequence 2 [Demo.ch 3 'a', Demo.stop]) := rfl
  have known := reaches_within Demo.errand
    [Demo.errand.root, .proxy 1 "Letter", .sequence 2 [Demo.ch 3 'a', Demo.stop], Demo.ch 3 'a', Demo.stop]
    (by simp) (by simp [Demo.errand, Demo.stop, Demo.ch, Rule.children]) (by
      simp only [Demo.errand, Demo.stop, Demo.ch, List.mem_cons, reduceCtorEq, Rule.proxy.injEq, List.not_mem_nil,
        false_or, or_false]
      rintro id label r ⟨rfl, rfl⟩ bound
      exact .inr (.inr (.inl (Option.some.inj (bound.symm.trans target))))) r reached
  simp only [List.mem_cons, List.not_mem_nil, or_false] at known
  rcases known with rfl | rfl | rfl | rfl | rfl
  · intro told told' alike
    cases alike with
    | nil => rfl
    | cons first _ => cases first <;> rfl
  · trivial
  · trivial
  · trivial
  · rintro v w ⟨-, index, -, -⟩
    simp only [index]

theorem signed_errand_fails_alike :
    Demo.errand.KeepsTargets ∧ (∀ r, Demo.errand.Reaches r → r.Blind View.SameButLabel) ∧ Demo.errand.Numbered ∧
      (Demo.errand.signed Demo.signature).Numbered ∧
      ∃ hooks, hooks.length = 7 ∧
        (Demo.errand.signed Demo.signature).heardWith (ε := Unit) 5 (.ofString "a") .noting [] =
          some (hooks, .error (.rule (.actionFailed "stop" ⟨"refused", []⟩))) := by
  have kept : Demo.errand.KeepsTargets := keeps_all Demo.errand rfl
  refine ⟨kept, errand_blind, errand_numbered, signed_errand_numbered, ?_⟩
  have alike := (labels_change_names_only Demo.errand kept errand_blind).2 errand_numbered Demo.signature
    signed_errand_numbered Unit 5 (.ofString "a")
  have plain : (Demo.errand.heardWith (ε := Unit) 5 (.ofString "a") .noting []).map (fun heard => (heard.1.length, heard.2))
      = some (7, .error (.rule (.actionFailed "stop" ⟨"refused", []⟩))) := rfl
  generalize Demo.errand.heardWith (ε := Unit) 5 (.ofString "a") .noting [] = heard,
    (Demo.errand.signed Demo.signature).heardWith (ε := Unit) 5 (.ofString "a") .noting [] = other at alike plain ⊢
  cases alike with
  | none => cases plain
  | @some first second same =>
      obtain ⟨hooks, ending⟩ := second
      obtain ⟨told, same⟩ := same
      obtain ⟨seven, raised⟩ := Prod.mk.inj (Option.some.inj plain)
      exact ⟨hooks, told.length_eq ▸ seven, congrArg (fun e => some (hooks, e)) (same.trans raised)⟩

end MatchTrace
