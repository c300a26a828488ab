import Mathlib.Data.List.Chain
import MatchTrace.Proofs.Match.Adequacy
import MatchTrace.Proofs.Match.Audience

/-!
The invocations that are open at each hook of a run. A run that comes to a result closes all it opened. One that
ends in an error leaves open the calls from the root down to the rule that raised it, each made by the one
around it.
-/

namespace MatchTrace

set_option autoImplicit false

namespace Grammar

-- The rules that the body of a rule runs. A relabelled rule has the body of the rule inside.
def callees (g : Grammar) : Rule → List Rule
  | .proxy id _ => (g.target? id).toList
  | .labelled _ _ inner => g.callees inner
  | r => r.children

-- The errors that the body of a rule raises by itself, whatever its children do.
def Raises (g : Grammar) (view : View) (e : RuleError) : Rule → Prop
  | .action _ label verdict => ∃ cause, verdict view = .error cause ∧ e = .actionFailed label cause
  | .proxy id label => g.target? id = none ∧ e = .unboundProxy label
  | .labelled _ _ inner => g.Raises view e inner
  | .custom _ _ _ _ script => ∃ answers, script answers = .abort e
  | _ => False

end Grammar

def Call.view (c : Call) (t : Input) : View := ⟨t, c.index, c.level, c.rule.label, c.rule.ruleClass⟩

structure Mode.Keeps {ρ : Type} (m : Mode ρ) (Q : ρ → Prop) : Prop where
  exhausted : Q m.exhausted
  conclude : ∀ v, Q (m.conclude v)
  andThen : ∀ part next, Q part → (∀ v, Q (next v)) → Q (m.andThen part next)

namespace Mode.Keeps

variable {ρ : Type} {m : Mode ρ} {Q : ρ → Prop} (keeps : m.Keeps Q) (run : Attempt ρ)

include keeps

theorem attempt (r : Rule) (i : Nat) (next : Bool → Nat → ρ) (child : Q (run r i)) (rest : ∀ ok j, Q (next ok j)) :
    Q (m.attempt run r i next) :=
  keeps.andThen _ _ child fun v => rest v.matched (v.resume i)

theorem in_order (rs : List Rule) (i : Nat) (children : ∀ r ∈ rs, ∀ i, Q (run r i)) : Q (m.inOrder run rs i) := by
  induction rs generalizing i with
  | nil => exact keeps.conclude _
  | cons r rs ih =>
      apply keeps.attempt run r i _ (children r List.mem_cons_self i)
      intro ok j
      cases ok with
      | true => exact ih j fun r mem => children r (List.mem_cons_of_mem _ mem)
      | false => exact keeps.conclude _

theorem one_of (rs : List Rule) (i : Nat) (children : ∀ r ∈ rs, ∀ i, Q (run r i)) : Q (m.oneOf run rs i) := by
  induction rs generalizing i with
  | nil => exact keeps.conclude _
  | cons r rs ih =>
      apply keeps.attempt run r i _ (children r List.mem_cons_self i)
      intro ok j
      cases ok with
      | true => exact keeps.conclude _
      | false => exact ih j fun r mem => children r (List.mem_cons_of_mem _ mem)

theorem repeated (r : Rule) (fuel : Nat) (enough : Bool) (i : Nat) (child : ∀ i, Q (run r i)) :
    Q (m.repeated run r fuel enough i) := by
  induction fuel generalizing enough i with
  | zero => exact keeps.exhausted
  | succ fuel ih =>
      apply keeps.attempt run r i _ (child i)
      intro ok j
      cases ok with
      | false => exact keeps.conclude _
      | true =>
          simp only [if_true]
          split
          · exact keeps.conclude _
          · exact ih true j

theorem follow (view : Nat → View) (rules : List Rule) (fuel : Nat) (script : Script) (i : Nat)
    (children : ∀ r ∈ rules, ∀ i, Q (run r i)) (raised : ∀ answers e, script answers = .abort e → Q (m.abort e)) :
    Q (m.follow run view rules fuel script i) := by
  induction fuel generalizing script i with
  | zero => exact keeps.exhausted
  | succ fuel ih =>
      have later (a : Answer) : ∀ answers e, script.after a answers = .abort e → Q (m.abort e) :=
        fun answers e aborted => raised (a :: answers) e aborted
      simp only [Mode.follow]
      cases move : script.next with
      | finish matched => exact keeps.conclude _
      | abort e => exact raised [] e move
      | advance count => exact ih _ _ (later _)
      | moveTo j => exact ih _ _ (later _)
      | look => exact ih _ _ (later _)
      | call child =>
          dsimp only
          cases found : rules[child]? with
          | none => exact ih _ _ (later _)
          | some r =>
              apply keeps.attempt run r i _ (children r (List.mem_of_getElem? found) i)
              exact fun ok j => ih _ j (later _)

theorem body (g : Grammar) (t : Input) (fuel : Nat) (view : Nat → View) :
    ∀ (r : Rule) (i : Nat), (∀ c ∈ g.callees r, ∀ j, Q (run c j)) →
      (∀ e, g.Raises (view i) e r → Q (m.abort e)) → Q (body m (g.setting t) fuel run view r i)
  | .terminal _ terminal, i, _, _ => by
      simp only [MatchTrace.body]
      cases terminal.width (g.setting t).input i with
      | none => exact keeps.conclude _
      | some n => exact keeps.conclude _
  | .sequence _ rs, i, children, _ => keeps.in_order run rs i children
  | .firstOf _ rs, i, children, _ => keeps.one_of run rs i children
  | .optional _ r, i, children, _ =>
      keeps.attempt run r i _ (children r List.mem_cons_self i) fun _ _ => keeps.conclude _
  | .zeroOrMore _ r, i, children, _ => keeps.repeated run r fuel true i (children r List.mem_cons_self)
  | .oneOrMore _ r, i, children, _ => keeps.repeated run r fuel false i (children r List.mem_cons_self)
  | .test _ r, i, children, _ =>
      keeps.attempt run r i _ (children r List.mem_cons_self i) fun _ _ => keeps.conclude _
  | .testNot _ r, i, children, _ =>
      keeps.attempt run r i _ (children r List.mem_cons_self i) fun _ _ => keeps.conclude _
  | .action _ label verdict, i, _, raised => by
      simp only [MatchTrace.body]
      cases answer : verdict (view i) with
      | ok matched => exact keeps.conclude _
      | error cause => exact raised _ ⟨cause, answer, rfl⟩
  | .proxy id label, i, children, raised => by
      simp only [MatchTrace.body, Grammar.setting, target_live]
      cases bound : g.target? id with
      | none => exact raised _ ⟨bound, rfl⟩
      | some r =>
          have mem : r ∈ g.callees (.proxy id label) := by simp [Grammar.callees, bound]
          exact keeps.attempt run r i _ (children r mem i) fun _ _ => keeps.conclude _
  | .labelled _ _ inner, i, children, raised => body g t fuel view inner i children raised
  | .custom _ _ _ rules script, i, children, raised =>
      keeps.follow run view rules fuel script i children fun answers e aborted => raised e ⟨answers, aborted⟩

end Mode.Keeps

-- The hook that may come next while the calls listed are open, innermost first, and those open after it.
inductive Hook.Follows : List Call → Hook → List Call → Prop where
  | enter (opened : List Call) (c : Call) : c.level = opened.length → Follows opened (.beforeMatch c) (c :: opened)
  | success (opened : List Call) (c d : Call) :
      d.rule = c.rule → d.level = c.level → Follows (c :: opened) (.matchSuccess d) opened
  | failure (opened : List Call) (c d : Call) :
      d.rule = c.rule → d.level = c.level → Follows (c :: opened) (.matchFailure d) opened

inductive Hook.Nests : List Call → List Hook → List Call → Prop where
  | nil (opened : List Call) : Nests opened [] opened
  | cons (opened after left : List Call) (h : Hook) (hs : List Hook) :
      Follows opened h after → Nests after hs left → Nests opened (h :: hs) left

theorem follows_closing (opened : List Call) (c : Call) (v : Verdict) :
    Hook.Follows (c :: opened) (v.closing c) opened := by
  rcases v with ⟨_ | _, index⟩
  · exact .failure opened c _ rfl rfl
  · exact .success opened c _ rfl rfl

theorem hook_nests_append (opened middle left : List Call) (hs ks : List Hook) (first : Hook.Nests opened hs middle)
    (second : Hook.Nests middle ks left) : Hook.Nests opened (hs ++ ks) left := by
  induction first with
  | nil => exact second
  | cons opened after _ h hs follows _ ih => exact .cons opened after left h _ follows (ih second)

theorem nests_closed (opened : List Call) : ∃ rest, Hook.Nests opened rest [] := by
  induction opened with
  | nil => exact ⟨[], .nil []⟩
  | cons c opened ih =>
      obtain ⟨rest, closed⟩ := ih
      exact ⟨_, .cons _ opened [] _ rest (follows_closing opened c ⟨false, c.index⟩) closed⟩

def Levelled (opened : List Call) : Prop := opened.map (·.level) = (List.range opened.length).reverse

theorem nests_levelled (opened left : List Call) (hooks : List Hook) (nests : Hook.Nests opened hooks left)
    (levelled : Levelled opened) : Levelled left := by
  induction nests with
  | nil => exact levelled
  | cons opened after left h hs follows _ ih =>
      apply ih
      cases follows with
      | enter _ c level => simpa [Levelled, List.range_succ, level] using levelled
      | success _ c d _ _ => simpa [Levelled, List.range_succ] using congrArg List.tail levelled
      | failure _ c d _ _ => simpa [Levelled, List.range_succ] using congrArg List.tail levelled

section Stand

variable (g : Grammar) (t : Input)

def Grammar.Makes (inner outer : Call) : Prop := inner.rule ∈ g.callees outer.rule

-- What a part of a run leaves open that began with `opened` open: nothing more if it comes to a verdict, and else
-- all calls down to the one whose body raised the error.
def Grammar.Leaves (opened : List Call) (ending : Except RuleError Verdict) (left : List Call) : Prop :=
  match ending with
  | .ok _ => left = opened
  | .error e => opened <:+ left ∧ left.IsChain g.Makes ∧ ∃ c rest, left = c :: rest ∧ g.Raises (c.view t) e c.rule

def Grammar.Stands (opened : List Call) (part : Option Trail) : Prop :=
  ∀ trail, part = some trail → ∃ left, Hook.Nests opened trail.hooks left ∧ g.Leaves t opened trail.ending left

theorem stands_keeps (opened : List Call) : Mode.noted.Keeps (g.Stands t opened) where
  exhausted trail eq := nomatch eq
  conclude v trail eq := by
    cases eq
    exact ⟨opened, .nil opened, rfl⟩
  andThen part next first rest := by
    intro whole eq
    obtain ⟨trail, rfl, eq⟩ := Option.bind_eq_some_iff.mp eq
    obtain ⟨left, nests, leaves⟩ := first trail rfl
    rcases trail with ⟨hooks, e | v⟩
    · cases eq
      exact ⟨left, nests, leaves⟩
    · obtain ⟨second, ran, rfl⟩ := Option.map_eq_some_iff.mp eq
      obtain ⟨last, nests', leaves'⟩ := rest v second ran
      obtain rfl : left = opened := leaves
      exact ⟨last, hook_nests_append _ _ _ _ _ nests nests', leaves'⟩

theorem stands_enclose (c : Call) (opened : List Call) (level : c.level = opened.length) (part : Unit → Option Trail)
    (inside : g.Stands t (c :: opened) (part ())) : g.Stands t opened (Mode.noted.enclose c part) := by
  intro whole eq
  obtain ⟨trail, ran, rfl⟩ := Option.map_eq_some_iff.mp eq
  obtain ⟨left, nests, leaves⟩ := inside trail ran
  have entered := Hook.Nests.cons opened _ left _ trail.hooks (.enter opened c level) nests
  rcases trail with ⟨hooks, e | v⟩
  · refine ⟨left, ?_, (List.suffix_cons c opened).trans leaves.1, leaves.2⟩
    simpa [Trail.enclose, Trail.closing] using entered
  · obtain rfl : left = c :: opened := leaves
    refine ⟨opened, ?_, rfl⟩
    exact hook_nests_append _ _ _ _ _ entered (.cons _ _ _ _ [] (follows_closing opened c v) (.nil opened))

theorem stands_body (fuel : Nat) (opened : List Call) (r : Rule) (i : Nat)
    (made : (⟨r, i, opened.length⟩ :: opened).IsChain g.Makes)
    (children : ∀ c j, (⟨c, j, opened.length + 1⟩ :: ⟨r, i, opened.length⟩ :: opened).IsChain g.Makes →
      g.Stands t (⟨r, i, opened.length⟩ :: opened) (invoke .noted (g.setting t) fuel (opened.length + 1) c j)) :
    g.Stands t (⟨r, i, opened.length⟩ :: opened)
      (body .noted (g.setting t) fuel (invoke .noted (g.setting t) fuel (opened.length + 1))
        (fun j => ⟨t, j, opened.length, r.label, r.ruleClass⟩) r i) := by
  apply (stands_keeps g t _).body
  · intro c mem j
    exact children c j (.cons_cons mem made)
  · intro e raises trail eq
    cases eq
    exact ⟨_, .nil _, List.suffix_refl _, made, _, _, rfl, raises⟩

theorem stands_invoke (fuel : Nat) (opened : List Call) (r : Rule) (i : Nat)
    (made : (⟨r, i, opened.length⟩ :: opened).IsChain g.Makes) :
    g.Stands t opened (invoke .noted (g.setting t) fuel opened.length r i) := by
  induction fuel generalizing opened r i with
  | zero => exact fun trail eq => nomatch eq
  | succ fuel ih =>
      apply stands_enclose g t ⟨r, i, opened.length⟩ opened rfl
      exact stands_body g t fuel opened r i made fun c j => ih (⟨r, i, opened.length⟩ :: opened) c j

end Stand

theorem run_stands (fuel : Nat) (g : Grammar) (input : Input) (run : Run) (noted : g.runWith fuel input = some run) :
    ∃ hooks left, run.hooks = .beforeParse ⟨g.root, 0, 0⟩ input :: (hooks ++ lastHooks run.outcome) ∧
      hooks.head? = some (.beforeMatch ⟨g.root, 0, 0⟩) ∧ Hook.Nests [] hooks left ∧
      match run.outcome with
      | .ok _ => left = []
      | .error e => [⟨g.root, 0, 0⟩] <:+ left ∧ left.IsChain g.Makes ∧
          ∃ c rest, left = c :: rest ∧ g.Raises (c.view input) e c.rule := by
  obtain ⟨whole, ran, rfl⟩ := Option.map_eq_some_iff.mp noted
  cases fuel with
  | zero => cases ran
  | succ fuel =>
      obtain ⟨trail, inner, rfl⟩ := Option.map_eq_some_iff.mp ran
      have inside : g.Stands input [⟨g.root, 0, 0⟩] (some trail) := by
        rw [← inner]
        exact stands_body g input fuel [] g.root 0 (.singleton _) (stands_invoke g input fuel [⟨g.root, 0, 0⟩])
      obtain ⟨left, nests, leaves⟩ := inside trail rfl
      have entered := Hook.Nests.cons [] _ left _ trail.hooks (.enter [] ⟨g.root, 0, 0⟩ rfl) nests
      rcases trail with ⟨hooks, e | v⟩
      · refine ⟨.beforeMatch ⟨g.root, 0, 0⟩ :: hooks, left, ?_, rfl, entered, leaves⟩
        simp [Trail.toRun, Trail.enclose, Trail.closing, Except.map]
      · obtain rfl : left = [⟨g.root, 0, 0⟩] := leaves
        refine ⟨.beforeMatch ⟨g.root, 0, 0⟩ :: (hooks ++ [v.closing ⟨g.root, 0, 0⟩]), [], rfl, rfl, ?_, rfl⟩
        exact hook_nests_append _ _ _ _ _ entered (.cons _ _ _ _ [] (follows_closing [] ⟨g.root, 0, 0⟩ v) (.nil []))

theorem noting_beside {ε σ : Type} (fuel : Nat) (g : Grammar) (input : Input) (l : Listener ε σ)
    (obliging : ∀ s h, (l s h).2 = none) (s t : σ) (stream : List Hook) (outcome : Except (RunError ε) ParseResult)
    (heard : g.heardWith fuel input (.both .noting l) ([], s) = some ((stream, t), outcome)) :
    ∃ run, g.runWith fuel input = some run ∧ run.hooks = stream ∧ run.outcome.mapError .rule = outcome := by
  obtain ⟨run, noted, told, same⟩ := obliging_run (.both .noting l) (fun u h => obliging u.2 h) fuel g input ([], s)
    (stream, t) outcome heard
  have first := announce_first .noting l _ _ run.hooks told
  rw [announce_noting] at first
  exact ⟨run, noted, congrArg Prod.fst first, same⟩

/-- What a listener beside others that do not fail is told in a run: a hook for the parse, and then a front part of
whole invocations that begins with the root. Of a run with a result it is the whole, followed by the result. A rule
error is followed by nothing, and leaves open one call at each level, from the root to the one that raised it, each
made by the one above. -/
theorem run_nests_until_it_ends {ε σ : Type} (fuel : Nat) (g : Grammar) (input : Input) (l : Listener ε σ)
    (obliging : ∀ s h, (l s h).2 = none) (s t : σ) (stream : List Hook) (outcome : Except (RunError ε) ParseResult)
    (heard : g.heardWith fuel input (.both .noting l) ([], s) = some ((stream, t), outcome)) :
    ∃ hooks left last, stream = .beforeParse ⟨g.root, 0, 0⟩ input :: (hooks ++ last) ∧
      hooks.head? = some (.beforeMatch ⟨g.root, 0, 0⟩) ∧ Hook.Nests [] hooks left ∧
      (∃ rest, Hook.Nests [] (hooks ++ rest) []) ∧
      match outcome with
      | .ok result => left = [] ∧ last = [.afterParse result]
      | .error (.rule e) => last = [] ∧ left.getLast? = some ⟨g.root, 0, 0⟩ ∧
          left.map (·.level) = (List.range left.length).reverse ∧ left.IsChain g.Makes ∧
          ∃ c rest, left = c :: rest ∧ g.Raises (c.view input) e c.rule
      | .error (.listener _) => False := by
  obtain ⟨run, noted, rfl, rfl⟩ := noting_beside fuel g input l obliging s t stream outcome heard
  obtain ⟨hooks, left, told, first, nests, ending⟩ := run_stands fuel g input run noted
  obtain ⟨rest, closed⟩ := nests_closed left
  refine ⟨hooks, left, lastHooks run.outcome, told, first, nests, ⟨rest, hook_nests_append _ _ _ _ _ nests closed⟩, ?_⟩
  rcases run with ⟨all, e | result⟩
  · obtain ⟨⟨inner, rfl⟩, made, raised⟩ := ending
    exact ⟨rfl, by simp, nests_levelled [] _ hooks nests rfl, made, raised⟩
  · exact ⟨ending, rfl⟩

namespace Demo

def check : Rule := .labelled 3 "Check" (.action 4 "check" fun _ => .error ⟨"refused", []⟩)

def checked : Grammar where
  root := .sequence 0 [ch 1 'a', .optional 2 check]

end Demo

theorem checked_run_nests :
    ∃ stream e hooks left, (∀ s h, ((Listener.deaf (ε := Unit)) s h).2 = none) ∧
      Demo.checked.heardWith 4 (.ofString "ab") (.both .noting (Listener.deaf (ε := Unit))) ([], ()) =
        some ((stream, ()), .error (.rule e)) ∧ e = .actionFailed "check" ⟨"refused", []⟩ ∧
      stream = .beforeParse ⟨Demo.checked.root, 0, 0⟩ (.ofString "ab") :: hooks ∧ Hook.Nests [] hooks left ∧
      left.getLast? = some ⟨Demo.checked.root, 0, 0⟩ ∧
      ∃ c rest, left = c :: rest ∧ Demo.checked.Raises (c.view (.ofString "ab")) e c.rule := by
  have evaluated : (Demo.checked.heardWith 4 (.ofString "ab") (.both .noting (Listener.deaf (ε := Unit))) ([], ())).map
      (fun r => match r.2 with | .error (.rule e) => some e | _ => none) =
      some (some (.actionFailed "check" ⟨"refused", []⟩)) := by decide +kernel
  rcases heard : Demo.checked.heardWith 4 (.ofString "ab") (.both .noting (Listener.deaf (ε := Unit))) ([], ())
    with _ | ⟨⟨stream, u⟩, outcome⟩
  · rw [heard] at evaluated
    cases evaluated
  rw [heard] at evaluated
  have nests := run_nests_until_it_ends 4 Demo.checked (.ofString "ab") (Listener.deaf (ε := Unit)) (fun _ _ => rfl)
    () u stream outcome heard
  rcases outcome with (e | _) | _
  · obtain ⟨hooks, left, last, told, -, nests, -, rfl, bottom, -, -, raised⟩ := nests
    rw [List.append_nil] at told
    exact ⟨stream, e, hooks, left, fun _ _ => rfl, rfl, Option.some.inj (Option.some.inj evaluated), told, nests,
      bottom, raised⟩
  · cases evaluated
  · cases evaluated

end MatchTrace
