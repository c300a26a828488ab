import MatchTrace.Proofs.Match.Simulation
import MatchTrace.Match.Run

/-!
The hooks of a run are nested as its invocations are. A part of a run that comes to a verdict tells
whole invocations only, all at the level it began at.
-/

namespace MatchTrace

set_option autoImplicit false

-- Hooks of whole invocations, one after the other, with `level` others open around them.
inductive Balanced : Nat → List Hook → Prop where
  | nil (level : Nat) : Balanced level []
  | call (c : Call) (v : Verdict) (inner rest : List Hook) :
      Balanced (c.level + 1) inner → Balanced c.level rest →
      Balanced c.level (.beforeMatch c :: (inner ++ v.closing c :: rest))

theorem balanced_append (level : Nat) (hs ks : List Hook) (first : Balanced level hs)
    (second : Balanced level ks) : Balanced level (hs ++ ks) := by
  induction first with
  | nil => exact second
  | call c v inner rest within _ _ ih =>
      simpa only [List.cons_append, List.append_assoc] using Balanced.call c v inner _ within (ih second)

theorem balanced_call (c : Call) (v : Verdict) (inner : List Hook) (within : Balanced (c.level + 1) inner) :
    Balanced c.level (.beforeMatch c :: (inner ++ [v.closing c])) :=
  .call c v inner [] within (.nil c.level)

-- The second side of the simulation says nothing: this is a property of one run alone.
def Whole (level : Nat) (noted _ : Option Trail) : Prop :=
  ∀ t v, noted = some t → t.ending = .ok v → Balanced level t.hooks

theorem whole_simulation : Simulation Mode.noted Mode.noted (fun _ => True) Whole where
  exhausted _ _ t _ eq := nomatch eq
  conclude d v _ t w eq _ := by cases eq; exact .nil d
  abort _ e t v eq ok := by cases eq; cases ok
  andThen d noted _ f _ part next := by
    intro whole w eq ok
    obtain ⟨t, rfl, eq⟩ := Option.bind_eq_some_iff.mp eq
    rcases t with ⟨hs, e | v⟩
    · cases eq
      cases ok
    · obtain ⟨u, rest, rfl⟩ := Option.map_eq_some_iff.mp eq
      exact balanced_append d hs u.hooks (part _ v rfl rfl) (next v trivial u w rest ok)
  enclose c f _ _ part := by
    intro whole w eq ok
    obtain ⟨t, inner, rfl⟩ := Option.map_eq_some_iff.mp eq
    rcases t with ⟨hs, e | v⟩
    · cases ok
    · exact balanced_call c v hs (part _ v inner rfl)

theorem balanced_each (P : Hook → Prop) (opens : ∀ c, P (.beforeMatch c)) (closes : ∀ (v : Verdict) c, P (v.closing c))
    (level : Nat) (hooks : List Hook) (balanced : Balanced level hooks) : ∀ h ∈ hooks, P h := by
  induction balanced with
  | nil => intro h mem; cases mem
  | call c v inner rest _ _ innerIH restIH =>
      intro h mem
      rcases List.mem_cons.mp mem with rfl | mem
      · exact opens c
      rcases List.mem_append.mp mem with mem | mem
      · exact innerIH h mem
      rcases List.mem_cons.mp mem with rfl | mem
      · exact closes v c
      · exact restIH h mem

inductive Enclosed (P : Call → Verdict → Prop) : Nat → List Hook → Prop where
  | nil (level : Nat) : Enclosed P level []
  | call (c : Call) (v : Verdict) (inner rest : List Hook) :
      P c v → Enclosed P (c.level + 1) inner → Enclosed P c.level rest →
      Enclosed P c.level (.beforeMatch c :: (inner ++ v.closing c :: rest))

theorem balanced_enclosed (level : Nat) (hooks : List Hook) (balanced : Balanced level hooks) :
    Enclosed (fun _ _ => True) level hooks := by
  induction balanced with
  | nil level => exact .nil level
  | call c v inner rest _ _ innerIH restIH => exact .call c v inner rest trivial innerIH restIH

theorem enclosed_append (P : Call → Verdict → Prop) (level : Nat) (hs ks : List Hook) (first : Enclosed P level hs)
    (second : Enclosed P level ks) : Enclosed P level (hs ++ ks) := by
  induction first with
  | nil => exact second
  | call c v inner rest holds within _ _ ih =>
      simpa only [List.cons_append, List.append_assoc] using Enclosed.call c v inner _ holds within (ih second)

theorem root_body (fuel : Nat) (g : Grammar) (input : Input) (run : Run) (result : ParseResult)
    (noted : g.runWith fuel input = some run) (ended : run.outcome = .ok result) :
    ∃ (less : Nat) (v : Verdict) (inner : List Hook),
      body .noted (g.setting input) less (invoke .noted (g.setting input) less 1)
        (fun j => ⟨input, j, 0, g.root.label, g.root.ruleClass⟩) g.root 0 = some ⟨inner, .ok v⟩ ∧
      result = v.result input.length ∧
      run.hooks = .beforeParse ⟨g.root, 0, 0⟩ input ::
        ((.beforeMatch ⟨g.root, 0, 0⟩ :: (inner ++ [v.closing ⟨g.root, 0, 0⟩])) ++ [.afterParse result]) := by
  obtain ⟨t, trail, rfl⟩ := Option.map_eq_some_iff.mp noted
  cases fuel with
  | zero => cases trail
  | succ fuel =>
      obtain ⟨u, inner, rfl⟩ := Option.map_eq_some_iff.mp trail
      rcases u with ⟨hs, e | v⟩
      · cases ended
      · cases ended
        exact ⟨fuel, v, hs, inner, rfl, rfl⟩

theorem root_hooks (fuel : Nat) (g : Grammar) (input : Input) (run : Run) (result : ParseResult)
    (noted : g.runWith fuel input = some run) (ended : run.outcome = .ok result) :
    ∃ (v : Verdict) (inner : List Hook), result = v.result input.length ∧ Balanced 1 inner ∧
      run.hooks = .beforeParse ⟨g.root, 0, 0⟩ input ::
        ((.beforeMatch ⟨g.root, 0, 0⟩ :: (inner ++ [v.closing ⟨g.root, 0, 0⟩])) ++ [.afterParse result]) := by
  obtain ⟨less, v, inner, ran, same, hooks⟩ := root_body fuel g input run result noted ended
  have within := whole_simulation.body 1 _ _
    (whole_simulation.invoke (g.setting input) (closed_anywhere input) less less (Nat.le_refl less) 1)
    (g.setting input) (closed_anywhere input) _ less less (Nat.le_refl less) g.root 0 trivial _ v ran rfl
  exact ⟨v, inner, same, within, hooks⟩

end MatchTrace
