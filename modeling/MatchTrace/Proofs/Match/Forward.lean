import MatchTrace.Proofs.Match.Advance
import MatchTrace.Proofs.Match.Nesting

/-!
Runs of grammars without custom rules. A match ends nowhere before its start, at every invocation of the run;
what may move an index back is the body of a custom rule only.
-/

namespace MatchTrace

set_option autoImplicit false

def Forward (c : Call) (v : Verdict) : Prop := v.matched = true → c.index ≤ v.index

def Onward (level low high : Nat) (part : Option Trail) : Prop :=
  ∀ trail v, part = some trail → trail.ending = .ok v →
    Enclosed Forward level trail.hooks ∧ low ≤ v.index ∧ v.index ≤ high

theorem onward_exhausted (level low high : Nat) : Onward level low high none := by
  intro trail v eq
  cases eq

theorem onward_conclude (level low high : Nat) (v : Verdict) (ahead : low ≤ v.index) (below : v.index ≤ high) :
    Onward level low high (Mode.noted.conclude v) := by
  intro trail w eq ended
  cases eq
  cases ended
  exact ⟨.nil level, ahead, below⟩

theorem onward_abort (level low high : Nat) (e : RuleError) : Onward level low high (Mode.noted.abort e) := by
  intro trail v eq ended
  cases eq
  cases ended

theorem onward_then (level low high mid top : Nat) (part : Option Trail) (next : Verdict → Option Trail)
    (first : Onward level mid top part)
    (rest : ∀ v, mid ≤ v.index → v.index ≤ top → Onward level low high (next v)) :
    Onward level low high (Mode.noted.andThen part next) := by
  intro trail v eq ended
  obtain ⟨front, ran, eq⟩ := Option.bind_eq_some_iff.mp eq
  rcases front with ⟨hooks, e | w⟩
  · cases eq
    cases ended
  · obtain ⟨back, went, rfl⟩ := Option.map_eq_some_iff.mp eq
    obtain ⟨whole, ahead, below⟩ := first _ w ran rfl
    obtain ⟨others, last⟩ := rest w ahead below back v went ended
    exact ⟨enclosed_append Forward level hooks back.hooks whole others, last⟩

theorem onward_advances (level top : Nat) :
    Mode.noted.Advances top id (fun place => Onward level place top) (fun low high _ => Onward level low high) where
  exhausted low high _ := onward_exhausted level low high
  conclude low high _ v ahead below := onward_conclude level low high v ahead below
  abort low high _ e := onward_abort level low high e
  andThen low high place part next first others :=
    onward_then level low high place top part next first fun v ahead below => others _ v ahead below rfl

theorem onward_enclose (c : Call) (high : Nat) (part : Unit → Option Trail)
    (inside : Onward (c.level + 1) c.index high (part ())) :
    Onward c.level c.index high (Mode.noted.enclose c part) := by
  intro trail v eq ended
  obtain ⟨t, ran, rfl⟩ := Option.map_eq_some_iff.mp eq
  rcases t with ⟨hooks, e | w⟩
  · cases ended
  · cases ended
    obtain ⟨within, ahead, below⟩ := inside _ v ran rfl
    exact ⟨.call c v hooks [] (fun _ => ahead) within (.nil c.level), ahead, below⟩

section Runs

variable (g : Grammar) (builtIn : g.BuiltIn) (t : Input)

theorem ahead_within (r : Rule) (i top : Nat) (inside : i ≤ top) : (if r.looksAhead then i else top) ≤ top := by
  split
  · exact inside
  · exact Nat.le_refl top

include builtIn

theorem onward_body (level fuel : Nat) (run : Attempt (Option Trail)) (view : Nat → View)
    (children : ∀ r, g.Reaches r → ∀ i, i ≤ t.length + 1 → Onward level i (t.length + 1) (run r i))
    (r : Rule) (i : Nat) (reached : g.Reaches r) (inside : i ≤ t.length + 1) :
    Onward level i (t.length + 1) (body .noted (g.setting t) fuel run view r i) := by
  intro trail v ran ended
  obtain ⟨whole, ahead, below⟩ :=
    advances_body t (onward_advances level _) run g builtIn fuel view children i inside r reached trail v ran ended
  exact ⟨whole, ahead, Nat.le_trans below (ahead_within r i _ inside)⟩

theorem onward_invoke (fuel level : Nat) (r : Rule) (i : Nat) (reached : g.Reaches r) (inside : i ≤ t.length + 1) :
    Onward level i (t.length + 1) (invoke .noted (g.setting t) fuel level r i) := by
  induction fuel generalizing level r i with
  | zero => exact onward_exhausted level i _
  | succ fuel ih =>
      apply onward_enclose ⟨r, i, level⟩
      exact onward_body g builtIn t (level + 1) fuel _ _ (fun r reached i => ih (level + 1) r i reached) r i reached
        inside

end Runs

theorem root_forward (fuel : Nat) (g : Grammar) (builtIn : g.BuiltIn) (input : Input) (run : Run) (result : ParseResult)
    (noted : g.runWith fuel input = some run) (ended : run.outcome = .ok result) :
    ∃ (v : Verdict) (inner : List Hook), Forward ⟨g.root, 0, 0⟩ v ∧ Enclosed Forward 1 inner ∧
      run.hooks = .beforeParse ⟨g.root, 0, 0⟩ input ::
        ((.beforeMatch ⟨g.root, 0, 0⟩ :: (inner ++ [v.closing ⟨g.root, 0, 0⟩])) ++ [.afterParse result]) := by
  obtain ⟨less, v, inner, ran, -, hooks⟩ := root_body fuel g input run result noted ended
  obtain ⟨within, ahead, -⟩ := onward_body g builtIn input 1 less _ _
    (fun r reached i => onward_invoke g builtIn input less 1 r i reached) g.root 0 .root (Nat.zero_le _) _ v ran rfl
  exact ⟨v, inner, fun _ => ahead, within, hooks⟩

end MatchTrace
