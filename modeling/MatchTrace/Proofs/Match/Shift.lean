import MatchTrace.Proofs.Match.Adequacy
import MatchTrace.Proofs.Match.Audience
import MatchTrace.Proofs.Match.Pairing

/-!
Runs of one rule on a text and behind another text. Rules that run no code of their own look at the text from where they
are tried on, so all that is in front of that place is only a number that their positions are further on.
-/

namespace MatchTrace

set_option autoImplicit false

def Rule.RunsCode : Rule → Prop
  | .action _ _ _ | .custom _ _ _ _ _ => True
  | _ => False

def Verdict.shift (n : Nat) (v : Verdict) : Verdict := { v with index := n + v.index }

def Call.shift (n : Nat) (c : Call) : Call := { c with index := n + c.index }

def Hook.shift (n : Nat) : Hook → Hook
  | .beforeParse c input => .beforeParse (c.shift n) input
  | .beforeMatch c => .beforeMatch (c.shift n)
  | .matchSuccess c => .matchSuccess (c.shift n)
  | .matchFailure c => .matchFailure (c.shift n)
  | .afterParse result => .afterParse result

def Trail.shift (n : Nat) (trail : Trail) : Trail := ⟨trail.hooks.map (·.shift n), trail.ending.map (·.shift n)⟩

section Text

variable (u v : Input)

theorem text_append (a b : String) : Input.ofString (a ++ b) = .ofString a ++ .ofString b := by
  change Input.mk _ = Input.mk (_ ++ _)
  simp only [Input.ofString, String.toList_append, List.append_toArray]

theorem length_append : (u ++ v).length = u.length + v.length := Array.size_append

theorem char_at_append (i : Nat) : (u ++ v).charAt (u.length + i) = v.charAt i := by
  change (u.chars ++ v.chars)[u.chars.size + i]? = v.chars[i]?
  rw [Array.getElem?_append_right (Nat.le_add_right _ i), Nat.add_sub_cancel_left]

theorem has_at_append (i : Nat) (cs : List Char) : (u ++ v).hasAt (u.length + i) cs = v.hasAt i cs := by
  induction cs generalizing i with
  | nil => simp [Input.hasAt, length_append]
  | cons c cs ih => rw [Input.hasAt, Input.hasAt, char_at_append, Nat.add_assoc, ih]

theorem width_append (terminal : Terminal) (i : Nat) :
    terminal.width (u ++ v) (u.length + i) = terminal.width v i := by
  cases terminal with
  | firstOfStrings alternatives => simp only [Terminal.width, funext (has_at_append u v i)]
  | _ => simp [Terminal.width, Terminal.charWidth, char_at_append, has_at_append, length_append]

end Text

theorem closing_shift (n : Nat) (c : Call) (v : Verdict) : (v.shift n).closing (c.shift n) = (v.closing c).shift n := by
  rcases v with ⟨_ | _, index⟩ <;> rfl

theorem followed_shift (n : Nat) (first second : Trail) :
    (first.shift n).followedBy (second.shift n) = (first.followedBy second).shift n := by
  simp only [Trail.followedBy, Trail.shift, List.map_append]

theorem enclose_shift (n : Nat) (c : Call) (trail : Trail) :
    (trail.shift n).enclose (c.shift n) = (trail.enclose c).shift n := by
  rcases trail with ⟨hooks, e | v⟩
  · simp only [Trail.enclose, Trail.shift, Trail.closing, Except.map, List.append_nil, List.map_cons, Hook.shift]
  · simp only [Trail.enclose, Trail.shift, Trail.closing, Except.map, List.map_cons, List.map_append, List.map_nil,
      closing_shift, Hook.shift]

theorem shift_couples (n : Nat) :
    Couples (fun i j => j = n + i) Mode.noted Mode.noted fun part other => other = part.map (·.shift n) where
  exhausted := rfl
  conclude := by
    rintro matched i _ rfl
    rfl
  abort e := rfl
  andThen part _ next onward same rest := by
    subst same
    rcases part with _ | ⟨hooks, e | w⟩
    · rfl
    · rfl
    · have follows := rest w.matched w.index _ rfl
      change (onward (w.shift n)).map _ = ((next w).map _).map _
      rw [Option.map_map, show onward (w.shift n) = _ from follows, Option.map_map]
      exact congrArg (fun f => (next w).map f) (funext fun trail => followed_shift n ⟨hooks, .ok w⟩ trail)

section Shift

variable (g : Grammar) (u v : Input) (top : Rule)

-- The second run is as far into its text as the first one into `v`.
def Grammar.behind : Pairing := g.pairing top v (u ++ v) (fun i j => j = u.length + i) fun _ _ => True

theorem behind_aligned : (g.behind u v top).Aligned where
  apart := by
    rintro i _ k _ rfl rfl
    exact (Nat.add_left_cancel_iff).symm
  width := by
    rintro terminal i _ rfl
    exact (width_append u v terminal i).symm
  moves := by
    rintro terminal i _ n rfl _
    exact Nat.add_assoc _ _ _

theorem shift_invokes (idle : ∀ r, g.Leads top r → ¬ r.RunsCode) :
    (g.behind u v top).Invokes Eq Mode.noted Mode.noted fun part other => other = part.map (·.shift u.length) where
  bodies := by
    rintro r _ ⟨rfl, reached⟩
    apply pairing_bodies g top v (u ++ v) _ _ _ _ _ reached
    · intro q reached
      have plain := idle q reached
      cases q <;> first | trivial | exact absurd trivial plain
    · exact fun _ _ _ _ _ reached => absurd trivial (idle _ reached)
  deeper := by
    rintro d _ rfl
    rfl
  seen _ _ _ _ _ _ _ _ _ := trivial
  enclose := by
    rintro r q i _ d _ part other ⟨rfl, _⟩ rfl rfl same
    simp only [Mode.noted, same, Option.map_map]
    exact congrArg (fun f => (part ()).map f) (funext fun trail => enclose_shift u.length ⟨q, i, d⟩ trail)

/-- Rules that run no code of their own, on a text and behind another one: the hooks are the same at positions that much
further on, and so is the verdict or the error, if there is one. -/
theorem text_before_is_ignored {ε : Type} (idle : ∀ r, g.Leads top r → ¬ r.RunsCode) (fuel level : Nat) :
    invoke (.heard (Listener.noting (ε := ε))) (g.setting (u ++ v)) fuel level top u.length [] =
      (invoke (.heard (Listener.noting (ε := ε))) (g.setting v) fuel level top 0 []).map fun heard =>
        (heard.1.map (·.shift u.length), heard.2.map (·.shift u.length)) := by
  have shifted := (shift_invokes g u v top idle).invoke (shift_couples u.length) (behind_aligned g u v top) fuel level
    level rfl top top ⟨rfl, .here⟩ 0 u.length rfl
  change invoke .noted (g.setting (u ++ v)) fuel level top u.length = _ at shifted
  rw [noting_invoke, noting_invoke, shifted, Option.map_map, Option.map_map]
  apply congrArg (fun f => Option.map f _)
  funext trail
  rcases trail with ⟨hooks, e | w⟩ <;> rfl

end Shift

theorem nested_idle (r : Rule) (reached : Demo.nested.Leads Demo.nest r) : ¬ r.RunsCode := by
  have known := leads_within Demo.nested Demo.nestRules Demo.nest List.mem_cons_self nest_rules_down nest_rules_across r
    reached
  simp only [Demo.nestRules, List.mem_cons, List.not_mem_nil, or_false] at known
  rcases known with rfl | rfl | rfl | rfl | rfl | rfl | rfl
  all_goals exact fun runs => runs

theorem nest_ignores_text_before :
    (∀ r, Demo.nested.Leads Demo.nest r → ¬ r.RunsCode) ∧
      (invoke (.heard (Listener.noting (ε := Unit))) (Demo.nested.setting (.ofString "))(())")) 12 0 Demo.nest 2 []).map
        (fun heard => (heard.1.length, heard.2.toOption)) = some (28, some ⟨true, 6⟩) := by
  refine ⟨nested_idle, ?_⟩
  have behind := text_before_is_ignored (ε := Unit) Demo.nested (.ofString "))") (.ofString "(())") Demo.nest nested_idle
    12 0
  rw [← text_append, show (Input.ofString "))").length = 2 from rfl] at behind
  rw [show "))(())" = "))" ++ "(())" from rfl, behind]
  rfl

end MatchTrace
