import MatchTrace.Proofs.Match.Announce
import MatchTrace.Proofs.Rule.Peg

/-!
A run of a plain grammar follows the meaning of its rules. If it ends, it ends without an error, and at
the end index that the meaning gives.
-/

namespace MatchTrace

set_option autoImplicit false

def Verdict.end? (v : Verdict) : Option Nat := if v.matched then some v.index else none

theorem matched_eq (v : Verdict) : v.matched = v.end?.isSome := by
  cases v with
  | mk matched index => cases matched <;> rfl

theorem resume_eq (v : Verdict) (i : Nat) : v.resume i = v.end?.getD i := by
  cases v with
  | mk matched index => cases matched <;> rfl

def Meant (P : Option Nat → Prop) (part : Option Trail) : Prop :=
  ∀ trail, part = some trail → ∃ v, trail.ending = .ok v ∧ P v.end?

theorem meant_mono (P Q : Option Nat → Prop) (part : Option Trail) (meant : Meant P part)
    (weaker : ∀ e, P e → Q e) : Meant Q part := by
  intro trail eq
  obtain ⟨v, ended, means⟩ := meant trail eq
  exact ⟨v, ended, weaker _ means⟩

theorem meant_conclude (P : Option Nat → Prop) (v : Verdict) (means : P v.end?) :
    Meant P (Mode.noted.conclude v) := by
  intro trail eq
  cases eq
  exact ⟨v, rfl, means⟩

theorem meant_attempt (P Q : Option Nat → Prop) (run : Attempt (Option Trail)) (r : Rule) (i : Nat)
    (next : Bool → Nat → Option Trail) (child : Meant P (run r i))
    (rest : ∀ e, P e → Meant Q (next e.isSome (e.getD i))) : Meant Q (Mode.noted.attempt run r i next) := by
  intro trail eq
  obtain ⟨first, ran, eq⟩ := Option.bind_eq_some_iff.mp eq
  obtain ⟨v, ended, means⟩ := child first ran
  simp only [Trail.andThen, ended, matched_eq, resume_eq] at eq
  obtain ⟨second, went, rfl⟩ := Option.map_eq_some_iff.mp eq
  exact rest v.end? means second went

theorem meant_enclose (P : Option Nat → Prop) (c : Call) (part : Unit → Option Trail) (meant : Meant P (part ())) :
    Meant P (Mode.noted.enclose c part) := by
  intro trail eq
  obtain ⟨inner, ran, rfl⟩ := Option.map_eq_some_iff.mp eq
  exact meant inner ran

section Sound

variable (g : Grammar) (t : Input) (run : Attempt (Option Trail))

theorem meant_in_order (id : Nat) (rs : List Rule) (i : Nat)
    (children : ∀ r ∈ rs, ∀ i, Meant (Peg g t r i) (run r i)) :
    Meant (Peg g t (.sequence id rs) i) (Mode.noted.inOrder run rs i) := by
  induction rs generalizing i with
  | nil => exact meant_conclude _ ⟨true, i⟩ (.sequence_end id i)
  | cons r rs ih =>
      apply meant_attempt (Peg g t r i) _ run r i _ (children r List.mem_cons_self i)
      intro e first
      cases e with
      | none => exact meant_conclude _ ⟨false, i⟩ (.sequence_fail id r rs i first)
      | some j =>
          apply meant_mono _ _ _ (ih j fun r mem => children r (List.mem_cons_of_mem _ mem))
          exact fun e rest => .sequence_step id r rs i j e first rest

theorem meant_one_of (id : Nat) (rs : List Rule) (i : Nat)
    (children : ∀ r ∈ rs, ∀ i, Meant (Peg g t r i) (run r i)) :
    Meant (Peg g t (.firstOf id rs) i) (Mode.noted.oneOf run rs i) := by
  induction rs with
  | nil => exact meant_conclude _ ⟨false, i⟩ (.first_none id i)
  | cons r rs ih =>
      apply meant_attempt (Peg g t r i) _ run r i _ (children r List.mem_cons_self i)
      intro e first
      cases e with
      | none =>
          apply meant_mono _ _ _ (ih fun r mem => children r (List.mem_cons_of_mem _ mem))
          exact fun e rest => .first_next id r rs i e first rest
      | some j => exact meant_conclude _ ⟨true, j⟩ (.first_match id r rs i j first)

theorem meant_many (id : Nat) (r : Rule) (fuel i : Nat) (child : ∀ i, Meant (Peg g t r i) (run r i)) :
    Meant (Peg g t (.zeroOrMore id r) i) (Mode.noted.repeated run r fuel true i) := by
  induction fuel generalizing i with
  | zero => exact fun trail eq => nomatch eq
  | succ fuel ih =>
      apply meant_attempt (Peg g t r i) _ run r i _ (child i)
      intro e first
      cases e with
      | none => exact meant_conclude _ ⟨true, i⟩ (.many_end id r i first)
      | some j =>
          have forward := peg_forward g t r i j _ first rfl
          simp only [Option.isSome_some, if_true, Option.getD_some]
          split
          · exact meant_conclude _ ⟨true, j⟩ (.many_still id r i j first (by omega))
          · apply meant_mono _ _ _ (ih j)
            exact fun e rest => .many_step id r i j e first (by omega) rest

theorem meant_some (id : Nat) (r : Rule) (fuel i : Nat) (child : ∀ i, Meant (Peg g t r i) (run r i)) :
    Meant (Peg g t (.oneOrMore id r) i) (Mode.noted.repeated run r fuel false i) := by
  cases fuel with
  | zero => exact fun trail eq => nomatch eq
  | succ fuel =>
      apply meant_attempt (Peg g t r i) _ run r i _ (child i)
      intro e first
      cases e with
      | none => exact meant_conclude _ ⟨false, i⟩ (.some_fail id r i first)
      | some j =>
          have forward := peg_forward g t r i j _ first rfl
          simp only [Option.isSome_some, if_true, Option.getD_some]
          split
          · exact meant_conclude _ ⟨true, j⟩ (.some_still id r i j first (by omega))
          · apply meant_mono _ _ _ (meant_many g t run id r fuel j child)
            exact fun e rest => .some_step id r i j e first (by omega) rest

theorem meant_terminal (id : Nat) (terminal : Terminal) (fuel i : Nat) (view : Nat → View) :
    Meant (Peg g t (.terminal id terminal) i)
      (body Mode.noted (g.setting t) fuel run view (.terminal id terminal) i) := by
  have meaning := terminal_meaning g t id i terminal
  simp only [body, Grammar.setting]
  cases width : terminal.width t i with
  | none =>
      rw [width] at meaning
      exact meant_conclude _ ⟨false, i⟩ meaning
  | some n =>
      rw [width] at meaning
      exact meant_conclude _ ⟨true, i + n⟩ meaning

theorem meant_body (plain : ∀ r, g.Reaches r → g.Plain r) (fuel : Nat) (view : Nat → View)
    (sees : ∀ j, (view j).input = t ∧ (view j).index = j)
    (children : ∀ r, g.Reaches r → ∀ i, Meant (Peg g t r i) (run r i)) :
    ∀ (r : Rule) (i : Nat), g.Reaches r → Meant (Peg g t r i) (body Mode.noted (g.setting t) fuel run view r i)
  | .terminal id terminal, i, _ => meant_terminal g t run id terminal fuel i view
  | .sequence id rs, i, reached =>
      meant_in_order g t run id rs i fun r mem => children r (.child _ r reached mem)
  | .firstOf id rs, i, reached =>
      meant_one_of g t run id rs i fun r mem => children r (.child _ r reached mem)
  | .optional id r, i, reached => by
      apply meant_attempt (Peg g t r i) _ run r i _ (children r (.child _ r reached List.mem_cons_self) i)
      exact fun e inner => meant_conclude _ ⟨true, e.getD i⟩ (.optional id r i e inner)
  | .zeroOrMore id r, i, reached =>
      meant_many g t run id r fuel i (children r (.child _ r reached List.mem_cons_self))
  | .oneOrMore id r, i, reached =>
      meant_some g t run id r fuel i (children r (.child _ r reached List.mem_cons_self))
  | .test id r, i, reached => by
      apply meant_attempt (Peg g t r i) _ run r i _ (children r (.child _ r reached List.mem_cons_self) i)
      exact fun e inner => meant_conclude _ ⟨e.isSome, i⟩ (.test id r i e inner)
  | .testNot id r, i, reached => by
      apply meant_attempt (Peg g t r i) _ run r i _ (children r (.child _ r reached List.mem_cons_self) i)
      intro e inner
      apply meant_conclude _ ⟨!e.isSome, i⟩
      have meaning := Peg.test_not id r i e inner
      cases e <;> exact meaning
  | .action id label verdict, i, reached => by
      obtain ⟨accepts, same⟩ := plain _ reached
      simp only [body, same, sees]
      apply meant_conclude _ ⟨accepts t i, i⟩
      apply Peg.action
      intro view text index
      rw [same, text, index]
  | .proxy id label, i, reached => by
      obtain ⟨r, bound⟩ := plain _ reached
      simp only [body, Grammar.setting, target_live, bound]
      apply meant_attempt (Peg g t r i) _ run r i _ (children r (.target id label r reached bound) i)
      intro e inner
      apply meant_conclude _ ⟨e.isSome, e.getD i⟩
      have meaning := Peg.proxy id label r i e bound inner
      cases e <;> exact meaning
  | .labelled id label inner, i, reached => by
      apply meant_mono _ _ _
        (meant_body plain fuel view sees children inner i (.child _ inner reached List.mem_cons_self))
      exact fun e meaning => .labelled id label inner i e meaning
  | .custom _ _ _ _ _, _, reached => (plain _ reached).elim

end Sound

theorem meant_invoke (g : Grammar) (t : Input) (plain : ∀ r, g.Reaches r → g.Plain r) (fuel level : Nat)
    (r : Rule) (i : Nat) (reached : g.Reaches r) :
    Meant (Peg g t r i) (invoke Mode.noted (g.setting t) fuel level r i) := by
  induction fuel generalizing level r i with
  | zero => exact fun trail eq => nomatch eq
  | succ fuel ih =>
      apply meant_enclose
      exact meant_body g t _ plain fuel _ (fun _ => ⟨rfl, rfl⟩) (fun r reached i => ih (level + 1) r i reached)
        r i reached

end MatchTrace
