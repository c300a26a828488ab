import MatchTrace.Proofs.Match.Adequacy
import MatchTrace.Proofs.Rule.Language

/-!
Parses with a grammar that recognises a language: they end, with a match of the whole text and its end if the text
belongs to the language, and without a match otherwise.
-/

namespace MatchTrace

set_option autoImplicit false

variable {ε σ : Type}

theorem meaning_noted (g : Grammar) (input : Input) (e : Option Nat) (meaning : Peg g input g.root 0 e) :
    ∃ fuel run, (∀ more, fuel ≤ more → g.runWith more input = some run) ∧
      run.outcome = .ok ⟨e.isSome, e.getD 0, input.length⟩ := by
  obtain ⟨fuel, settled⟩ := settled_invoke g input g.root 0 e (peg_settles g input g.root 0 e meaning)
  obtain ⟨hooks, v, ran, rfl⟩ := settled fuel (Nat.le_refl fuel) 0
  have noted : g.runWith fuel input = some ((⟨hooks, .ok v⟩ : Trail).toRun g.root input) :=
    congrArg (Option.map _) ran
  refine ⟨fuel, _, fun more bound => run_longer g input fuel more bound _ noted, ?_⟩
  rw [← result_eq]
  rfl

theorem noted_heard (g : Grammar) (input : Input) (run : Run) (result : ParseResult) (fuel : Nat)
    (noted : ∀ more, fuel ≤ more → g.runWith more input = some run) (ended : run.outcome = .ok result)
    (l : Listener ε σ) (obliging : ∀ s h, (l s h).2 = none) (s : σ) :
    ∃ t, announce l s run.hooks = (t, none) ∧
      ∀ more, fuel ≤ more → g.heardWith more input l s = some (t, .ok result) := by
  obtain ⟨t, told⟩ := announce_obliging l obliging run.hooks s
  refine ⟨t, told, fun more bound => ?_⟩
  rw [obliging_heard l obliging, noted more bound, Option.map_some, told, ended]
  rfl

namespace Grammar

-- The root has a meaning on every text. It matches all texts of the language, each up to one past its end, and no
-- others.
structure Recognizes (g : Grammar) (L : Language Char) : Prop where
  reads : ∀ t, ∃ e, Peg g t g.root 0 e ∧ ∀ j, e = some j → t.chars.toList ∈ L ∧ j = t.length + 1
  takes : ∀ t, t.chars.toList ∈ L → Peg g t g.root 0 (some (t.length + 1))

theorem recognized_parse (g : Grammar) (L : Language Char) (recognizes : g.Recognizes L) (input : Input)
    (l : Listener ε σ) (obliging : ∀ s h, (l s h).2 = none) (s : σ) :
    ∃ fuel t matched, (matched = true ↔ input.chars.toList ∈ L) ∧ ∀ more, fuel ≤ more →
      g.heardWith more input l s =
        some (t, .ok ⟨matched, if matched then input.length + 1 else 0, input.length⟩) := by
  obtain ⟨e, meaning, words⟩ := recognizes.reads input
  have place : e.getD 0 = if e.isSome then input.length + 1 else 0 := by
    cases e with
    | none => rfl
    | some j => exact (words j rfl).2
  obtain ⟨fuel, run, noted, ended⟩ := meaning_noted g input e meaning
  obtain ⟨t, -, heard⟩ := noted_heard g input run _ fuel noted ended l obliging s
  rw [place] at heard
  refine ⟨fuel, t, e.isSome, ⟨fun matched => ?_, fun mem => ?_⟩, heard⟩
  · obtain ⟨j, same⟩ := Option.isSome_iff_exists.mp matched
    exact (words j same).1
  · rw [peg_unique g input g.root 0 e _ meaning (recognizes.takes input mem)]
    rfl

end Grammar

end MatchTrace
