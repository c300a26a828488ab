import MatchTrace.Match.Eval
import MatchTrace.Match.Listener

/-!
A parse that a listener hears while it happens. A failure of the listener ends the parse at once: no
rule takes it for a mismatch, and nothing is told afterwards.
-/

namespace MatchTrace

set_option autoImplicit false

inductive RunError (ε : Type) where
  | rule (error : RuleError)
  | listener (failure : ε)
deriving DecidableEq

-- A part of a run: from the state of a listener to the state it is left in, with a value or with
-- what ends the run. There is neither if the fuel ran out.
abbrev Heard (ε σ α : Type) := σ → Option (σ × Except (RunError ε) α)

namespace Heard

variable {ε σ α β : Type}

def give (x : α) : Heard ε σ α := fun s => some (s, .ok x)

def stop (e : RunError ε) : Heard ε σ α := fun s => some (s, .error e)

def andThen (part : Heard ε σ α) (next : α → Heard ε σ β) : Heard ε σ β := fun s =>
  match part s with
  | none => none
  | some (t, .ok x) => next x t
  | some (t, .error e) => some (t, .error e)

def tell (l : Listener ε σ) (h : Hook) : Heard ε σ Unit := fun s =>
  match l s h with
  | (t, none) => some (t, .ok ())
  | (t, some e) => some (t, .error (.listener e))

end Heard

def Mode.heard {ε σ : Type} (l : Listener ε σ) : Mode (Heard ε σ Verdict) where
  exhausted := fun _ => none
  conclude := .give
  abort := fun e => .stop (.rule e)
  andThen := .andThen
  enclose := fun c body =>
    (Heard.tell l (.beforeMatch c)).andThen fun _ =>
    (body ()).andThen fun v =>
    (Heard.tell l (v.closing c)).andThen fun _ => .give v

namespace Grammar

-- A parse: the root rule at the start of the text, between a hook before everything and one with
-- the result.
def heardWith {ε σ : Type} (fuel : Nat) (g : Grammar) (input : Input) (l : Listener ε σ) :
    Heard ε σ ParseResult :=
  (Heard.tell l (.beforeParse ⟨g.root, 0, 0⟩ input)).andThen fun _ =>
  (g.invokeRoot (.heard l) fuel input).andThen fun v =>
  (Heard.tell l (.afterParse (v.result input.length))).andThen fun _ =>
  .give (v.result input.length)

def heard {ε σ : Type} (g : Grammar) (input : Input) (l : Listener ε σ) : Heard ε σ ParseResult :=
  g.heardWith fuelLimit input l

end Grammar

end MatchTrace
