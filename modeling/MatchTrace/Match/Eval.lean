import MatchTrace.Match.Hook
import MatchTrace.Rule.Grammar

/-!
Evaluation of rules. What a part of a run comes to is left open: a `Mode` tells how parts are made
and put together, and rules are evaluated alike in every mode. There are two of them: one in which
listeners hear what happens and may stop it, and one that only notes it down.

Grammars may run for ever, so evaluation is given fuel. A rule body only sees how its children end:
the way a child is run is a parameter of the combinators, and `invoke` ties the knot.
-/

namespace MatchTrace

set_option autoImplicit false

-- Whether a rule matched, and the index it then stood at. The index of a failure is shown by the
-- hook that closes the invocation, and moves nobody.
structure Verdict where
  matched : Bool
  index : Nat
deriving DecidableEq

namespace Verdict

-- Where the caller goes on: a match moves it, a failure leaves it where it was.
def resume (v : Verdict) (start : Nat) : Nat := if v.matched then v.index else start

def closing (v : Verdict) (c : Call) : Hook :=
  if v.matched then .matchSuccess { c with index := v.index }
  else .matchFailure { c with index := v.index }

def result (v : Verdict) (inputLength : Nat) : ParseResult :=
  ⟨v.matched, v.resume 0, inputLength⟩

end Verdict

-- How runs are carried out: `ρ` is what a part of a run comes to, `andThen` a part with what
-- follows from its verdict, and `enclose` an invocation around a body.
structure Mode (ρ : Type) where
  exhausted : ρ
  conclude : Verdict → ρ
  abort : RuleError → ρ
  andThen : ρ → (Verdict → ρ) → ρ
  enclose : Call → (Unit → ρ) → ρ

-- Positions are 64-bit words, and the largest one stands for all that would lie past it.
def clampIndex (index : Nat) : Nat := min index 0xFFFFFFFFFFFFFFFF

abbrev Attempt (ρ : Type) := Rule → Nat → ρ

namespace Mode

variable {ρ : Type} (m : Mode ρ)

def attempt (run : Attempt ρ) (r : Rule) (i : Nat) (next : Bool → Nat → ρ) : ρ :=
  m.andThen (run r i) fun v => next v.matched (v.resume i)

def succeed (index : Nat) : ρ := m.conclude ⟨true, index⟩

def fail (index : Nat) : ρ := m.conclude ⟨false, index⟩

def inOrder (run : Attempt ρ) : List Rule → Nat → ρ
  | [], i => m.succeed i
  | r :: rs, i => m.attempt run r i fun ok j => if ok then inOrder run rs j else m.fail j

def oneOf (run : Attempt ρ) : List Rule → Nat → ρ
  | [], i => m.fail i
  | r :: rs, i => m.attempt run r i fun ok j => if ok then m.succeed j else oneOf run rs j

-- The rule again and again, until it fails or matches without moving; `enough` tells whether to
-- match when it fails at once.
def repeated (run : Attempt ρ) (r : Rule) : Nat → Bool → Nat → ρ
  | 0, _, _ => m.exhausted
  | n + 1, enough, i =>
    m.attempt run r i fun ok j =>
      if ok then if j = i then m.succeed j else repeated run r n true j
      else m.conclude ⟨enough, j⟩

-- A custom body among its children. A child place that does not exist is a failed attempt.
def follow (run : Attempt ρ) (view : Nat → View) (children : List Rule) :
    Nat → Script → Nat → ρ
  | 0, _, _ => m.exhausted
  | n + 1, script, i =>
    match script.next with
    | .finish matched => m.conclude ⟨matched, i⟩
    | .advance count =>
      follow run view children n (script.after .done) (clampIndex (i + count))
    | .moveTo j => follow run view children n (script.after .done) (clampIndex j)
    | .call child =>
      match children[child]? with
      | some r =>
        m.attempt run r i fun ok j =>
          follow run view children n (script.after (.verdict ok)) j
      | none => follow run view children n (script.after (.verdict false)) i
    | .abort error => m.abort error
    | .look => follow run view children n (script.after (.seen (view i))) i

end Mode

structure Environment where
  input : Input
  bindings : List Binding

-- The body of a rule that runs at index `i`. A relabelled rule is the body of the rule inside: no
-- invocation of its own opens, so `view`, which tells what the body can see, is still the outer
-- one.
def body {ρ : Type} (m : Mode ρ) (s : Environment) (fuel : Nat) (run : Attempt ρ)
    (view : Nat → View) : Rule → Nat → ρ
  | .terminal _ t, i =>
    match t.width s.input i with
    | some count => m.succeed (i + count)
    | none => m.fail i
  | .sequence _ rs, i => m.inOrder run rs i
  | .firstOf _ rs, i => m.oneOf run rs i
  | .optional _ r, i => m.attempt run r i fun _ j => m.succeed j
  | .zeroOrMore _ r, i => m.repeated run r fuel true i
  | .oneOrMore _ r, i => m.repeated run r fuel false i
  | .test _ r, i => m.attempt run r i fun ok _ => m.conclude ⟨ok, i⟩
  | .testNot _ r, i => m.attempt run r i fun ok _ => m.conclude ⟨!ok, i⟩
  | .action _ label verdict, i =>
    match verdict (view i) with
    | .ok matched => m.conclude ⟨matched, i⟩
    | .error cause => m.abort (.actionFailed label cause)
  | .proxy id label, i =>
    match Binding.target? s.bindings id with
    | some r => m.attempt run r i fun ok j => m.conclude ⟨ok, j⟩
    | none => m.abort (.unboundProxy label)
  | .labelled _ _ inner, i => body m s fuel run view inner i
  | .custom _ _ _ children script, i => m.follow run view children fuel script i

def invoke {ρ : Type} (m : Mode ρ) (s : Environment) : Nat → Nat → Rule → Nat → ρ
  | 0, _, _, _ => m.exhausted
  | fuel + 1, level, r, i =>
    m.enclose ⟨r, i, level⟩ fun _ =>
      body m s fuel (invoke m s fuel (level + 1))
        (fun j => ⟨s.input, j, level, r.label, r.ruleClass⟩) r i

namespace Grammar

def setting (g : Grammar) (input : Input) : Environment := ⟨input, g.liveBindings⟩

def invokeRoot {ρ : Type} (m : Mode ρ) (fuel : Nat) (g : Grammar) (input : Input) : ρ :=
  invoke m (g.setting input) fuel 0 g.root 0

def fuelLimit : Nat := 0x4000000000000000

end Grammar

end MatchTrace
