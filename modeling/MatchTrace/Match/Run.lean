import MatchTrace.Match.Eval
import MatchTrace.Match.Listener

/-!
What happens in a parse, noted down: the hooks in order, and the outcome.
-/

namespace MatchTrace

set_option autoImplicit false

structure Trail where
  hooks : List Hook
  ending : Except RuleError Verdict

namespace Trail

def quiet (ending : Except RuleError Verdict) : Trail := ⟨[], ending⟩

def followedBy (t u : Trail) : Trail := ⟨t.hooks ++ u.hooks, u.ending⟩

-- The hooks that close an invocation. An error leaves it open.
def closing (t : Trail) (c : Call) : List Hook :=
  match t.ending with
  | .ok v => [v.closing c]
  | .error _ => []

def enclose (t : Trail) (c : Call) : Trail :=
  ⟨.beforeMatch c :: (t.hooks ++ t.closing c), t.ending⟩

def andThen (t : Trail) (next : Verdict → Option Trail) : Option Trail :=
  match t.ending with
  | .ok v => (next v).map t.followedBy
  | .error _ => some t

end Trail

-- Runs that nobody hears; none if the fuel ran out.
def Mode.noted : Mode (Option Trail) where
  exhausted := none
  conclude := fun v => some (.quiet (.ok v))
  abort := fun e => some (.quiet (.error e))
  andThen := fun t next => t.bind fun t => t.andThen next
  enclose := fun c body => (body ()).map fun t => t.enclose c

structure Run where
  hooks : List Hook
  outcome : Except RuleError ParseResult

def lastHooks : Except RuleError ParseResult → List Hook
  | .ok result => [.afterParse result]
  | .error _ => []

def Trail.toRun (t : Trail) (root : Rule) (input : Input) : Run :=
  let outcome := t.ending.map fun v => v.result input.length
  ⟨.beforeParse ⟨root, 0, 0⟩ input :: (t.hooks ++ lastHooks outcome), outcome⟩

def Grammar.runWith (fuel : Nat) (g : Grammar) (input : Input) : Option Run :=
  (g.invokeRoot .noted fuel input).map fun t => t.toRun g.root input

-- Tells hooks one by one, up to the first at which the listener fails.
def announce {ε σ : Type} (l : Listener ε σ) : σ → List Hook → σ × Option ε
  | s, [] => (s, none)
  | s, h :: hs =>
    match l s h with
    | (t, none) => announce l t hs
    | (t, some e) => (t, some e)

end MatchTrace
