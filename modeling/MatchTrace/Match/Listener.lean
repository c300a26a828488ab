import MatchTrace.Match.Hook

/-!
Listeners are state machines that are told every hook and may fail at any.
-/

namespace MatchTrace

set_option autoImplicit false

abbrev Listener (ε σ : Type) := σ → Hook → σ × Option ε

namespace Listener

-- Two listeners side by side. Both hear every hook; if both fail, the first one's failure counts.
def both {ε σ τ : Type} (a : Listener ε σ) (b : Listener ε τ) : Listener ε (σ × τ) :=
  fun s h =>
    let (left, e) := a s.1 h
    let (right, f) := b s.2 h
    ((left, right), e.or f)

def each {ε σ : Type} (l : Listener ε σ) : Listener ε (List σ) :=
  fun states h =>
    let answers := states.map fun s => l s h
    (answers.map (·.1), answers.findSome? (·.2))

def deaf {ε : Type} : Listener ε Unit := fun _ _ => ((), none)

end Listener

end MatchTrace
