import MatchTrace.Rule.Basic

/-!
A grammar: named rules, what its proxies are bound to, a root, and names that were given up. A rule
lives while the root or a name that is still held reaches it; a proxy does not keep its target
alive.
-/

namespace MatchTrace

set_option autoImplicit false

structure Binding where
  proxy : Nat
  target : Rule

namespace Binding

def target? (bindings : List Binding) (proxy : Nat) : Option Rule :=
  (bindings.find? (·.proxy == proxy)).map (·.target)

-- Whether each binding is the first one of its proxy, and so takes effect.
def answers : List Nat → List Binding → List Bool
  | _, [] => []
  | bound, b :: rest => (!bound.contains b.proxy) :: answers (b.proxy :: bound) rest

end Binding

structure Grammar where
  root : Rule
  rules : List (String × Rule) := []
  bindings : List Binding := []
  dropped : List String := []

namespace Grammar

def held (g : Grammar) : List Rule :=
  g.root :: (g.rules.filter fun r => !g.dropped.contains r.1).map (·.2)

def living (g : Grammar) : List Nat := Rule.gatherAll [] g.held

def isAlive (g : Grammar) (r : Rule) : Bool := g.living.contains r.id

-- The rule a proxy stands for: the first one bound to it, while that is alive.
def target? (g : Grammar) (proxy : Nat) : Option Rule :=
  (Binding.target? g.bindings proxy).filter g.isAlive

def liveBindings (g : Grammar) : List Binding :=
  let living := g.living
  g.bindings.filter fun b =>
    (Binding.target? g.bindings b.proxy).any fun r => living.contains r.id

end Grammar

end MatchTrace
