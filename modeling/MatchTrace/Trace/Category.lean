/-!
The coarse role of a rule in its grammar.
-/

namespace MatchTrace

set_option autoImplicit false

inductive Category where
  | terminal
  | composite
  | predicate
  | action
deriving DecidableEq

namespace Category

def all : List Category := [terminal, composite, predicate, action]

def name : Category → String
  | terminal => "TERMINAL"
  | composite => "COMPOSITE"
  | predicate => "PREDICATE"
  | action => "ACTION"

def ofName? (s : String) : Option Category := all.find? (·.name == s)

end Category

end MatchTrace
