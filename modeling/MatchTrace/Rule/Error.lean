/-!
Why a rule cannot finish, and the chain of messages behind a failure.
-/

namespace MatchTrace

set_option autoImplicit false

structure Cause where
  message : String
  sources : List String := []
deriving DecidableEq

def Cause.chain (c : Cause) : List String := c.message :: c.sources

def Cause.summary (c : Cause) : String := ": ".intercalate c.chain

inductive RuleError where
  | invalidLine (number : Nat)
  | unboundProxy (label : String)
  | actionFailed (label : String) (cause : Cause)
deriving DecidableEq

namespace RuleError

def message : RuleError → String
  | .invalidLine number => s!"invalid line number: {number}"
  | .unboundProxy label => s!"unbound proxy rule: {label}"
  | .actionFailed label cause => s!"action '{label}' failed: {cause.message}"

def sources : RuleError → List String
  | .actionFailed _ cause => cause.chain
  | _ => []

end RuleError

end MatchTrace
