import MatchTrace.Rule.Basic

/-!
What a run tells about itself: every invocation of a rule is announced when it opens and when it
ends, between a first hook for the whole parse and a last one with its result.
-/

namespace MatchTrace

set_option autoImplicit false

structure Call where
  rule : Rule
  index : Nat
  level : Nat

-- The end index of a failure is 0.
structure ParseResult where
  matched : Bool
  endIndex : Nat
  inputLength : Nat
deriving DecidableEq

inductive Hook where
  | beforeParse (call : Call) (input : Input)
  | beforeMatch (call : Call)
  | matchSuccess (call : Call)
  | matchFailure (call : Call)
  | afterParse (result : ParseResult)

end MatchTrace
