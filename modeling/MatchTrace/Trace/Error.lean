import MatchTrace.Match.Heard
import MatchTrace.Trace.Step

/-!
What ends a traced run. Every error is final: no archive is published after one.
-/

namespace MatchTrace

set_option autoImplicit false

inductive TraceError where
  | unresolved (className : String)
  | listener (cause : Cause)
  | io (failure : Failure)
  | archiveExists (path : String)
  | unbalancedExit (level : Nat)
  | unbalancedEnter (level openCount : Nat)
  | tooManyMatchers (count : Nat)
  | writerClosed
  | invalidConfig (reason : String)
  | rule (error : RuleError)
  | malformed (entry reason : String)
deriving DecidableEq

namespace TraceError

def message : TraceError → String
  | unresolved className =>
    s!"cannot determine matcher category for {className}; register this class with the classifier"
  | listener cause => s!"parse listener error: {cause.summary}"
  | io failure => failure.message
  | archiveExists path => s!"archive path already exists: {path}"
  | unbalancedExit level => s!"exit at level {level} has no matching enter"
  | unbalancedEnter level openCount => s!"enter at level {level} with {openCount} open level(s)"
  | tooManyMatchers count => s!"too many distinct matchers: {count}"
  | writerClosed => "trace writer stopped accepting events"
  | invalidConfig reason => s!"Invalid configuration: {reason}"
  | rule error => s!"Engine error: {error.message}"
  | malformed entry reason => s!"malformed archive entry {entry}: {reason}"

def sources : TraceError → List String
  | listener cause => cause.chain
  | io failure => [failure.cause.message]
  | rule error => error.message :: error.sources
  | _ => []

def isListenerFailure : TraceError → Bool
  | listener _ => true
  | _ => false

end TraceError

inductive ListenerError where
  | trace (error : TraceError)
  | other (cause : Cause)
deriving DecidableEq

namespace ListenerError

def cause : ListenerError → Cause
  | trace error => ⟨error.message, error.sources⟩
  | other cause => cause

end ListenerError

-- A trace error that a listener raised comes back as itself.
def TraceError.ofRun : RunError ListenerError → TraceError
  | .listener (.trace error) => error
  | .listener (.other cause) => .listener cause
  | .rule error => .rule error

end MatchTrace
