import MatchTrace.Cli.Args

/-!
What the command line tells its user beside results.
-/

namespace MatchTrace.Cli

set_option autoImplicit false

def versionText : String := "rule-trace 0.1.1\n"

def helpText : String :=
  "Trace rule matching runs into replayable archives\n\n" ++
  "Usage: rule-trace [--verbose] [--quiet] COMMAND\n\n" ++
  "  trace --grammar arith|csv|lines --input FILE [--output FILE] [--config FILE]\n" ++
  "        [--format nodes|events] [--stored]\n" ++
  "  inspect FILE [--matchers] [--json]\n"

namespace Usage

def complaint : Usage → String
  | help | version | helpForNothing => ""
  | missingSubcommand => "error: a command is required\n"
  | invalidSubcommand => "error: there is no such command\n"
  | unknownArgument => "error: unexpected argument\n"
  | tooManyValues => "error: unexpected value for an option\n"
  | repeated => "error: an option is given twice\n"
  | invalidValue => "error: a value is missing or does not fit\n"
  | missingRequired => "error: a required argument is missing\n"

end Usage

-- The causes of an error on lines of their own; if there are more than one, they are numbered.
def causeLines : List String → List String
  | [cause] => [s!"    {cause}\n"]
  | causes => causes.zipIdx.map fun (cause, n) =>
    String.ofList (List.replicate (5 - (toString n).length) ' ') ++ s!"{n}: {cause}\n"

def failureText : List String → String
  | [] => ""
  | [message] => s!"Error: {message}\n"
  | message :: causes => s!"Error: {message}\n\nCaused by:\n" ++ String.join (causeLines causes)

end MatchTrace.Cli
