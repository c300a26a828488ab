/-!
The arguments of the command line. Options are read from left to right; an option that takes a value
waits for it, and is looked at when the next option comes or the arguments end.
-/

namespace MatchTrace.Cli

set_option autoImplicit false

inductive Usage where
  | help
  | version
  | helpForNothing
  | missingSubcommand
  | invalidSubcommand
  | unknownArgument
  | tooManyValues
  | repeated
  | invalidValue
  | missingRequired
deriving DecidableEq

namespace Usage

def name : Usage → String
  | help => "DisplayHelp"
  | version => "DisplayVersion"
  | helpForNothing => "DisplayHelpOnMissingArgumentOrSubcommand"
  | missingSubcommand => "MissingSubcommand"
  | invalidSubcommand => "InvalidSubcommand"
  | unknownArgument => "UnknownArgument"
  | tooManyValues => "TooManyValues"
  | repeated => "ArgumentConflict"
  | invalidValue => "InvalidValue"
  | missingRequired => "MissingRequiredArgument"

def exitCode : Usage → Nat
  | help | version => 0
  | _ => 2

end Usage

inductive Level where
  | top
  | trace
  | inspect
deriving DecidableEq

inductive Arg where
  | help
  | version
  | verbose
  | quiet
  | grammar
  | input
  | output
  | format
  | stored
  | config
  | archive
  | matchers
  | json
deriving DecidableEq

namespace Arg

def longName : Arg → String
  | help => "help"
  | version => "version"
  | verbose => "verbose"
  | quiet => "quiet"
  | grammar => "grammar"
  | input => "input"
  | output => "output"
  | format => "format"
  | stored => "stored"
  | config => "config"
  | archive => ""
  | matchers => "matchers"
  | json => "json"

def shortName? : Arg → Option Char
  | help => some 'h'
  | version => some 'V'
  | verbose => some 'v'
  | grammar => some 'g'
  | input => some 'i'
  | output => some 'o'
  | _ => none

def takesValue : Arg → Bool
  | grammar | input | output | format | config | archive => true
  | _ => false

def accepts (a : Arg) (value : String) : Bool :=
  if a = grammar then ["arith", "csv", "lines"].contains value
  else if a = format then ["nodes", "events"].contains value
  else value ≠ ""

def options : Level → List Arg
  | .top => [help, version, verbose, quiet]
  | .trace => [help, verbose, quiet, grammar, input, output, format, stored, config]
  | .inspect => [help, verbose, quiet, matchers, json]

def required : Level → List Arg
  | .top => []
  | .trace => [grammar, input]
  | .inspect => [archive]

end Arg

structure Given where
  args : List (Arg × String) := []
  waiting : Option (Arg × Option String) := none
deriving DecidableEq

namespace Given

def has (g : Given) (a : Arg) : Bool := g.args.any (·.1 == a)

def value? (g : Given) (a : Arg) : Option String := (g.args.find? (·.1 == a)).map (·.2)

def add (g : Given) (a : Arg) (value : String) : Except Usage Given :=
  if a = .help then .error .help
  else if a = .version then .error .version
  else if g.has a then .error .repeated
  else if a.takesValue && !a.accepts value then .error .invalidValue
  else .ok { g with args := g.args ++ [(a, value)] }

def resolve (g : Given) : Except Usage Given :=
  match g.waiting with
  | none => .ok g
  | some (_, none) => .error .invalidValue
  | some (a, some value) => { g with waiting := none }.add a value

def flag (g : Given) (a : Arg) : Except Usage Given := do (← g.resolve).add a ""

def option (g : Given) (a : Arg) : Option String → Except Usage Given
  | some value => do (← g.resolve).add a value
  | none => do return { (← g.resolve) with waiting := some (a, none) }

end Given

def cutEquals : List Char → List Char × Option (List Char)
  | [] => ([], none)
  | c :: cs =>
    if c = '=' then ([], some cs)
    else
      let (name, value) := cutEquals cs
      (c :: name, value)

def longOption (level : Level) (g : Given) (text : List Char) : Except Usage Given :=
  let (name, value) := cutEquals text
  match (Arg.options level).find? (·.longName == String.ofList name) with
  | none => .error .unknownArgument
  | some a =>
    if a.takesValue then g.option a (value.map String.ofList)
    else if value.isSome then .error .tooManyValues
    else g.flag a

-- Letters after one dash. What follows the letter of an option with a value is its value.
def shortOptions (level : Level) : Given → List Char → Except Usage Given
  | g, [] => .ok g
  | g, c :: cs =>
    match (Arg.options level).find? (·.shortName? == some c) with
    | none => .error .unknownArgument
    | some a =>
      if a.takesValue then
        match cs with
        | [] => g.option a none
        | '=' :: value => g.option a (some (String.ofList value))
        | value => g.option a (some (String.ofList value))
      else
        match g.flag a with
        | .ok g => shortOptions level g cs
        | .error e => .error e

-- A word that is no option. After the mark that ends options, it cannot be the value of one.
def word (level : Level) (g : Given) (isPlain : Bool) (text : String) : Except Usage Given :=
  match g.waiting, isPlain with
  | some (a, none), false => .ok { g with waiting := some (a, some text) }
  | _, _ =>
    let isTaken := g.has .archive || (g.waiting.map (·.1)) == some .archive
    if level = .inspect && !isTaken then do
      return { (← g.resolve) with waiting := some (.archive, some text) }
    else .error .unknownArgument

def readArgs (level : Level) : Bool → Given → List String → Except Usage Given
  | _, g, [] => g.resolve
  | true, g, text :: rest => do readArgs level true (← word level g true text) rest
  | false, g, text :: rest =>
    match text.toList with
    | ['-', '-'] => readArgs level true g rest
    | '-' :: '-' :: name => do readArgs level false (← longOption level g name) rest
    | ['-'] => do readArgs level false (← word level g false text) rest
    | '-' :: letters => do readArgs level false (← shortOptions level g letters) rest
    | _ => do readArgs level false (← word level g false text) rest

inductive Command where
  | trace (given : Given)
  | inspect (given : Given)
deriving DecidableEq

def checkRequired (level : Level) (g : Given) : Except Usage Given :=
  if (Arg.required level).all g.has then .ok g else .error .missingRequired

def subcommandNames : List String := ["trace", "inspect", "help"]

def helpFor : List String → Usage
  | [] => .help
  | [name] => if subcommandNames.contains name then .help else .invalidSubcommand
  | _ => .invalidSubcommand

def subcommand (name : String) (rest : List String) : Except Usage Command :=
  if name = "trace" then do
    return .trace (← checkRequired .trace (← readArgs .trace false {} rest))
  else if name = "inspect" then do
    return .inspect (← checkRequired .inspect (← readArgs .inspect false {} rest))
  else .error (helpFor rest)

def readCommand : Given → List String → Except Usage Command
  | g, [] => .error (if g.args.isEmpty then .helpForNothing else .missingSubcommand)
  | g, text :: rest =>
    if subcommandNames.contains text then subcommand text rest
    else
      match text.toList with
      | ['-', '-'] =>
        match rest with
        | [] => readCommand g []
        | name :: _ =>
          .error (if subcommandNames.contains name then .unknownArgument else .invalidSubcommand)
      | '-' :: '-' :: name => do readCommand (← longOption .top g name) rest
      | ['-'] => .error .invalidSubcommand
      | '-' :: letters => do readCommand (← shortOptions .top g letters) rest
      | _ => .error .invalidSubcommand

end MatchTrace.Cli
