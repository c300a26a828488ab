import MatchTrace.Rule.Class
import MatchTrace.Trace.Category
import MatchTrace.Trace.Error

/-!
Categories of rule classes. A registered class has its own category; any other takes that of the
class above it that was registered first. Answers of the second kind are remembered until the next
registration.
-/

namespace MatchTrace

set_option autoImplicit false

abbrev Registrations := List (RuleClass × Category)

namespace Registrations

def lookup (entries : Registrations) (c : RuleClass) : Option Category :=
  (entries.find? (·.1 == c)).map (·.2)

-- A class that is registered again keeps its place and takes the new category.
def register (c : RuleClass) (k : Category) : Registrations → Registrations
  | [] => [(c, k)]
  | (d, j) :: rest => if d = c then (d, k) :: rest else (d, j) :: register c k rest

def inherited (entries : Registrations) (c : RuleClass) : Option Category :=
  (entries.find? fun e => c.isA e.1).map (·.2)

def builtIns : Registrations := [
  (.join, .composite), (.trie, .terminal), (.unicodeChar, .terminal),
  (.combinedUnicodeRange, .composite), (.unicodeRange, .terminal), (.action, .action),
  (.any, .terminal), (.anyOf, .terminal), (.charIgnoreCase, .terminal), (.char, .terminal),
  (.charRange, .terminal), (.empty, .terminal), (.firstOfStrings, .terminal),
  (.firstOf, .composite), (.nothing, .terminal), (.oneOrMore, .composite),
  (.optional, .composite), (.sequence, .composite), (.string, .terminal), (.test, .predicate),
  (.testNot, .predicate), (.zeroOrMore, .composite), (.proxy, .composite),
  (.memoMismatches, .composite), (.varFraming, .composite)]

def withBuiltIns (entries : Registrations) : Registrations :=
  builtIns.foldl (fun known e => known.register e.1 e.2) entries

end Registrations

-- Registered classes are held twice: in order, and once more to be found directly.
structure Classifier where
  entries : Registrations := []
  exact : Registrations := []
  cache : Registrations := []
deriving DecidableEq

namespace Classifier

-- The registrations of a builder have one entry for each class.
def build (entries : Registrations) : Classifier := { entries, exact := entries }

def builtIn : Classifier := build (Registrations.withBuiltIns [])

def register (x : Classifier) (c : RuleClass) (k : Category) : Classifier :=
  { entries := x.entries.register c k, exact := (c, k) :: x.exact }

def classify (x : Classifier) (c : RuleClass) : Except TraceError Category × Classifier :=
  match (x.exact.lookup c).or (x.cache.lookup c) with
  | some k => (.ok k, x)
  | none =>
    match x.entries.inherited c with
    | some k => (.ok k, { x with cache := (c, k) :: x.cache })
    | none => (.error (.unresolved c.name), x)

def size (x : Classifier) : Nat := x.entries.length

def cachedSize (x : Classifier) : Nat := x.cache.length

end Classifier

end MatchTrace
