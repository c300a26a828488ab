/-!
Classes of rules. A class has at most one parent, and tools tell the role of a rule by its class and
the classes above it.
-/

namespace MatchTrace

set_option autoImplicit false

-- Two classes are the same when they were defined together: the number tells definitions of one
-- name apart.
inductive RuleClass where
  | base (id : Nat) (name : String)
  | derived (id : Nat) (name : String) (parent : RuleClass)
deriving DecidableEq

namespace RuleClass

def name : RuleClass → String
  | base _ name => name
  | derived _ name _ => name

def parent? : RuleClass → Option RuleClass
  | base _ _ => none
  | derived _ _ parent => some parent

def lineage : RuleClass → List RuleClass
  | base id name => [base id name]
  | derived id name parent => derived id name parent :: lineage parent

def isA (c d : RuleClass) : Bool := d ∈ c.lineage

def describe : RuleClass → String
  | base _ name => name
  | derived _ name parent => name ++ " : " ++ parent.name

def action : RuleClass := base 0 "ActionMatcher"
def any : RuleClass := base 1 "AnyMatcher"
def anyOf : RuleClass := base 2 "AnyOfMatcher"
def charIgnoreCase : RuleClass := base 3 "CharIgnoreCaseMatcher"
def char : RuleClass := base 4 "CharMatcher"
def charRange : RuleClass := base 5 "CharRangeMatcher"
def empty : RuleClass := base 6 "EmptyMatcher"
def firstOf : RuleClass := base 7 "FirstOfMatcher"
def firstOfStrings : RuleClass := derived 8 "FirstOfStringsMatcher" firstOf
def nothing : RuleClass := base 9 "NothingMatcher"
def oneOrMore : RuleClass := base 10 "OneOrMoreMatcher"
def optional : RuleClass := base 11 "OptionalMatcher"
def sequence : RuleClass := base 12 "SequenceMatcher"
def string : RuleClass := derived 13 "StringMatcher" sequence
def test : RuleClass := base 14 "TestMatcher"
def testNot : RuleClass := base 15 "TestNotMatcher"
def zeroOrMore : RuleClass := base 16 "ZeroOrMoreMatcher"
def proxy : RuleClass := base 17 "ProxyMatcher"
def memoMismatches : RuleClass := base 18 "MemoMismatchesMatcher"
def varFraming : RuleClass := base 19 "VarFramingMatcher"
def join : RuleClass := base 20 "JoinMatcher"
def trie : RuleClass := base 21 "TrieMatcher"
def unicodeChar : RuleClass := base 22 "UnicodeCharMatcher"
def unicodeRange : RuleClass := base 23 "UnicodeRangeMatcher"
def combinedUnicodeRange : RuleClass := base 24 "CombinedUnicodeRangeMatcher"

def builtIns : List RuleClass :=
  [action, any, anyOf, charIgnoreCase, char, charRange, empty, firstOf, firstOfStrings, nothing,
   oneOrMore, optional, sequence, string, test, testNot, zeroOrMore, proxy, memoMismatches,
   varFraming, join, trie, unicodeChar, unicodeRange, combinedUnicodeRange]

end RuleClass

end MatchTrace
