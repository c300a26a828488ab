import MatchTrace.Rule.Class
import MatchTrace.Text.CaseMap
import MatchTrace.Text.Escape
import MatchTrace.Text.Input

/-!
Rules without children: each looks at the text from a position on and tells how far it moves.
-/

namespace MatchTrace

set_option autoImplicit false

inductive Terminal where
  | ch (c : Char)
  | endOfInput
  | ignoreCase (lower upper : Char)
  | range (low high : Char)
  | anyOf (chars : List Char)
  | any
  | empty
  | nothing
  | string (chars : List Char)
  | firstOfStrings (alternatives : List (List Char))
deriving DecidableEq

namespace Terminal

def ofEitherCase (c : Char) : Terminal := .ignoreCase (lowerCase c) (upperCase c)

def charWidth (t : Input) (i : Nat) (accepts : Char → Bool) : Option Nat :=
  match t.charAt i with
  | some c => if accepts c then some 1 else none
  | none => none

-- How many positions the terminal moves on from `i`, if it matches there. The end of input is a
-- character of its own, so matching it moves one past the end.
def width (t : Input) (i : Nat) : Terminal → Option Nat
  | .ch c => charWidth t i (· == c)
  | .endOfInput => if i = t.length then some 1 else none
  | .ignoreCase lower upper => charWidth t i fun c => c == lower || c == upper
  | .range low high => charWidth t i fun c => low ≤ c && c ≤ high
  | .anyOf chars => charWidth t i chars.contains
  | .any => if i < t.length then some 1 else none
  | .empty => some 0
  | .nothing => none
  | .string chars => if t.hasAt i chars then some chars.length else none
  | .firstOfStrings alternatives => (alternatives.find? (t.hasAt i)).map List.length

def ruleClass : Terminal → RuleClass
  | .ch _ => .char
  | .endOfInput => .char
  | .ignoreCase _ _ => .charIgnoreCase
  | .range _ _ => .charRange
  | .anyOf _ => .anyOf
  | .any => .any
  | .empty => .empty
  | .nothing => .nothing
  | .string _ => .string
  | .firstOfStrings _ => .firstOfStrings

def inQuotes (s : String) : String := "\"" ++ s ++ "\""

def label : Terminal → String
  | .ch c => "'" ++ escapeAscii [c] ++ "'"
  | .endOfInput => "EOI"
  | .ignoreCase lower upper => String.ofList ['\'', lower, '/', upper, '\'']
  | .range low high => String.ofList [low, '.', '.', high]
  | .anyOf chars => "[" ++ escapeAscii chars ++ "]"
  | .any => "ANY"
  | .empty => "EMPTY"
  | .nothing => "NOTHING"
  | .string chars => inQuotes (escapeAscii chars)
  | .firstOfStrings alternatives =>
    " | ".intercalate (alternatives.map fun s => inQuotes (String.ofList s))

end Terminal

end MatchTrace
