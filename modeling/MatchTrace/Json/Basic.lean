import MatchTrace.Text.Decimal
import MatchTrace.Text.Hex

/-!
JSON values. Numbers and strings are kept as they are written: what a literal stands for is asked
when it is wanted, so a value nobody looks at need not stand for anything.
-/

namespace MatchTrace

set_option autoImplicit false

inductive JsonValue where
  | null
  | bool (value : Bool)
  | number (literal : List Char)
  | string (literal : List Char)
  | array (items : List JsonValue)
  | object (members : List (List Char × JsonValue))

namespace JsonValue

def hexUnit? (a b c d : Char) : Option Nat := do
  let a ← hexDigit? a
  let b ← hexDigit? b
  let c ← hexDigit? c
  let d ← hexDigit? d
  return ((a * 16 + b) * 16 + c) * 16 + d

def isHighSurrogate (unit : Nat) : Bool := 0xD800 ≤ unit && unit ≤ 0xDBFF

def isLowSurrogate (unit : Nat) : Bool := 0xDC00 ≤ unit && unit ≤ 0xDFFF

def shortEscape? (c : Char) : Option Char :=
  if c = '"' ∨ c = '\\' ∨ c = '/' then some c
  else if c = 'b' then some '\x08'
  else if c = 'f' then some '\x0c'
  else if c = 'n' then some '\n'
  else if c = 'r' then some '\r'
  else if c = 't' then some '\t'
  else none

-- What a string literal stands for; none if half of a surrogate pair is missing.
def unescape : List Char → Option (List Char)
  | [] => some []
  | '\\' :: 'u' :: a :: b :: c :: d :: rest => do
    let unit ← hexUnit? a b c d
    if isHighSurrogate unit then
      match rest with
      | '\\' :: 'u' :: a :: b :: c :: d :: rest => do
        let low ← hexUnit? a b c d
        if isLowSurrogate low then
          return Char.ofNat (0x10000 + (unit - 0xD800) * 0x400 + (low - 0xDC00)) ::
            (← unescape rest)
        else none
      | _ => none
    else if isLowSurrogate unit then none
    else return Char.ofNat unit :: (← unescape rest)
  | '\\' :: c :: rest => do return (← shortEscape? c) :: (← unescape rest)
  | c :: rest => do return c :: (← unescape rest)

def escapeControl (c : Char) : List Char :=
  '\\' :: 'u' :: '0' :: '0' :: (Nat.toDigits 16 (c.toNat / 16) ++ Nat.toDigits 16 (c.toNat % 16))

def escapeChar? (c : Char) : Option (List Char) :=
  if c = '"' ∨ c = '\\' then some ['\\', c]
  else if c = '\x08' then some ['\\', 'b']
  else if c = '\x0c' then some ['\\', 'f']
  else if c = '\n' then some ['\\', 'n']
  else if c = '\r' then some ['\\', 'r']
  else if c = '\t' then some ['\\', 't']
  else if c.toNat < 0x20 then some (escapeControl c)
  else none

def escape (s : List Char) : List Char := s.flatMap fun c => (escapeChar? c).getD [c]

def ofText (s : String) : JsonValue := .string (escape s.toList)

def ofNat (n : Nat) : JsonValue := .number (toString n).toList

def ofInt (n : Int) : JsonValue := .number (toString n).toList

def text? : JsonValue → Option String
  | .string literal => (unescape literal).map String.ofList
  | _ => none

def nat? (limit : Nat) : JsonValue → Option Nat
  | .number literal => Decimal.upTo? limit literal
  | _ => none

-- A 64-bit signed number, written without point or exponent. A zero has no sign.
def int? : JsonValue → Option Int
  | .number ('-' :: digits) =>
    match Decimal.upTo? (Decimal.maxSigned + 1) digits with
    | some 0 => none
    | some n => some (-Int.ofNat n)
    | none => none
  | v => (v.nat? Decimal.maxSigned).map Int.ofNat

def items? : JsonValue → Option (List JsonValue)
  | .array items => some items
  | _ => none

end JsonValue

end MatchTrace
