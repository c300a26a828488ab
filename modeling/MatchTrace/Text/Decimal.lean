/-!
Decimal numerals: an optional sign, then ASCII digits, leading zeros allowed, nothing else.
-/

namespace MatchTrace.Decimal

set_option autoImplicit false

def maxWord : Nat := 0xFFFFFFFFFFFFFFFF
def maxSigned : Nat := 0x7FFFFFFFFFFFFFFF
def maxHalf : Nat := 0xFFFFFFFF

def digit? (c : Char) : Option Nat :=
  if '0' ≤ c ∧ c ≤ '9' then some (c.toNat - '0'.toNat) else none

def valueFrom (acc : Nat) : List Char → Option Nat
  | [] => some acc
  | c :: cs =>
    match digit? c with
    | some d => valueFrom (acc * 10 + d) cs
    | none => none

def digits? : List Char → Option Nat
  | [] => none
  | cs => valueFrom 0 cs

-- The value of the digits after those worth `acc`, if it stays within `limit`. Digits only add to a
-- value, so reading ends as soon as it is past the limit.
def valueWithin (limit acc : Nat) (cs : List Char) : Option Nat :=
  if limit < acc then none
  else
    match cs with
    | [] => some acc
    | c :: cs =>
      match digit? c with
      | some d => valueWithin limit (acc * 10 + d) cs
      | none => none

def upTo? (limit : Nat) : List Char → Option Nat
  | [] => none
  | cs => valueWithin limit 0 cs

def nat? (limit : Nat) (s : String) : Option Nat :=
  match s.toList with
  | '+' :: cs => upTo? limit cs
  | cs => upTo? limit cs

def int? (s : String) : Option Int :=
  match s.toList with
  | '+' :: cs => (upTo? maxSigned cs).map Int.ofNat
  | '-' :: cs => (upTo? (maxSigned + 1) cs).map fun n => -Int.ofNat n
  | cs => (upTo? maxSigned cs).map Int.ofNat

end MatchTrace.Decimal
