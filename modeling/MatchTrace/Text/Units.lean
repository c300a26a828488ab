/-!
The two lengths of a text: in UTF-16 code units and in scalar values.
-/

namespace MatchTrace

set_option autoImplicit false

def unitWidth (c : Char) : Nat := if c.toNat < 0x10000 then 1 else 2

def unitCount (s : List Char) : Nat := (s.map unitWidth).foldr (· + ·) 0

structure TextSize where
  units : Nat
  scalars : Nat
deriving DecidableEq

def textSize (s : List Char) : TextSize := ⟨unitCount s, s.length⟩

end MatchTrace
