/-!
Numbers and stretches in bytes. A number has its low byte first.
-/

namespace MatchTrace.Zip

set_option autoImplicit false

def byteAt? (b : ByteArray) (i : Nat) : Option Nat := (b[i]?).map UInt8.toNat

def word16? (b : ByteArray) (i : Nat) : Option Nat := do
  return (← byteAt? b i) + 0x100 * (← byteAt? b (i + 1))

def word32? (b : ByteArray) (i : Nat) : Option Nat := do
  return (← word16? b i) + 0x10000 * (← word16? b (i + 2))

def word64? (b : ByteArray) (i : Nat) : Option Nat := do
  return (← word32? b i) + 0x100000000 * (← word32? b (i + 4))

def slice? (b : ByteArray) (start count : Nat) : Option ByteArray :=
  if start + count ≤ b.size then some (b.extract start (start + count)) else none

def markedBetween? {α : Type} (b : ByteArray) (mark start stop : Nat) (lead : Nat → Option α) :
    Option α :=
  (List.range (stop - 3 - start)).findSome? fun k =>
    if word32? b (start + k) = some mark then lead (start + k) else none

end MatchTrace.Zip
