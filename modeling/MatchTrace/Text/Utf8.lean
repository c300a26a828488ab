/-!
Bytes as text. Where they are no UTF-8, the bytes that could have begun a character count as one
unknown character, and reading goes on with the first byte that does not fit.
-/

namespace MatchTrace.Utf8

set_option autoImplicit false

-- A character that has begun: its bits so far, how many bytes it still lacks, and the least and the
-- greatest that the next one may be.
structure Begun where
  value : Nat
  lacking : Nat
  least : Nat := 0x80
  greatest : Nat := 0xBF

def unknown : Char := '\uFFFD'

-- A byte between characters. The bounds rule out longer forms than needed, surrogates, and numbers
-- past the last character.
def first (b : Nat) : List Char × Option Begun :=
  if b < 0x80 then ([Char.ofNat b], none)
  else if b < 0xC2 then ([unknown], none)
  else if b < 0xE0 then ([], some { value := b % 0x20, lacking := 1 })
  else if b = 0xE0 then ([], some { value := b % 0x10, lacking := 2, least := 0xA0 })
  else if b = 0xED then ([], some { value := b % 0x10, lacking := 2, greatest := 0x9F })
  else if b < 0xF0 then ([], some { value := b % 0x10, lacking := 2 })
  else if b = 0xF0 then ([], some { value := b % 8, lacking := 3, least := 0x90 })
  else if b < 0xF4 then ([], some { value := b % 8, lacking := 3 })
  else if b = 0xF4 then ([], some { value := b % 8, lacking := 3, greatest := 0x8F })
  else ([unknown], none)

def step : Option Begun → Nat → List Char × Option Begun
  | none, b => first b
  | some c, b =>
    if c.least ≤ b ∧ b ≤ c.greatest then
      let value := 0x40 * c.value + b % 0x40
      if c.lacking = 1 then ([Char.ofNat value], none)
      else ([], some { value := value, lacking := c.lacking - 1 })
    else
      let (done, next) := first b
      (unknown :: done, next)

def charsFrom : Option Begun → List UInt8 → List Char
  | none, [] => []
  | some _, [] => [unknown]
  | c, b :: rest =>
    let (done, next) := step c b.toNat
    done ++ charsFrom next rest

def decodeLossy (bytes : ByteArray) : String := String.ofList (charsFrom none bytes.toList)

end MatchTrace.Utf8
