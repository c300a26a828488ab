/-!
Input text with access by character position.
-/

namespace MatchTrace

set_option autoImplicit false

structure Input where
  chars : Array Char
deriving DecidableEq

instance : Append Input := ⟨fun u v => ⟨u.chars ++ v.chars⟩⟩

namespace Input

def ofString (s : String) : Input := ⟨s.toList.toArray⟩

def text (t : Input) : String := String.ofList t.chars.toList

def length (t : Input) : Nat := t.chars.size

def charAt (t : Input) (i : Nat) : Option Char := t.chars[i]?

-- Whether the characters stand in the text from position `i` on. No characters at all stand at
-- every position up to the end, and at none past it.
def hasAt (t : Input) : Nat → List Char → Bool
  | i, [] => i ≤ t.length
  | i, c :: cs => t.charAt i == some c && t.hasAt (i + 1) cs

def extract (t : Input) (start stop : Nat) : String :=
  let stop := min stop t.length
  String.ofList (t.chars.extract (min start stop) stop).toList

end Input

end MatchTrace
