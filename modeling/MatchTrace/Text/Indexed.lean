import MatchTrace.Text.LineTable

/-!
An input text whose line table is built when it is first asked for. Everyone who holds the text
sees whether that has happened.
-/

namespace MatchTrace

set_option autoImplicit false

structure IndexedText where
  input : Input
  indexed : Bool := false
deriving DecidableEq

namespace IndexedText

def ofString (s : String) : IndexedText := ⟨.ofString s, false⟩

def withTable (b : IndexedText) : IndexedText := { b with indexed := true }

def lineCount (b : IndexedText) : Nat × IndexedText := (b.input.lineTable.lineCount, b.withTable)

def position (b : IndexedText) (offset : Nat) : Position × IndexedText :=
  (b.input.lineTable.position offset, b.withTable)

def lineRange (b : IndexedText) (number : Nat) : Except RuleError LineSpan × IndexedText :=
  (b.input.lineTable.lineRange number, b.withTable)

def dropBefore (t : Input) (start stop : Nat) (c : Char) : Nat :=
  if start < stop ∧ t.charAt (stop - 1) = some c then stop - 1 else stop

def lineText (t : Input) (r : LineSpan) : String :=
  t.extract r.start (dropBefore t r.start (dropBefore t r.start r.stop '\n') '\r')

def extractLine (b : IndexedText) (number : Nat) : Except RuleError String × IndexedText :=
  ((b.input.lineTable.lineRange number).map (lineText b.input), b.withTable)

def describe (b : IndexedText) : String :=
  "TextBuffer \x7b length: " ++ toString b.input.length ++ ", line_index_built: " ++
    toString b.indexed ++ " \x7d"

end IndexedText

end MatchTrace
