import MatchTrace.Rule.Error
import MatchTrace.Text.Input

/-!
Lines of a text. Every line feed closes a line and belongs to it, and one line, perhaps empty,
follows the last of them; so a text has one line more than it has line feeds.
-/

namespace MatchTrace

set_option autoImplicit false

structure LineSpan where
  start : Nat
  stop : Nat
deriving DecidableEq

namespace LineSpan

def contains (r : LineSpan) (offset : Nat) : Bool := r.start ≤ offset && offset < r.stop

def length (r : LineSpan) : Nat := r.stop - r.start

def isEmpty (r : LineSpan) : Bool := r.start == r.stop

end LineSpan

structure Position where
  line : Nat
  column : Nat
deriving DecidableEq

-- The order in which positions are read.
instance : LE Position where
  le p q := p.line < q.line ∨ p.line = q.line ∧ p.column ≤ q.column

structure LineTable where
  ranges : List LineSpan
  textLength : Nat
deriving DecidableEq

namespace LineTable

-- The lines of the text still to be read, the first of which opened at `start`; `index` is the
-- position reached.
def rangesFrom (start index : Nat) : List Char → List LineSpan
  | [] => [⟨start, index⟩]
  | c :: cs =>
    if c = '\n' then ⟨start, index + 1⟩ :: rangesFrom (index + 1) (index + 1) cs
    else rangesFrom start (index + 1) cs

def build (chars : List Char) : LineTable := ⟨rangesFrom 0 0 chars, chars.length⟩

def lineCount (x : LineTable) : Nat := x.ranges.length

def lastRange (x : LineTable) : LineSpan := x.ranges.getLastD ⟨0, 0⟩

-- For a property that holds in front of one of the places from `low` up to `high` and nowhere from there on: that
-- place, looked for by halving.
def turningPlace (holds : Nat → Bool) (low high : Nat) : Nat :=
  if low < high then
    let middle := low + (high - low) / 2
    if holds middle then turningPlace holds (middle + 1) high else turningPlace holds low middle
  else low
termination_by high - low

-- Whether the line at a place, counted from 0, ends at or before an offset.
def endsBefore (x : LineTable) (offset place : Nat) : Bool := (x.ranges[place]?).any (·.stop ≤ offset)

def placeOf (x : LineTable) (offset : Nat) : Nat :=
  min (turningPlace (x.endsBefore offset) 0 x.lineCount) (x.lineCount - 1)

-- Line and column of an offset. An offset at or past the end stands for the end.
def position (x : LineTable) (offset : Nat) : Position :=
  if x.textLength ≤ offset then ⟨x.lineCount, x.textLength - x.lastRange.start + 1⟩
  else
    let place := x.placeOf offset
    let range := (x.ranges[place]?).getD x.lastRange
    ⟨place + 1, offset - range.start + 1⟩

def lineRange (x : LineTable) (number : Nat) : Except RuleError LineSpan :=
  match number with
  | 0 => .error (.invalidLine 0)
  | n + 1 => .ok ((x.ranges[n]?).getD x.lastRange)

end LineTable

def Input.lineTable (t : Input) : LineTable := LineTable.build t.chars.toList

end MatchTrace
