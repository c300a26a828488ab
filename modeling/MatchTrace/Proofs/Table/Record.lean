import MatchTrace.Proofs.Table.Row
import MatchTrace.Proofs.Text.Decimal
import MatchTrace.Table.Totals

/-!
Every row that was written is one line, and reads back as what it was written from, as long as the
numbers are words of the widths that the table has for them.
-/

namespace MatchTrace

set_option autoImplicit false

variable {α : Type}

structure FinishedCall.Fits (r : FinishedCall) : Prop where
  parent_low : -2 ^ 63 ≤ r.parentId
  parent_high : r.parentId < 2 ^ 63
  id : r.id ≤ Decimal.maxWord
  level : r.level ≤ Decimal.maxWord
  matcher : r.matcherId ≤ Decimal.maxHalf
  start : r.startOffset ≤ Decimal.maxWord
  stop : r.endOffset ≤ Decimal.maxWord
  elapsed : r.elapsedNanos ≤ Decimal.maxWord

def Descriptor.Fits (d : Descriptor) : Prop := d.id ≤ Decimal.maxHalf

structure Totals.Fits (s : Totals) : Prop where
  start : s.startTimeMillis ≤ Decimal.maxWord
  events : s.eventCount ≤ Decimal.maxWord
  matchers : s.matcherCount ≤ Decimal.maxWord
  lines : s.lineCount ≤ Decimal.maxWord
  chars : s.charCount ≤ Decimal.maxWord
  codePoints : s.codePointCount ≤ Decimal.maxWord
  nodes : s.nodeCount ≤ Decimal.maxWord

namespace Row

def Holds (read : String → Except RowError α) (written : String) (x : α) : Prop :=
  ∃ line : List Char, written = String.ofList (line ++ ['\n']) ∧ (∀ c ∈ line, c ≠ '\n' ∧ c ≠ '\r') ∧
    read (String.ofList line) = .ok x

theorem fields_join (field : String) (rest : List String) :
    fields (String.ofList (join ((field :: rest).map String.toList))) = field :: rest := by
  rw [fields, String.toList_ofList, List.map_cons, split_join, List.map_cons, List.map_map, String.ofList_toList]
  exact congrArg _ ((List.map_congr_left fun s _ => String.ofList_toList).trans (List.map_id _))

theorem holds_line (read : String → Except RowError α) (x : α) (field : String) (rest : List String)
    (back : ∀ row, fields row = field :: rest → read row = .ok x) : Holds read (line (field :: rest)) x :=
  ⟨join ((field :: rest).map String.toList), rfl, fun c mem => join_one_line _ c mem, back _ (fields_join field rest)⟩

theorem word_of_string (name : String) (n : Nat) (bound : n ≤ Decimal.maxWord) : word name (toString n) = .ok n := by
  rw [word, Decimal.nat_of_string _ n bound, field]

theorem half_of_string (name : String) (n : Nat) (bound : n ≤ Decimal.maxHalf) : half name (toString n) = .ok n := by
  rw [half, Decimal.nat_of_string _ n bound, field]

theorem signed_of_string (name : String) (z : Int) (low : -2 ^ 63 ≤ z) (high : z < 2 ^ 63) :
    signed name (toString z) = .ok z := by
  rw [signed, Decimal.int_of_string z low high, field]

theorem flag_of_string (name : String) (b : Bool) :
    field name (if b then "1" else "0") (flag? (if b then "1" else "0")) = .ok b := by
  cases b <;> rfl

end Row

theorem category_of_name (k : Category) : Category.parse k.name = .ok k := by
  cases k <;> rfl

theorem finished_call_holds (r : FinishedCall) (fits : r.Fits) : Row.Holds FinishedCall.ofRow r.toRow r := by
  apply Row.holds_line
  intro row fields
  rw [FinishedCall.ofRow, fields]
  simp only [Row.flag_of_string, Row.signed_of_string _ _ fits.parent_low fits.parent_high,
    Row.word_of_string _ _ fits.id, Row.word_of_string _ _ fits.level, Row.half_of_string _ _ fits.matcher,
    Row.word_of_string _ _ fits.start, Row.word_of_string _ _ fits.stop, Row.word_of_string _ _ fits.elapsed]
  rfl

theorem descriptor_holds (d : Descriptor) (fits : d.Fits) : Row.Holds Descriptor.ofRow d.toRow d := by
  apply Row.holds_line
  intro row fields
  rw [Descriptor.ofRow, fields]
  simp only [category_of_name, Row.half_of_string _ _ fits]
  rfl

theorem totals_hold (s : Totals) (fits : s.Fits) : Row.Holds Totals.ofRow s.toRow s := by
  apply Row.holds_line
  intro row fields
  rw [Totals.ofRow, fields]
  simp only [Row.word_of_string _ _ fits.start, Row.word_of_string _ _ fits.events,
    Row.word_of_string _ _ fits.matchers, Row.word_of_string _ _ fits.lines, Row.word_of_string _ _ fits.chars,
    Row.word_of_string _ _ fits.codePoints, Row.word_of_string _ _ fits.nodes]
  rfl

end MatchTrace
