import MatchTrace.Table.Row
import MatchTrace.Text.Decimal
import MatchTrace.Text.Escape
import MatchTrace.Trace.Event

/-!
Finished invocations and matcher descriptors as rows of a table, and back.
-/

namespace MatchTrace

set_option autoImplicit false

inductive RowError where
  | fieldCount (expected found : Nat) (row : String)
  | badField (name text : String)
  | unknownCategory (text : String)
deriving DecidableEq

namespace RowError

def message : RowError → String
  | fieldCount expected found row => s!"expected {expected} fields, found {found} in {quote row}"
  | badField name text => s!"invalid {name}: {quote text}"
  | unknownCategory text => s!"unknown matcher category: {text}"

end RowError

def Category.parse (s : String) : Except RowError Category :=
  match Category.ofName? s with
  | some k => .ok k
  | none => .error (.unknownCategory s)

namespace Row

def fields (row : String) : List String := (split row.toList).map String.ofList

def line (fields : List String) : String :=
  String.ofList (join (fields.map String.toList) ++ ['\n'])

def wrongCount {α : Type} (expected : Nat) (row : String) : Except RowError α :=
  .error (.fieldCount expected (fields row).length row)

def field {α : Type} (name text : String) (value : Option α) : Except RowError α :=
  match value with
  | some x => .ok x
  | none => .error (.badField name text)

def word (name text : String) : Except RowError Nat :=
  field name text (Decimal.nat? Decimal.maxWord text)

def half (name text : String) : Except RowError Nat :=
  field name text (Decimal.nat? Decimal.maxHalf text)

def signed (name text : String) : Except RowError Int := field name text (Decimal.int? text)

def flag? (text : String) : Option Bool :=
  if text = "1" then some true else if text = "0" then some false else none

end Row

namespace FinishedCall

def toRow (r : FinishedCall) : String :=
  Row.line [toString r.parentId, toString r.id, toString r.level, if r.success then "1" else "0",
    toString r.matcherId, toString r.startOffset, toString r.endOffset, toString r.elapsedNanos]

-- The flag is looked at before the numbers.
def ofRow (row : String) : Except RowError FinishedCall :=
  match Row.fields row with
  | [parentId, id, level, success, matcherId, startOffset, endOffset, elapsedNanos] => do
    let success ← Row.field "success flag" success (Row.flag? success)
    let parentId ← Row.signed "parentId" parentId
    let id ← Row.word "id" id
    let level ← Row.word "level" level
    let matcherId ← Row.half "matcherId" matcherId
    let startOffset ← Row.word "startOffset" startOffset
    let endOffset ← Row.word "endOffset" endOffset
    let elapsedNanos ← Row.word "elapsedNanos" elapsedNanos
    return ⟨parentId, id, level, success, matcherId, startOffset, endOffset, elapsedNanos⟩
  | _ => Row.wrongCount 8 row

end FinishedCall

namespace Descriptor

def toRow (d : Descriptor) : String :=
  Row.line [toString d.id, d.className, d.category.name, d.label]

-- The category is looked at before the number.
def ofRow (row : String) : Except RowError Descriptor :=
  match Row.fields row with
  | [id, className, category, label] => do
    let category ← Category.parse category
    let id ← Row.half "id" id
    return ⟨id, className, category, label⟩
  | _ => Row.wrongCount 4 row

end Descriptor

end MatchTrace
