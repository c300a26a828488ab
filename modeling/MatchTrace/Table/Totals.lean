import MatchTrace.Table.Record

/-!
Totals of a traced run, as one row.
-/

namespace MatchTrace

set_option autoImplicit false

-- `charCount` counts UTF-16 code units and `codePointCount` scalar values, the unit of every offset.
structure Totals where
  startTimeMillis : Nat
  eventCount : Nat
  matcherCount : Nat
  lineCount : Nat
  charCount : Nat
  codePointCount : Nat
  nodeCount : Nat
deriving DecidableEq

namespace Totals

def toRow (s : Totals) : String :=
  Row.line [toString s.startTimeMillis, toString s.eventCount, toString s.matcherCount,
    toString s.lineCount, toString s.charCount, toString s.codePointCount, toString s.nodeCount]

def ofRow (row : String) : Except RowError Totals :=
  match Row.fields row with
  | [startTimeMillis, eventCount, matcherCount, lineCount, charCount, codePointCount,
      nodeCount] => do
    let startTimeMillis ← Row.word "startTimeMillis" startTimeMillis
    let eventCount ← Row.word "eventCount" eventCount
    let matcherCount ← Row.word "matcherCount" matcherCount
    let lineCount ← Row.word "lineCount" lineCount
    let charCount ← Row.word "charCount" charCount
    let codePointCount ← Row.word "codePointCount" codePointCount
    let nodeCount ← Row.word "nodeCount" nodeCount
    return ⟨startTimeMillis, eventCount, matcherCount, lineCount, charCount, codePointCount,
      nodeCount⟩
  | _ => Row.wrongCount 7 row

end Totals

end MatchTrace
