import MatchTrace.Archive.Publish

/-!
Reading a published archive back. Its entries are read one after the other, and the first that
cannot be read tells the error. A table of events is preferred to one of nodes, even if it is
broken.
-/

namespace MatchTrace

set_option autoImplicit false

inductive Trace where
  | nodes (rows : List FinishedCall)
  | events (rows : List EventEntry)
deriving DecidableEq

namespace Trace

def layout : Trace → Layout
  | nodes _ => .nodes
  | events _ => .events

def size : Trace → Nat
  | nodes rows => rows.length
  | events rows => rows.length

def verdicts : Trace → Nat × Nat
  | nodes rows => (rows.countP (·.success), rows.countP (!·.success))
  | events rows => (rows.countP (·.phase == .success), rows.countP (·.phase == .failure))

end Trace

structure Archive where
  input : String
  matchers : List Descriptor
  trace : Trace
  totals : Totals
  entries : List String
deriving DecidableEq

namespace Archive

def dropReturn (line : List Char) : List Char :=
  if line.getLast? = some '\r' then line.dropLast else line

-- The rows of a table. A row ends with a line feed, perhaps after a carriage return; only the last
-- one may do without.
def rowsFrom (row : List Char) : List Char → List (List Char)
  | [] => if row.isEmpty then [] else [row.reverse]
  | c :: cs =>
    if c = '\n' then dropReturn row.reverse :: rowsFrom [] cs else rowsFrom (c :: row) cs

def rows (text : String) : List String := (rowsFrom [] text.toList).map String.ofList

def dropLineFeeds (text : String) : String :=
  String.ofList (text.toList.reverse.dropWhile (· == '\n')).reverse

def decoded {α : Type} (entry : String) : Except RowError α → Except TraceError α
  | .ok x => .ok x
  | .error e => .error (.malformed entry e.message)

def readEntry (entries : List Zip.Entry) (name : String) : Except TraceError String :=
  match entries.find? (·.name == name) with
  | none => .error (.malformed name "entry missing")
  | some e =>
    match e.body with
    | .text text => .ok text
    | .unopenable cause => .error (.io ⟨.openEntry name, cause, []⟩)
    | .unreadable cause => .error (.io ⟨.readEntry name, cause, []⟩)

def readMatchers (entries : List Zip.Entry) : Except TraceError (List Descriptor) := do
  let text ← readEntry entries matchersEntry
  (rows text).mapM fun row => decoded matchersEntry (Descriptor.ofRow row)

def readEvents (entries : List Zip.Entry) : Except TraceError Trace := do
  let text ← readEntry entries Layout.events.entryName
  match (JsonValue.ofString? text).bind EventEntry.listOfJson? with
  | some rows => return .events rows
  | none => throw (.malformed Layout.events.entryName "no list of events")

def readNodes (entries : List Zip.Entry) : Except TraceError Trace := do
  let text ← readEntry entries Layout.nodes.entryName
  let rows ← (rows text).mapM fun row =>
    decoded Layout.nodes.entryName (FinishedCall.ofRow row)
  return .nodes rows

def readTrace (entries : List Zip.Entry) : Except TraceError Trace :=
  if entries.any (·.name == Layout.events.entryName) then readEvents entries
  else readNodes entries

def readTotals (entries : List Zip.Entry) : Except TraceError Totals := do
  let text ← readEntry entries infoEntry
  decoded infoEntry (Totals.ofRow (dropLineFeeds text))

def ofEntries (entries : List Zip.Entry) : Except TraceError Archive := do
  let input ← readEntry entries inputEntry
  let matchers ← readMatchers entries
  let trace ← readTrace entries
  let totals ← readTotals entries
  return ⟨input, matchers, trace, totals, entries.map (·.name)⟩

-- The archive at a path. A directory opens as a file does, but nothing can be read from it.
def ofPath (s : Store) (path : String) : Except TraceError Archive :=
  match s.read path with
  | .error cause => .error (.io ⟨.openArchive, cause, []⟩)
  | .ok .dir => .error (.io ⟨.readDirectory, .isDirectory, []⟩)
  | .ok (.file content) =>
    match content.entries? with
    | .ok entries => ofEntries entries
    | .error cause => .error (.io ⟨.readDirectory, cause, []⟩)

end Archive

end MatchTrace
