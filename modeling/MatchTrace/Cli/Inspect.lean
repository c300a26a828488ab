import MatchTrace.Archive.Read

/-!
What there is to say about an archive, as text and as JSON.
-/

namespace MatchTrace.Cli

set_option autoImplicit false

def padTo (width : Nat) (s : String) : String :=
  s ++ String.ofList (List.replicate (width - s.length) ' ')

def categoryCount (a : Archive) (k : Category) : Nat :=
  a.matchers.countP (·.category == k)

def matcherLine (d : Descriptor) : String :=
  s!"  #{padTo 4 (toString d.id)} {padTo 10 d.category.name} {padTo 24 d.className} {d.label}\n"

def describe (path : String) (withMatchers : Bool) (a : Archive) : String :=
  let s := a.totals
  let (successes, failures) := a.trace.verdicts
  let entries := ", ".intercalate a.entries
  let head := s!"archive:   {path}\n" ++
    s!"entries:   {entries}\n" ++
    s!"format:    {a.trace.layout.entryName}\n" ++
    s!"input:     {s.lineCount} lines, {s.codePointCount} code points, " ++
    s!"{s.charCount} UTF-16 units\n" ++
    s!"trace:     {s.eventCount} events, {s.nodeCount} nodes " ++
    s!"({successes} matched, {failures} failed)\n" ++
    s!"matchers:  {s.matcherCount}\n"
  let categories := Category.all.map fun k => s!"  {padTo 10 k.name} {categoryCount a k}\n"
  head ++ String.join categories ++
    (if withMatchers then String.join (a.matchers.map matcherLine) else "")

def sortedFields (fields : List (String × JsonValue)) : JsonValue :=
  .ofFields (fields.mergeSort fun x y => decide (x.1 ≤ y.1))

def sortMembers : JsonValue → JsonValue
  | .object members =>
    .object (members.mergeSort fun x y => decide (String.ofList x.1 ≤ String.ofList y.1))
  | v => v

def categoriesJson (a : Archive) : JsonValue :=
  sortedFields ((Category.all.filter fun k => categoryCount a k ≠ 0).map fun k =>
    (k.name, .ofNat (categoryCount a k)))

def toJson (withMatchers : Bool) (a : Archive) : JsonValue :=
  let (successes, failures) := a.trace.verdicts
  sortedFields ([("entries", .array (a.entries.map .ofText)),
    ("format", .ofText a.trace.layout.name), ("summary", sortMembers a.totals.toJson),
    ("categories", categoriesJson a), ("successes", .ofNat successes),
    ("failures", .ofNat failures)] ++
    (if withMatchers then
      [("matchers", .array (a.matchers.map fun d => sortMembers d.toJson))]
    else []))

end MatchTrace.Cli
