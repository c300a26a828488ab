import MatchTrace.Json.Printer
import MatchTrace.Json.Reader
import MatchTrace.Table.Totals

/-!
What a trace says, as JSON. A record is an object; it is also read from an array with the same
fields in order. Fields nobody knows are skipped, but no known field may come twice.
-/

namespace MatchTrace

set_option autoImplicit false

namespace JsonValue

def ofFields (fields : List (String × JsonValue)) : JsonValue :=
  .object (fields.map fun (name, v) => (escape name.toList, v))

def valuesOf (name : String) (members : List (String × JsonValue)) : List JsonValue :=
  (members.filter (·.1 == name)).map (·.2)

def atMostOne : List JsonValue → Option (Option JsonValue)
  | [] => some none
  | [v] => some (some v)
  | _ => none

def namedMembers (members : List (List Char × JsonValue)) : Option (List (String × JsonValue)) :=
  members.mapM fun (key, v) => (unescape key).map fun name => (String.ofList name, v)

def fields? (names : List String) : JsonValue → Option (List (Option JsonValue))
  | .object members =>
    match namedMembers members with
    | some members => names.mapM fun name => atMostOne (valuesOf name members)
    | none => none
  | .array items =>
    if items.length ≤ names.length then
      some (items.map some ++ List.replicate (names.length - items.length) none)
    else none
  | _ => none

-- A name out of a fixed set, alone or as the only member of an object that holds nothing.
def tag? : JsonValue → Option String
  | .object [(key, .null)] => (unescape key).map String.ofList
  | v => v.text?

def word? (v : JsonValue) : Option Nat := v.nat? Decimal.maxWord

def half? (v : JsonValue) : Option Nat := v.nat? Decimal.maxHalf

def optionalWord? : Option JsonValue → Option (Option Nat)
  | none => some none
  | some .null => some none
  | some v => v.word?.map some

end JsonValue

namespace EventEntry

def fieldNames : List String :=
  ["type", "timestamp", "offset", "matcherId", "matcherClass", "category", "level", "nodeId",
   "parentId", "elapsedNanos"]

-- There is no member for an elapsed time that is not there.
def toJson (r : EventEntry) : JsonValue :=
  .ofFields ([("type", .ofText r.phase.name), ("timestamp", .ofNat r.timestamp),
    ("offset", .ofNat r.offset), ("matcherId", .ofNat r.matcherId),
    ("matcherClass", .ofText r.matcherClass), ("category", .ofText r.category.name),
    ("level", .ofNat r.level), ("nodeId", .ofNat r.nodeId), ("parentId", .ofInt r.parentId)] ++
    (match r.elapsedNanos with
      | some elapsed => [("elapsedNanos", .ofNat elapsed)]
      | none => []))

def ofJson? (v : JsonValue) : Option EventEntry :=
  match v.fields? fieldNames with
  | some [some phase, some timestamp, some offset, some matcherId, some matcherClass,
      some category, some level, some nodeId, some parentId, elapsedNanos] => do
    return ⟨← Phase.ofName? (← phase.tag?), ← timestamp.word?, ← offset.word?,
      ← matcherId.half?, ← matcherClass.text?, ← Category.ofName? (← category.tag?),
      ← level.word?, ← nodeId.word?, ← parentId.int?, ← JsonValue.optionalWord? elapsedNanos⟩
  | _ => none

def listOfJson? (v : JsonValue) : Option (List EventEntry) := do (← v.items?).mapM ofJson?

end EventEntry

namespace Descriptor

def toJson (d : Descriptor) : JsonValue :=
  .ofFields [("id", .ofNat d.id), ("className", .ofText d.className),
    ("category", .ofText d.category.name), ("label", .ofText d.label)]

def ofJson? (v : JsonValue) : Option Descriptor :=
  match v.fields? ["id", "className", "category", "label"] with
  | some [some id, some className, some category, some label] => do
    return ⟨← id.half?, ← className.text?, ← Category.ofName? (← category.tag?), ← label.text?⟩
  | _ => none

end Descriptor

namespace Totals

def toJson (s : Totals) : JsonValue :=
  .ofFields [("startTimeMillis", .ofNat s.startTimeMillis), ("eventCount", .ofNat s.eventCount),
    ("matcherCount", .ofNat s.matcherCount), ("lineCount", .ofNat s.lineCount),
    ("charCount", .ofNat s.charCount), ("codePointCount", .ofNat s.codePointCount),
    ("nodeCount", .ofNat s.nodeCount)]

def ofJson? (v : JsonValue) : Option Totals :=
  match v.fields? ["startTimeMillis", "eventCount", "matcherCount", "lineCount", "charCount",
      "codePointCount", "nodeCount"] with
  | some [some startTimeMillis, some eventCount, some matcherCount, some lineCount,
      some charCount, some codePointCount, some nodeCount] => do
    return ⟨← startTimeMillis.word?, ← eventCount.word?, ← matcherCount.word?,
      ← lineCount.word?, ← charCount.word?, ← codePointCount.word?, ← nodeCount.word?⟩
  | _ => none

end Totals

end MatchTrace
