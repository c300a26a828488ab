import MatchTrace.Proofs.Json.Record
import MatchTrace.Proofs.Staging.Limit
import MatchTrace.Proofs.Table.Record

/-!
Texts of JSON read back as what they were written from: one record, or the records of a whole table of events.
-/

namespace MatchTrace

set_option autoImplicit false

namespace JsonValue

def Names (text name : String) : Prop :=
  ∃ members, ofString? text = some (.object members) ∧ ∃ m ∈ members, unescape m.1 = some name.toList

theorem names_of_fields (fields : List (String × JsonValue)) (printed : (ofFields fields).Printed) (name : String) :
    Names (ofFields fields).compact name ↔ name ∈ fields.map (·.1) := by
  have read := of_string_compact _ printed
  constructor
  · rintro ⟨members, same, m, mem, named⟩
    rw [read, ofFields, Option.some.injEq, JsonValue.object.injEq] at same
    rw [← same] at mem
    obtain ⟨f, inside, rfl⟩ := List.mem_map.mp mem
    rw [unescape_escape, Option.some.injEq, String.toList_inj] at named
    exact List.mem_map.mpr ⟨f, inside, named⟩
  · intro mem
    obtain ⟨f, inside, rfl⟩ := List.mem_map.mp mem
    exact ⟨_, read, _, List.mem_map.mpr ⟨f, inside, rfl⟩, unescape_escape f.1.toList⟩

end JsonValue

theorem descriptor_printed (d : Descriptor) : d.toJson.Printed := by
  apply JsonValue.printed_fields
  intro f mem
  simp only [List.mem_cons, List.not_mem_nil, or_false] at mem
  rcases mem with rfl | rfl | rfl | rfl
  · exact JsonValue.printed_nat _
  · exact JsonValue.printed_text _
  · exact JsonValue.printed_text _
  · exact JsonValue.printed_text _

theorem descriptor_of_json (d : Descriptor) (fits : d.Fits) : Descriptor.ofJson? d.toJson = some d := by
  have id : d.id ≤ Decimal.maxHalf := fits
  rw [Descriptor.ofJson?, Descriptor.toJson, JsonValue.fields_of_fields _ _ (by simp)]
  simp [List.lookup_cons, JsonValue.half_of_nat, JsonValue.text_of_text, JsonValue.tag_of_text, category_of_text, id]

theorem totals_printed (s : Totals) : s.toJson.Printed := by
  apply JsonValue.printed_fields
  intro f mem
  simp only [List.mem_cons, List.not_mem_nil, or_false] at mem
  rcases mem with rfl | rfl | rfl | rfl | rfl | rfl | rfl <;> exact JsonValue.printed_nat _

theorem totals_of_json (s : Totals) (fits : s.Fits) : Totals.ofJson? s.toJson = some s := by
  rw [Totals.ofJson?, Totals.toJson, JsonValue.fields_of_fields _ _ (by simp)]
  simp [List.lookup_cons, JsonValue.word_of_nat, fits.start, fits.events, fits.matchers, fits.lines, fits.chars,
    fits.codePoints, fits.nodes]

theorem entry_names (r : EventEntry) : JsonValue.Names r.toJson.compact "elapsedNanos" ↔ r.elapsedNanos ≠ none := by
  rw [EventEntry.toJson, JsonValue.names_of_fields _ (entry_printed r)]
  cases r.elapsedNanos with
  | none => simp
  | some elapsed => simp

theorem events_table_written (events : List Event) :
    ∃ table, Table.ofMessages .none .events none (events.map .event ++ [.finish]) = .ok table := by
  have limited := table_limit .events none events []
  cases written : Table.ofMessages .none .events none (events.map .event ++ [.finish]) with
  | ok table => exact ⟨table, rfl⟩
  | error stop =>
      rw [written] at limited
      obtain ⟨_, _, _, _, none, _⟩ := limited
      cases none

theorem events_table_back (writing : Faults) (limit : Option Nat) (events : List Event) (rest : List Message)
    (fits : ∀ e ∈ events, e.entry.Fits) (table : Table)
    (written : Table.ofMessages writing .events limit (events.map .event ++ .finish :: rest) = .ok table) :
    (JsonValue.ofString? table.text).bind EventEntry.listOfJson? = some (events.map Event.entry) := by
  obtain ⟨-, -, -, text⟩ := table_text writing .events limit events rest table written
  apply entries_of_lines
  · intro r mem
    obtain ⟨e, inside, rfl⟩ := List.mem_map.mp mem
    exact fits e inside
  · rw [text, List.flatten_append, List.flatten_append, events_body, List.map_map]
    rfl

/-- The JSON texts of a record of an event, a matcher and the totals of a run read back as what they were written from, and
that of an event names an elapsed time exactly if there is one. A table of events is always written if there is room for it,
and however it was written, it reads back as the records of the events in order. -/
theorem json_texts_read_back (r : EventEntry) (d : Descriptor) (s : Totals) (events : List Event) (entry : r.Fits)
    (descriptor : d.Fits) (totals : s.Fits) (told : ∀ e ∈ events, e.entry.Fits) :
    ((JsonValue.ofString? r.toJson.compact).bind EventEntry.ofJson? = some r ∧
      (JsonValue.Names r.toJson.compact "elapsedNanos" ↔ r.elapsedNanos ≠ none)) ∧
    (JsonValue.ofString? d.toJson.compact).bind Descriptor.ofJson? = some d ∧
    (JsonValue.ofString? s.toJson.compact).bind Totals.ofJson? = some s ∧
    (∃ table, Table.ofMessages .none .events none (events.map .event ++ [.finish]) = .ok table) ∧
    ∀ writing limit rest table,
      Table.ofMessages writing .events limit (events.map .event ++ .finish :: rest) = .ok table →
        (JsonValue.ofString? table.text).bind EventEntry.listOfJson? = some (events.map Event.entry) := by
  refine ⟨⟨?_, entry_names r⟩, ?_, ?_, events_table_written events, fun writing limit rest table written => ?_⟩
  · rw [JsonValue.of_string_compact _ (entry_printed r), Option.bind_some, entry_of_json r entry]
  · rw [JsonValue.of_string_compact _ (descriptor_printed d), Option.bind_some, descriptor_of_json d descriptor]
  · rw [JsonValue.of_string_compact _ (totals_printed s), Option.bind_some, totals_of_json s totals]
  · exact events_table_back writing limit events rest told table written

namespace Demo

-- Quotes, backslashes, control characters and a class that is called like a member.
def quaintMatcher : Descriptor := ⟨2 ^ 32 - 1, "\"elapsedNanos\":\\\x00", .predicate, "\x1f\u2028\x7f😀"⟩

def quaintEnter : Event := ⟨.enter, 2 ^ 64 - 1, -2 ^ 63, 0, quaintMatcher, 0, 0, 2 ^ 64 - 1, none⟩

def quaintExit : Event := ⟨.failure, 2 ^ 64 - 1, 2 ^ 63 - 1, 0, quaintMatcher, 0, 2 ^ 64 - 1, 2 ^ 64 - 1, some 0⟩

def quaintTotals : Totals := ⟨2 ^ 64 - 1, 2, 1, 1, 0, 0, 1⟩

end Demo

theorem quaint_texts_read_back :
    let events := [Demo.quaintEnter, Demo.quaintExit]
    Demo.quaintEnter.entry.Fits ∧ Demo.quaintMatcher.Fits ∧ Demo.quaintTotals.Fits ∧ (∀ e ∈ events, e.entry.Fits) ∧
    ¬ JsonValue.Names Demo.quaintEnter.entry.toJson.compact "elapsedNanos" ∧
    (JsonValue.ofString? Demo.quaintMatcher.toJson.compact).bind Descriptor.ofJson? = some Demo.quaintMatcher ∧
    ∃ table, Table.ofMessages .none .events none (events.map .event ++ [.finish]) = .ok table ∧
      (JsonValue.ofString? table.text).bind EventEntry.listOfJson? = some (events.map Event.entry) := by
  intro events
  have enter : Demo.quaintEnter.entry.Fits :=
    ⟨by decide, by decide, by decide, by decide, by decide, by decide, by decide, fun _ none => nomatch none⟩
  have exit : Demo.quaintExit.entry.Fits := by
    refine ⟨by decide, by decide, by decide, by decide, by decide, by decide, by decide, ?_⟩
    rintro _ ⟨⟩
    decide
  have matcher : Demo.quaintMatcher.Fits := (by decide : (2 ^ 32 - 1 : Nat) ≤ Decimal.maxHalf)
  have totals : Demo.quaintTotals.Fits := ⟨by decide, by decide, by decide, by decide, by decide, by decide, by decide⟩
  have told : ∀ e ∈ events, e.entry.Fits :=
    List.forall_mem_cons.mpr ⟨enter, List.forall_mem_cons.mpr ⟨exit, fun _ none => nomatch none⟩⟩
  obtain ⟨⟨-, named⟩, back, -, ⟨table, written⟩, read⟩ :=
    json_texts_read_back Demo.quaintEnter.entry Demo.quaintMatcher Demo.quaintTotals events enter matcher totals told
  exact ⟨enter, matcher, totals, told, fun present => named.mp present rfl, back, table, written,
    read .none none [] table written⟩

end MatchTrace
