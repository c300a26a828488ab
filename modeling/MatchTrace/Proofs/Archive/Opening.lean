import MatchTrace.Proofs.Archive.Entries

/-!
Which archives open, what they say, and which entry is to blame if one does not.
-/

namespace MatchTrace

set_option autoImplicit false

namespace EventEntry

def Listed (text : String) (records : List EventEntry) : Prop :=
  ∃ items, JsonValue.ofString? text = some (.array items) ∧ items.map ofJson? = records.map some

theorem listed_iff (text : String) (records : List EventEntry) :
    (JsonValue.ofString? text).bind listOfJson? = some records ↔ Listed text records := by
  simp only [Listed, ← map_m_some_iff, Option.bind_eq_some_iff, listOfJson?]
  constructor
  · rintro ⟨v, read, listed⟩
    obtain ⟨items, array, listed⟩ := Option.bind_eq_some_iff.mp listed
    cases v <;> cases array
    exact ⟨_, read, listed⟩
  · rintro ⟨items, read, listed⟩
    exact ⟨_, read, listed⟩

theorem unlisted_iff (text : String) :
    (JsonValue.ofString? text).bind listOfJson? = none ↔ ∀ records, ¬ Listed text records := by
  simp only [← listed_iff, Option.eq_none_iff_forall_ne_some, ne_eq]

end EventEntry

namespace Archive

inductive Unlisted (text : String) : String → Prop where
  | text : (∀ records, ¬ EventEntry.Listed text records) → Unlisted text "no list of events"

def Totalled (text : String) (totals : Totals) : Prop := ∃ line, Trimmed text line ∧ Totals.ofRow line = .ok totals

inductive Untotalled (text : String) : String → Prop where
  | line (line : String) (fault : RowError) : Trimmed text line → Totals.ofRow line = .error fault →
      Untotalled text fault.message

theorem totals_ok_iff (text : String) (totals : Totals) :
    decoded infoEntry (Totals.ofRow (dropLineFeeds text)) = .ok totals ↔ Totalled text totals := by
  simp only [decoded_ok_iff, Totalled, trimmed_iff, exists_eq_left']

theorem totals_error_iff (text : String) (e : TraceError) :
    decoded infoEntry (Totals.ofRow (dropLineFeeds text)) = .error e ↔
      ∃ reason, Untotalled text reason ∧ e = .malformed infoEntry reason := by
  rw [decoded_error_iff]
  constructor
  · rintro ⟨fault, failed, rfl⟩
    exact ⟨_, .line _ fault ((trimmed_iff _ _).mpr rfl) failed, rfl⟩
  · rintro ⟨_, ⟨line, fault, trimmed, failed⟩, rfl⟩
    rw [(trimmed_iff _ _).mp trimmed]
    exact ⟨fault, failed, rfl⟩

variable (entries : List Zip.Entry)

-- A list of events tells the trace if there is an entry for one, whatever stands beside it, and else a table of nodes does.
inductive TellsTrace : Trace → Prop where
  | events (records : List EventEntry) : Tells entries Layout.events.entryName EventEntry.Listed records →
      TellsTrace (.events records)
  | nodes (records : List FinishedCall) : (∀ e ∈ entries, e.name ≠ Layout.events.entryName) →
      Tells entries Layout.nodes.entryName (Tabled FinishedCall.ofRow) records → TellsTrace (.nodes records)

inductive BlamesTrace : TraceError → Prop where
  | events (e : TraceError) : (∃ f ∈ entries, f.name = Layout.events.entryName) →
      Blames entries Layout.events.entryName Unlisted e → BlamesTrace e
  | nodes (e : TraceError) : (∀ f ∈ entries, f.name ≠ Layout.events.entryName) →
      Blames entries Layout.nodes.entryName (Untabled FinishedCall.ofRow) e → BlamesTrace e

structure Says (a : Archive) : Prop where
  input : ⟨inputEntry, .text a.input⟩ ∈ entries
  matchers : Tells entries matchersEntry (Tabled Descriptor.ofRow) a.matchers
  trace : TellsTrace entries a.trace
  totals : Tells entries infoEntry Totalled a.totals
  names : a.entries = entries.map (·.name)

-- The entries are looked at in this order, and the first one that is no good is told of.
inductive Refuses : TraceError → Prop where
  | input (e : TraceError) : Lost entries inputEntry e → Refuses e
  | matchers (input : String) (e : TraceError) : ⟨inputEntry, .text input⟩ ∈ entries →
      Blames entries matchersEntry (Untabled Descriptor.ofRow) e → Refuses e
  | trace (input : String) (matchers : List Descriptor) (e : TraceError) : ⟨inputEntry, .text input⟩ ∈ entries →
      Tells entries matchersEntry (Tabled Descriptor.ofRow) matchers → BlamesTrace entries e → Refuses e
  | totals (input : String) (matchers : List Descriptor) (trace : Trace) (e : TraceError) :
      ⟨inputEntry, .text input⟩ ∈ entries → Tells entries matchersEntry (Tabled Descriptor.ofRow) matchers →
      TellsTrace entries trace → Blames entries infoEntry Untotalled e → Refuses e

variable (distinct : (entries.map (·.name)).Nodup)
include distinct

theorem read_matchers_ok_iff (matchers : List Descriptor) :
    readMatchers entries = .ok matchers ↔ Tells entries matchersEntry (Tabled Descriptor.ofRow) matchers :=
  entry_ok_iff entries matchersEntry distinct _ _ (table_ok_iff Descriptor.ofRow matchersEntry) matchers

theorem read_matchers_error_iff (e : TraceError) :
    readMatchers entries = .error e ↔ Blames entries matchersEntry (Untabled Descriptor.ofRow) e :=
  entry_error_iff entries matchersEntry distinct _ _ (table_error_iff Descriptor.ofRow matchersEntry) e

theorem read_totals_ok_iff (totals : Totals) : readTotals entries = .ok totals ↔ Tells entries infoEntry Totalled totals :=
  entry_ok_iff entries infoEntry distinct _ _ totals_ok_iff totals

theorem read_totals_error_iff (e : TraceError) : readTotals entries = .error e ↔ Blames entries infoEntry Untotalled e :=
  entry_error_iff entries infoEntry distinct _ _ totals_error_iff e

theorem read_nodes_ok_iff (trace : Trace) :
    readNodes entries = .ok trace ↔
      ∃ records, Tells entries Layout.nodes.entryName (Tabled FinishedCall.ofRow) records ∧ trace = .nodes records := by
  rw [readNodes, ← bind_assoc, bind_pure_ok_iff]
  simp only [entry_ok_iff entries Layout.nodes.entryName distinct _ _
    (table_ok_iff FinishedCall.ofRow Layout.nodes.entryName)]

theorem read_nodes_error_iff (e : TraceError) :
    readNodes entries = .error e ↔ Blames entries Layout.nodes.entryName (Untabled FinishedCall.ofRow) e := by
  rw [readNodes, ← bind_assoc, bind_pure_error_iff]
  exact entry_error_iff entries Layout.nodes.entryName distinct _ _
    (table_error_iff FinishedCall.ofRow Layout.nodes.entryName) e

theorem read_events_ok_iff (trace : Trace) :
    readEvents entries = .ok trace ↔
      ∃ records, Tells entries Layout.events.entryName EventEntry.Listed records ∧ trace = .events records := by
  refine (entry_ok_iff entries Layout.events.entryName distinct _
    (fun text trace => ∃ records, EventEntry.Listed text records ∧ trace = .events records)
    (fun text trace => ?_) trace).trans ?_
  · simp only [← EventEntry.listed_iff]
    cases (JsonValue.ofString? text).bind EventEntry.listOfJson? with
    | none => simp [throw, throwThe, MonadExceptOf.throw]
    | some records => simp [pure, Except.pure, eq_comm]
  · constructor
    · rintro ⟨text, mem, records, listed, same⟩
      exact ⟨records, ⟨text, mem, listed⟩, same⟩
    · rintro ⟨records, ⟨text, mem, listed⟩, same⟩
      exact ⟨text, mem, records, listed, same⟩

theorem read_events_error_iff (e : TraceError) :
    readEvents entries = .error e ↔ Blames entries Layout.events.entryName Unlisted e := by
  refine entry_error_iff entries Layout.events.entryName distinct _ _ (fun text e => ?_) e
  cases listed : (JsonValue.ofString? text).bind EventEntry.listOfJson? with
  | none =>
      constructor
      · rintro ⟨⟩
        exact ⟨_, .text ((EventEntry.unlisted_iff text).mp listed), rfl⟩
      · rintro ⟨_, ⟨_⟩, rfl⟩
        rfl
  | some records =>
      refine iff_of_false (fun none => nomatch none) ?_
      rintro ⟨_, ⟨unlisted⟩, _⟩
      exact unlisted records ((EventEntry.listed_iff text records).mp listed)

theorem read_trace_ok_iff (trace : Trace) : readTrace entries = .ok trace ↔ TellsTrace entries trace := by
  rw [readTrace]
  by_cases present : ∃ f ∈ entries, f.name = Layout.events.entryName
  · rw [if_pos (by simpa using present), read_events_ok_iff entries distinct]
    constructor
    · rintro ⟨records, told, rfl⟩
      exact .events records told
    · intro told
      cases told with
      | events records told => exact ⟨records, told, rfl⟩
      | nodes records absent told =>
          obtain ⟨f, mem, named⟩ := present
          exact absurd named (absent f mem)
  · have absent : ∀ f ∈ entries, f.name ≠ Layout.events.entryName := fun f mem named => present ⟨f, mem, named⟩
    rw [if_neg (by simpa using absent), read_nodes_ok_iff entries distinct]
    constructor
    · rintro ⟨records, told, rfl⟩
      exact .nodes records absent told
    · intro told
      cases told with
      | events records told =>
          obtain ⟨text, mem, _⟩ := told
          exact absurd rfl (absent _ mem)
      | nodes records _ told => exact ⟨records, told, rfl⟩

theorem read_trace_error_iff (e : TraceError) : readTrace entries = .error e ↔ BlamesTrace entries e := by
  rw [readTrace]
  by_cases present : ∃ f ∈ entries, f.name = Layout.events.entryName
  · rw [if_pos (by simpa using present), read_events_error_iff entries distinct]
    refine ⟨fun blamed => .events e present blamed, fun blamed => ?_⟩
    cases blamed with
    | events _ blamed => exact blamed
    | nodes absent _ =>
        obtain ⟨f, mem, named⟩ := present
        exact absurd named (absent f mem)
  · have absent : ∀ f ∈ entries, f.name ≠ Layout.events.entryName := fun f mem named => present ⟨f, mem, named⟩
    rw [if_neg (by simpa using absent), read_nodes_error_iff entries distinct]
    refine ⟨fun blamed => .nodes e absent blamed, fun blamed => ?_⟩
    cases blamed with
    | events there _ => exact absurd there present
    | nodes _ blamed => exact blamed

theorem broken_list_refused (text : String) (mem : ⟨Layout.events.entryName, .text text⟩ ∈ entries)
    (unlisted : ∀ records, ¬ EventEntry.Listed text records) (trace : Trace) : ¬ TellsTrace entries trace := by
  intro told
  cases told with
  | events records told =>
      obtain ⟨other, held, listed⟩ := told
      have same := (read_entry_ok_iff entries _ distinct other).mpr held
      rw [(read_entry_ok_iff entries _ distinct text).mpr mem] at same
      cases same
      exact unlisted records listed
  | nodes records absent _ => exact absent _ mem rfl

theorem of_entries_ok_iff (a : Archive) : ofEntries entries = .ok a ↔ Says entries a := by
  rw [ofEntries]
  simp only [bind_ok_iff, read_entry_ok_iff entries _ distinct, read_matchers_ok_iff entries distinct,
    read_trace_ok_iff entries distinct, read_totals_ok_iff entries distinct]
  constructor
  · rintro ⟨input, held, matchers, tabled, trace, told, totals, totalled, same⟩
    cases same
    exact ⟨held, tabled, told, totalled, rfl⟩
  · rintro ⟨held, tabled, told, totalled, names⟩
    refine ⟨_, held, _, tabled, _, told, _, totalled, ?_⟩
    rw [← names]
    rfl

theorem of_entries_error_iff (e : TraceError) : ofEntries entries = .error e ↔ Refuses entries e := by
  rw [ofEntries]
  simp only [bind_error_iff, read_entry_ok_iff entries _ distinct, read_entry_error_iff entries _ distinct,
    read_matchers_ok_iff entries distinct, read_matchers_error_iff entries distinct, read_trace_ok_iff entries distinct,
    read_trace_error_iff entries distinct, read_totals_error_iff entries distinct, pure, Except.pure, reduceCtorEq, and_false,
    exists_false, or_false]
  constructor
  · rintro (lost | ⟨input, held, blamed | ⟨matchers, tabled, blamed | ⟨trace, told, blamed⟩⟩⟩)
    · exact .input e lost
    · exact .matchers input e held blamed
    · exact .trace input matchers e held tabled blamed
    · exact .totals input matchers trace e held tabled told blamed
  · intro refused
    cases refused with
    | input _ lost => exact .inl lost
    | matchers input _ held blamed => exact .inr ⟨input, held, .inl blamed⟩
    | trace input matchers _ held tabled blamed => exact .inr ⟨input, held, .inr ⟨matchers, tabled, .inl blamed⟩⟩
    | totals input matchers trace _ held tabled told blamed =>
        exact .inr ⟨input, held, .inr ⟨matchers, tabled, .inr ⟨trace, told, blamed⟩⟩⟩

end Archive

/-- An archive opens exactly if its entries say what is in it, in whatever order they stand and whatever stands beside them,
and it opens as just that. If it does not open, the error is about the first entry that is no good, of the text, the matchers,
the trace and the totals in this order. No table of nodes makes up for a list of events that is broken. -/
theorem archives_open_exactly (s : Store) (path : String) (content : Content) (entries : List Zip.Entry)
    (stored : s.read path = .ok (.file content)) (listed : content.entries? = .ok entries)
    (kept : ∀ c, content = .archive c → (c.entries.map (·.1)).Nodup) :
    (∀ a, Archive.ofPath s path = .ok a ↔ Archive.Says entries a) ∧
    (∀ e, Archive.ofPath s path = .error e ↔ Archive.Refuses entries e) ∧
    ∀ text, ⟨Layout.events.entryName, .text text⟩ ∈ entries → (∀ records, ¬ EventEntry.Listed text records) →
      ∀ a, Archive.ofPath s path ≠ .ok a := by
  have distinct := entries_distinct content entries listed kept
  have opened : Archive.ofPath s path = Archive.ofEntries entries := by
    rw [Archive.ofPath, stored]
    simp only [listed]
  rw [opened]
  refine ⟨Archive.of_entries_ok_iff entries distinct, Archive.of_entries_error_iff entries distinct, ?_⟩
  intro text mem unlisted a done
  exact Archive.broken_list_refused entries distinct text mem unlisted a.trace
    ((Archive.of_entries_ok_iff entries distinct a).mp done).trace

namespace Demo

-- The rows end in each of the three ways, and one entry is there that nobody asks for.
def shuffledContainer : Container where
  compression := .stored
  entries := [("info.csv", "7;4;1;1;1;1;2\n\n"), ("nodes.csv", "-1;0;0;1;0;0;1;4\r\n0;1;1;0;0;0;1;2"), ("notes.txt", "?"),
    ("matchers.csv", "0;A;TERMINAL;a\n"), ("input.txt", "a")]

def brokenContainer : Container where
  compression := .stored
  entries := [("events.json", "[[]]"), ("nodes.csv", ""), ("info.csv", "\r\n"), ("matchers.csv", ""), ("input.txt", "")]

def entriesOf (c : Container) : List Zip.Entry := c.entries.map fun (name, text) => ⟨name, .text text⟩

def shelfStore : Store where
  nodes := [(["shuffled.zip"], .file (.archive shuffledContainer)), (["broken.zip"], .file (.archive brokenContainer))]

def shuffledArchive : Archive where
  input := "a"
  matchers := [⟨0, "A", .terminal, "a"⟩]
  trace := .nodes [⟨-1, 0, 0, true, 0, 0, 1, 4⟩, ⟨0, 1, 1, false, 0, 0, 1, 2⟩]
  totals := ⟨7, 4, 1, 1, 1, 1, 2⟩
  entries := ["info.csv", "nodes.csv", "notes.txt", "matchers.csv", "input.txt"]

end Demo

theorem shuffled_archive_opens :
    let broken : TraceError := .malformed "events.json" "no list of events"
    (Archive.ofPath Demo.shelfStore "/shuffled.zip" = .ok Demo.shuffledArchive ∧
      Archive.Says (Demo.entriesOf Demo.shuffledContainer) Demo.shuffledArchive) ∧
    Archive.ofPath Demo.shelfStore "/broken.zip" = .error broken ∧
      Archive.Refuses (Demo.entriesOf Demo.brokenContainer) broken := by
  intro broken
  have opened : Archive.ofPath Demo.shelfStore "/shuffled.zip" = .ok Demo.shuffledArchive := by
    have done : (Archive.ofPath Demo.shelfStore "/shuffled.zip").toOption = some Demo.shuffledArchive := by
      decide +kernel
    cases outcome : Archive.ofPath Demo.shelfStore "/shuffled.zip" with
    | ok a =>
        rw [outcome] at done
        exact congrArg Except.ok (Option.some.inj done)
    | error e =>
        rw [outcome] at done
        cases done
  obtain ⟨said, -, -⟩ := archives_open_exactly Demo.shelfStore "/shuffled.zip" (.archive Demo.shuffledContainer)
    (Demo.entriesOf Demo.shuffledContainer) rfl rfl (by rintro c ⟨⟩; decide)
  obtain ⟨-, refused, -⟩ := archives_open_exactly Demo.shelfStore "/broken.zip" (.archive Demo.brokenContainer)
    (Demo.entriesOf Demo.brokenContainer) rfl rfl (by rintro c ⟨⟩; decide)
  have failed : Archive.ofPath Demo.shelfStore "/broken.zip" = .error broken := by
    have told : (match Archive.ofPath Demo.shelfStore "/broken.zip" with
        | .ok _ => none
        | .error e => some e) = some broken := by
      decide +kernel
    cases outcome : Archive.ofPath Demo.shelfStore "/broken.zip" with
    | ok a =>
        rw [outcome] at told
        cases told
    | error e =>
        rw [outcome] at told
        exact congrArg Except.error (Option.some.inj told)
  exact ⟨⟨opened, (said _).mp opened⟩, failed, (refused broken).mp failed⟩

end MatchTrace
