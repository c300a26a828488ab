import MatchTrace.Proofs.Archive.Rows
import MatchTrace.Proofs.Json.Record
import MatchTrace.Proofs.Table.Record

/-!
The entries of an archive, read back from the texts that were written to them.
-/

namespace MatchTrace

set_option autoImplicit false

variable {α : Type}

namespace Archive

theorem rows_held (read : String → Except RowError α) (write : α → String) (entry : String) (xs : List α)
    (held : ∀ x ∈ xs, Row.Holds read (write x) x) (text : String)
    (written : text.toList = (xs.map fun x => (write x).toList).flatten) :
    (rows text).mapM (fun row => decoded entry (read row)) = .ok xs := by
  rw [table_ok_iff, Tabled, written]
  clear written
  induction xs with
  | nil => exact ⟨[], .nil, rfl⟩
  | cons x xs ih =>
      obtain ⟨line, same, flat, back⟩ := held x List.mem_cons_self
      obtain ⟨lines, lined, reads⟩ := ih fun y mem => held y (List.mem_cons_of_mem x mem)
      have fed : '\n' ∉ line := fun mem => (flat '\n' mem).1 rfl
      have solid : line.getLast? ≠ some '\r' := fun last => (flat '\r' (List.mem_of_getLast? last)).2 rfl
      refine ⟨line :: lines, ?_, ?_⟩
      · rw [List.map_cons, List.flatten_cons, same, String.toList_ofList, List.append_assoc, List.singleton_append]
        exact .feed line _ lines fed solid lined
      · rw [List.map_cons, List.map_cons, back, reads]

theorem drop_line_feeds (line : List Char) (flat : ∀ c ∈ line, c ≠ '\n' ∧ c ≠ '\r') :
    dropLineFeeds (String.ofList (line ++ ['\n'])) = String.ofList line := by
  refine (trimmed_iff _ _).mp ⟨⟨1, ?_⟩, fun last => ?_⟩
  · rw [String.toList_ofList, String.toList_ofList, List.replicate_one]
  · rw [String.toList_ofList] at last
    exact (flat '\n' (List.mem_of_getLast? last)).1 rfl

end Archive

namespace Trace

def Fits : Trace → Prop
  | .nodes rows => ∀ r ∈ rows, r.Fits
  | .events rows => ∀ r ∈ rows, r.Fits

def text : Trace → List Char
  | .nodes rows => (rows.map fun r => r.toRow.toList).flatten
  | .events rows => '[' :: (JsonValue.lineItems (rows.map EventEntry.toJson) ++ ['\n', ']', '\n'])

end Trace

namespace Archive

variable (entries : List Zip.Entry)

theorem read_matchers_back (matchers : List Descriptor) (fits : ∀ d ∈ matchers, d.Fits)
    (found : readEntry entries matchersEntry = .ok (ArchiveDraft.matchersText matchers)) :
    readMatchers entries = .ok matchers := by
  have back := rows_held Descriptor.ofRow Descriptor.toRow matchersEntry matchers
    (fun d mem => descriptor_holds d (fits d mem)) (ArchiveDraft.matchersText matchers)
    (by simp [ArchiveDraft.matchersText, String.toList_join, List.flatMap_def, Function.comp_def])
  rw [readMatchers, found]
  exact back

theorem read_totals_back (totals : Totals) (fits : totals.Fits)
    (found : readEntry entries infoEntry = .ok totals.toRow) : readTotals entries = .ok totals := by
  obtain ⟨line, written, flat, back⟩ := totals_hold totals fits
  rw [readTotals, found, written]
  simp only [bind, Except.bind, drop_line_feeds line flat, back]
  rfl

theorem read_events_back (rows : List EventEntry) (fits : ∀ r ∈ rows, r.Fits) (text : String)
    (written : text.toList = (Trace.events rows).text)
    (found : readEntry entries Layout.events.entryName = .ok text) : readEvents entries = .ok (.events rows) := by
  rw [readEvents, found]
  simp only [bind, Except.bind, entries_of_lines rows fits text written]
  rfl

theorem read_nodes_back (rows : List FinishedCall) (fits : ∀ r ∈ rows, r.Fits) (text : String)
    (written : text.toList = (Trace.nodes rows).text)
    (found : readEntry entries Layout.nodes.entryName = .ok text) : readNodes entries = .ok (.nodes rows) := by
  have back := rows_held FinishedCall.ofRow FinishedCall.toRow Layout.nodes.entryName rows
    (fun r mem => finished_call_holds r (fits r mem)) text written
  simp [readNodes, found, bind, Except.bind, back]
  rfl

theorem read_trace_back (trace : Trace) (fits : trace.Fits) (text : String) (written : text.toList = trace.text)
    (found : readEntry entries trace.layout.entryName = .ok text)
    (only : entries.any (·.name == Layout.events.entryName) = (trace.layout = .events)) :
    readTrace entries = .ok trace := by
  cases trace with
  | nodes rows =>
      rw [readTrace, if_neg (by rw [only]; exact fun same => nomatch same)]
      exact read_nodes_back entries rows fits text written found
  | events rows =>
      rw [readTrace, if_pos (only ▸ rfl)]
      exact read_events_back entries rows fits text written found

end Archive

theorem container_reads_back (d : ArchiveDraft) (trace : Trace) (layout : d.staged.table.layout = trace.layout)
    (text : d.staged.table.text.toList = trace.text) (traceFits : trace.Fits) (matcherFits : ∀ m ∈ d.matchers, m.Fits)
    (totalFits : d.totals.Fits) :
    Archive.ofEntries (d.container.entries.map fun (name, text) => ⟨name, .text text⟩) =
      .ok ⟨d.input, d.matchers, trace, d.totals, [inputEntry, matchersEntry, trace.layout.entryName, infoEntry]⟩ := by
  have entries : (d.container.entries.map fun (name, text) => (⟨name, .text text⟩ : Zip.Entry)) =
      [⟨inputEntry, .text d.input⟩, ⟨matchersEntry, .text (ArchiveDraft.matchersText d.matchers)⟩,
        ⟨trace.layout.entryName, .text d.staged.table.text⟩, ⟨infoEntry, .text d.totals.toRow⟩] := by
    rw [← layout]
    rfl
  rw [entries, Archive.ofEntries, Archive.read_matchers_back _ d.matchers matcherFits (by rfl),
    Archive.read_trace_back _ trace traceFits d.staged.table.text text (by cases trace <;> rfl)
      (by cases trace <;> simp [Trace.layout, Layout.entryName, inputEntry, matchersEntry, infoEntry]),
    Archive.read_totals_back _ d.totals totalFits (by cases trace <;> rfl)]
  rfl

end MatchTrace
