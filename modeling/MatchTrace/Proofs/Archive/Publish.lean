import MatchTrace.Proofs.Archive.Read
import MatchTrace.Proofs.Staging.Table
import MatchTrace.Proofs.Store.Basic
import MatchTrace.Proofs.Zip.ReadBack

/-!
What is published is what is read back. The writer that stages a table, the assembly of the archive and
the reader are taken together: nothing is lost, merged or reordered between them. A published archive is
kept unpacked. What this takes for granted of its bytes is proved of them if they are fewer than 4 GiB.
-/

namespace MatchTrace

set_option autoImplicit false

namespace ArchiveDraft

theorem check_ok (faults : Faults) (d : ArchiveDraft) (c : Container) (assembled : d.assemble faults = .ok c) :
    c = d.container := by
  obtain ⟨_, _, ran⟩ := bind_ok _ _ _ assembled
  obtain ⟨_, _, ran⟩ := bind_ok _ _ _ ran
  obtain ⟨_, _, ran⟩ := bind_ok _ _ _ ran
  obtain ⟨_, _, ran⟩ := bind_ok _ _ _ ran
  obtain ⟨_, _, ran⟩ := bind_ok _ _ _ ran
  obtain ⟨_, _, ran⟩ := bind_ok _ _ _ ran
  cases ran
  rfl

theorem create_temp_ok (faults : Faults) (d : ArchiveDraft) (s t : Store) (temp : Location)
    (created : d.createTemp faults s = .ok (temp, t)) :
    s.createTemp d.archiveDir archiveSuffix (Path.fileName? d.target) = .ok (temp, t) := by
  rw [createTemp] at created
  split at created
  · cases created
  · exact created

theorem move_into_place_ok (faults : Faults) (d : ArchiveDraft) (s t : Store) (temp : Location)
    (moved : d.moveIntoPlace faults temp s = .ok t) : s.moveFresh temp d.target = .ok t := by
  rw [moveIntoPlace] at moved
  split at moved
  · cases moved
  · exact moved

theorem container_fits (d : ArchiveDraft) (small : (Content.archive d.container).toBytes.size < 0xFFFFFFFF) :
    Zip.Fits d.compression (d.container.entries.map fun (name, text) => (name, text.toUTF8)) := by
  have names : (d.container.entries.map fun (name, text) => (name, text.toUTF8)).map (·.1) =
      [inputEntry, matchersEntry, d.staged.table.layout.entryName, infoEntry] := rfl
  have short : ∀ name ∈ [inputEntry, matchersEntry, d.staged.table.layout.entryName, infoEntry],
      name.toUTF8.size < 0x10000 := by
    cases d.staged.table.layout <;> decide
  refine ⟨?_, fun e mem => ?_, ?_, small⟩
  · rw [names]
    cases d.staged.table.layout <;> decide
  · exact short e.1 (names ▸ List.mem_map_of_mem mem)
  · show 4 < 0xFFFF
    decide

end ArchiveDraft

theorem publish_cases (d : ArchiveDraft) (faults : Faults) (meanwhile : Store → Store) (s t : Store) (path : String)
    (published : d.publish faults meanwhile s = (.ok path, t)) :
    path = d.target ∧ ∃ temp created, d.createTemp faults s = .ok (temp, created) ∧
      d.moveIntoPlace faults temp
        (((meanwhile created).refill temp (.archive d.container)).remove d.staged.location).2 = .ok t := by
  rw [ArchiveDraft.publish] at published
  cases made : d.createTemp faults s with
  | error cause =>
      rw [made] at published
      cases published
  | ok made' =>
      obtain ⟨temp, created⟩ := made'
      cases assembled : d.assemble faults with
      | error failure =>
          rw [made] at published
          simp only [assembled] at published
          cases published
      | ok container =>
          obtain rfl := ArchiveDraft.check_ok faults d container assembled
          rw [made] at published
          simp only [assembled] at published
          split at published
          · next moved =>
              cases published
              exact ⟨rfl, temp, created, rfl, moved⟩
          · cases published
          · cases published

theorem published_content (d : ArchiveDraft) (faults : Faults) (meanwhile : Store → Store) (s t : Store)
    (path : String) (published : d.publish faults meanwhile s = (.ok path, t)) :
    t.read d.target = .ok (.file (.archive d.container)) := by
  obtain ⟨_, temp, created, made, moved⟩ := publish_cases d faults meanwhile s t path published
  obtain ⟨place, _, named, _⟩ :=
    Store.create_temp_cases s created _ _ _ temp (d.create_temp_ok faults s created temp made)
  have moved := d.move_into_place_ok faults _ t temp moved
  obtain ⟨node, loc, found, _, _⟩ := Store.move_fresh_cases _ t temp d.target moved
  apply Store.read_moved _ t temp d.target (.archive d.container) _ moved
  have inside : temp ≠ [] := by
    rw [named]
    simp
  have kept := Store.node_remove ((meanwhile created).refill temp (.archive d.container)) d.staged.location temp
    (by rw [found]; rfl)
  rw [kept, Store.node_refill _ temp _ temp inside, if_pos rfl] at found ⊢
  cases there : (meanwhile created).node? temp with
  | none =>
      rw [there] at found
      cases found
  | some other => rfl

theorem archive_opened (t : Store) (path : String) (container : Container)
    (content : t.read path = .ok (.file (.archive container))) :
    Archive.ofPath t path = Archive.ofEntries (container.entries.map fun (name, text) => ⟨name, .text text⟩) := by
  rw [Archive.ofPath, content]
  rfl

theorem Content.bytes_entries (b : ByteArray) (entries : List Zip.Entry) (read : Zip.read? b = some entries) :
    (Content.bytes b).entries? = .ok entries := by
  unfold Content.entries?
  simp only [read]

/-- The bytes of a published archive open as the archive does, wherever they are copied to. -/
theorem published_bytes_open (d : ArchiveDraft) (faults : Faults) (meanwhile : Store → Store) (s t u : Store)
    (path copy : String) (content : Content) (published : d.publish faults meanwhile s = (.ok path, t))
    (stored : t.read d.target = .ok (.file content)) (small : content.toBytes.size < 0xFFFFFFFF)
    (copied : u.read copy = .ok (.file (.bytes content.toBytes))) :
    Archive.ofPath u copy = Archive.ofPath t d.target := by
  have same := (published_content d faults meanwhile s t path published).symm.trans stored
  obtain rfl : .archive d.container = content := Node.file.inj (Except.ok.inj same)
  have entries : (Content.bytes (Content.archive d.container).toBytes).entries? = _ :=
    Content.bytes_entries _ _ (Zip.read_texts d.compression d.container.entries (d.container_fits small))
  rw [archive_opened t d.target d.container stored, Archive.ofPath, copied]
  simp only [entries]

def Trace.ofEvents : Layout → List Event → Trace
  | .nodes, es => .nodes (es.filterMap Event.finishedCall?)
  | .events, es => .events (es.map Event.entry)

theorem trace_layout (layout : Layout) (events : List Event) : (Trace.ofEvents layout events).layout = layout := by
  cases layout <;> rfl

theorem staged_text (faults : Faults) (layout : Layout) (limit : Option Nat) (events : List Event)
    (rest : List Message) (t : Table)
    (written : Table.ofMessages faults layout limit (events.map .event ++ .finish :: rest) = .ok t) :
    t.layout = layout ∧ t.text.toList = (Trace.ofEvents layout events).text := by
  obtain ⟨same, _, _, text⟩ := table_text faults layout limit events rest t written
  refine ⟨same, ?_⟩
  rw [text]
  cases layout with
  | nodes =>
      rw [List.flatten_append, List.flatten_append, nodes_body]
      simp [TableDraft.openingPieces, TableDraft.closingPieces, Trace.ofEvents, Trace.text]
  | events =>
      rw [List.flatten_append, List.flatten_append, events_body]
      simp [TableDraft.openingPieces, TableDraft.closingPieces, Trace.ofEvents, Trace.text, Function.comp_def]

def FinishedCall.exit (r : FinishedCall) : Event :=
  ⟨if r.success then .success else .failure, r.id, r.parentId, r.level, ⟨r.matcherId, "", .terminal, ""⟩,
    r.startOffset, r.endOffset, 0, some r.elapsedNanos⟩

def EventEntry.event (r : EventEntry) : Event :=
  ⟨r.phase, r.nodeId, r.parentId, r.level, ⟨r.matcherId, r.matcherClass, r.category, ""⟩, 0, r.offset, r.timestamp,
    r.elapsedNanos⟩

theorem finished_call_exit (r : FinishedCall) : r.exit.finishedCall? = some r := by
  rcases r with ⟨_, _, _, success, _, _, _, _⟩
  cases success <;> rfl

theorem every_trace_told (trace : Trace) : ∃ events, Trace.ofEvents trace.layout events = trace := by
  cases trace with
  | nodes rows =>
      have same : Event.finishedCall? ∘ FinishedCall.exit = some := funext finished_call_exit
      refine ⟨rows.map FinishedCall.exit, ?_⟩
      change Trace.nodes ((rows.map FinishedCall.exit).filterMap Event.finishedCall?) = .nodes rows
      rw [List.filterMap_map, same, List.filterMap_some]
  | events rows =>
      have same : Event.entry ∘ EventEntry.event = id := rfl
      refine ⟨rows.map EventEntry.event, ?_⟩
      change Trace.events ((rows.map EventEntry.event).map Event.entry) = .events rows
      rw [List.map_map, same, List.map_id]

/-- Any trace can be staged, and an archive that was published with it opens as its text, its matchers,
the trace and the totals, each as it was, whatever the compression and whoever used the store meanwhile. -/
theorem published_archive_reads_back (trace : Trace) (traceFits : trace.Fits) :
    (∃ events, Trace.ofEvents trace.layout events = trace) ∧
    ∀ (events : List Event) (_ : Trace.ofEvents trace.layout events = trace) (writing : Faults) (limit : Option Nat)
      (rest : List Message) (d : ArchiveDraft)
      (_ : Table.ofMessages writing trace.layout limit (events.map .event ++ .finish :: rest) = .ok d.staged.table)
      (_ : ∀ m ∈ d.matchers, m.Fits) (_ : d.totals.Fits) (faults : Faults) (meanwhile : Store → Store) (s t : Store)
      (path : String) (_ : d.publish faults meanwhile s = (.ok path, t)),
      Archive.ofPath t d.target = .ok ⟨d.input, d.matchers, trace, d.totals,
        ["input.txt", "matchers.csv", trace.layout.entryName, "info.csv"]⟩ := by
  refine ⟨every_trace_told trace, ?_⟩
  intro events told writing limit rest d written matcherFits totalFits faults meanwhile s t path published
  obtain ⟨layout, text⟩ := staged_text writing trace.layout limit events rest d.staged.table written
  rw [told] at text
  rw [archive_opened t d.target d.container (published_content d faults meanwhile s t path published)]
  exact container_reads_back d trace layout text traceFits matcherFits totalFits

namespace Demo

def oddMatcher : Descriptor := ⟨2 ^ 32 - 1, "Odd;\\\r\nMatcher", .terminal, "'é'"⟩

def oddCall : List Event :=
  [⟨.enter, 0, rootParent, 0, oddMatcher, 0, 0, 5, none⟩, ⟨.success, 0, rootParent, 0, oddMatcher, 0, 1, 9, some 4⟩]

def oddTable : Table :=
  match Table.ofMessages .none .events none (oddCall.map .event ++ [.finish]) with
  | .ok t => t
  | .error _ => ⟨.events, "", 0, 0⟩

def oddDraft : ArchiveDraft where
  target := "/out/odd.zip"
  archiveDir := "/out"
  compression := .stored
  input := "é;\r\n"
  matchers := [oddMatcher]
  staged := ⟨["out", "staged"], oddTable⟩
  totals := ⟨2 ^ 64 - 1, 2, 1, 2, 4, 4, 1⟩

def outStore : Store := { nodes := [(["out"], .dir), (["out", "staged"], .file (.bytes ByteArray.empty))] }

end Demo

theorem odd_table : Table.ofMessages .none .events none (Demo.oddCall.map .event ++ [.finish]) = .ok Demo.oddTable := by
  rcases written : Table.ofMessages .none .events none (Demo.oddCall.map .event ++ [.finish]) with _ | t
  · have finished : (Table.ofMessages .none .events none (Demo.oddCall.map .event ++ [.finish])).toBool = true := by
      decide +kernel
    rw [written] at finished
    cases finished
  · rw [Demo.oddTable, written]

theorem odd_entries_fit : (Trace.ofEvents .events Demo.oddCall).Fits := by
  intro r mem
  simp only [Demo.oddCall, List.map_cons, List.map_nil, List.mem_cons, List.not_mem_nil, or_false] at mem
  rcases mem with rfl | rfl
  · exact ⟨by decide, by decide, by decide, by decide, by decide, by decide, by decide, fun _ none => nomatch none⟩
  · refine ⟨by decide, by decide, by decide, by decide, by decide, by decide, by decide, ?_⟩
    rintro n same
    cases same
    decide

-- A matcher whose class name is full of separators and line breaks, and the largest numbers.
theorem odd_archive_reads_back :
    ∃ t, Demo.oddDraft.publish .none id Demo.outStore = (.ok "/out/odd.zip", t) ∧
      Archive.ofPath t "/out/odd.zip" = .ok ⟨"é;\r\n", [Demo.oddMatcher], .events (Demo.oddCall.map Event.entry),
        Demo.oddDraft.totals, ["input.txt", "matchers.csv", "events.json", "info.csv"]⟩ := by
  rcases published : Demo.oddDraft.publish .none id Demo.outStore with ⟨outcome, t⟩
  have done : (Demo.oddDraft.publish .none id Demo.outStore).1.toOption = some "/out/odd.zip" := by decide +kernel
  rw [published] at done
  cases outcome with
  | error e => cases done
  | ok path =>
      cases done
      refine ⟨t, rfl, ?_⟩
      exact (published_archive_reads_back (Trace.ofEvents .events Demo.oddCall) odd_entries_fit).2 Demo.oddCall rfl
        .none none [] Demo.oddDraft odd_table
        (fun m mem => by cases List.mem_singleton.mp mem; exact (by decide : (2 ^ 32 - 1 : Nat) ≤ Decimal.maxHalf))
        ⟨by decide, by decide, by decide, by decide, by decide, by decide, by decide⟩ .none id Demo.outStore t _
        published

end MatchTrace
