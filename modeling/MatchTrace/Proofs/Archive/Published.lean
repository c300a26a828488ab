import MatchTrace.Proofs.Archive.TracedRun

/-!
What a traced run that came to a result has published, in terms of what its recorder would have told alone.
-/

namespace MatchTrace

set_option autoImplicit false

variable {σ : Type}

def Archive.container (a : Archive) (compression : Compression) : Container :=
  { compression
    entries := [(inputEntry, a.input), (matchersEntry, ArchiveDraft.matchersText a.matchers),
      (a.trace.layout.entryName, String.ofList a.trace.text), (infoEntry, a.totals.toRow)] }

-- The file at a path says what an archive holds, and opens as it unless its numbers are too large for words.
structure Archive.Published (t : Store) (path : String) (a : Archive) : Prop where
  stored : ∃ compression, t.read path = .ok (.file (.archive (a.container compression)))
  opens : a.totals.codePointCount < 2 ^ 63 → a.totals.nodeCount < 2 ^ 63 → Archive.ofPath t path = .ok a

def Archive.ofRecorded (layout : Layout) (input : Input) (recorder : Recorder) (events : List Event) : Archive :=
  let counts := textSize input.chars.toList
  { input := input.text
    matchers := recorder.catalog.descriptors
    trace := .ofEvents layout events
    totals :=
      { startTimeMillis := recorder.startTimeMillis
        eventCount := events.length
        matcherCount := recorder.catalog.size
        lineCount := recorder.lineCount.getD input.lineTable.lineCount
        charCount := counts.units
        codePointCount := counts.scalars
        nodeCount := recorder.nextNode }
    entries := [inputEntry, matchersEntry, layout.entryName, infoEntry] }

namespace TracedRun

theorem run_cases (fuel : Nat) (world : World) (settings : Settings) (classifier : Classifier) (g : Grammar)
    (input : Input) (extras : Listener ListenerError σ) (states last : σ) (touch : σ → Store → Store) (s t : Store)
    (report : Report)
    (ran : runWith fuel world settings classifier g input extras states touch s = some ((.ok report, t), last)) :
    ∃ (listened : Listened σ) (staged : StagedTable) (u : Store) (path : String),
      listenWith fuel world g input (pipeline world settings classifier) extras states = some listened ∧
      listened.outcome = .ok report.result ∧ listened.pipeline.close world.faults = .ok staged.table ∧
      report.totals = totalsOf input listened.pipeline.recorder staged.table ∧
      (draftOf settings input listened.pipeline.recorder staged).publish world.faults world.meanwhile u =
        (.ok path, t) := by
  rw [runWith] at ran
  cases created : createStaging world.faults settings s with
  | error failure =>
      rw [created] at ran
      cases ran
  | ok made =>
      obtain ⟨staging, u⟩ := made
      rw [created] at ran
      obtain ⟨listened, heard, eq⟩ := Option.map_eq_some_iff.mp ran
      have settled := congrArg Prod.fst eq
      simp only [settle] at settled
      cases ended : listened.outcome with
      | error e =>
          rw [ended] at settled
          cases settled
      | ok result =>
          rw [ended] at settled
          dsimp only at settled
          cases closed : listened.pipeline.close world.faults with
          | error stop =>
              rcases finished : StagedTable.finish (touch listened.extras u) staging (.error stop) with ⟨_ | staged, v⟩
              · rw [closed, finished] at settled
                cases settled
              · rcases stop with _ | failure
                · cases finished
                · cases finished
          | ok table =>
              rw [closed, StagedTable.finish] at settled
              rcases published : (draftOf settings input listened.pipeline.recorder ⟨staging, table⟩).publish world.faults
                world.meanwhile ((touch listened.extras u).refill staging (.ofText table.text)) with ⟨e | path, w⟩
              · simp only [published] at settled
                cases settled
              · simp only [published] at settled
                cases settled
                exact ⟨listened, ⟨staging, table⟩, _, path, heard, ended, closed, rfl, published⟩

theorem run_published (fuel : Nat) (world : World) (settings : Settings) (classifier : Classifier) (g : Grammar)
    (input : Input) (extras : Listener ListenerError σ) (states last : σ) (touch : σ → Store → Store) (s t : Store)
    (report : Report)
    (ran : runWith fuel world settings classifier g input extras states touch s = some ((.ok report, t), last)) :
    ∃ (run : Run) (recorder : Recorder) (events : List Event), g.runWith fuel input = some run ∧
      run.outcome = .ok report.result ∧ alone world settings classifier run = (recorder, none) ∧
      recorder.sent = events.map .event ++ [.finish] ∧
      let a := Archive.ofRecorded settings.layout input recorder events
      a.Published t settings.archivePath ∧ a.totals = report.totals := by
  obtain ⟨listened, staged, u, path, heard, ended, closed, totals, published⟩ :=
    run_cases fuel world settings classifier g input extras states last touch s t report ran
  obtain ⟨run, noted, same, alone, whole⟩ :=
    listened_alone fuel world settings classifier g input extras states listened report.result heard ended
  obtain ⟨hooks, front, latest, count, -, sent, -⟩ := Recorder.parse_events fuel g input world.clock _ _ run report.result
    rfl noted same alone
  let events := front ++ [latest]
  let recorder := listened.pipeline.recorder.reaching
  change listened.pipeline.recorder.sent = events.map .event ++ [.finish] at sent
  rw [closed, sent] at whole
  obtain ⟨layout, text⟩ := staged_text world.faults settings.layout settings.maxStagingBytes events [] staged.table
    whole.symm
  obtain ⟨-, length, -⟩ := table_text world.faults settings.layout settings.maxStagingBytes events [] staged.table
    whole.symm
  have counted : totalsOf input listened.pipeline.recorder staged.table =
      (Archive.ofRecorded settings.layout input recorder events).totals := by
    rw [totalsOf, length]
    rfl
  have told : (draftOf settings input listened.pipeline.recorder staged).container =
      (Archive.ofRecorded settings.layout input recorder events).container settings.compression := by
    have named : (Archive.ofRecorded settings.layout input recorder events).trace.layout = staged.table.layout :=
      (trace_layout settings.layout events).trans layout.symm
    rw [Archive.container, named, ← counted]
    change _ = Container.mk _ [_, _, (_, String.ofList (Trace.ofEvents settings.layout events).text), _]
    rw [← text, String.ofList_toList]
    rfl
  have content := published_content _ world.faults world.meanwhile u t path published
  rw [told] at content
  refine ⟨run, recorder, events, noted, same, alone, sent, ⟨⟨settings.compression, content⟩, fun room few => ?_⟩, ?_⟩
  · have short : input.length < 2 ^ 63 := by
      change input.chars.toList.length < 2 ^ 63 at room
      rwa [Array.length_toList] at room
    have opens := draft_reads_back fuel world settings classifier g input extras states listened report.result heard
      ended staged closed short few events sent
    rw [told, counted] at opens
    exact (archive_opened t settings.archivePath _ content).trans opens
  · rw [totals, counted]

end TracedRun

theorem traced_lines_report : ∃ t, Demo.tracedLines = some ((.ok Demo.linesReport, t), ()) := by
  have evaluated : Demo.tracedLines.map (·.1.1.toOption) = some (some Demo.linesReport) := by decide +kernel
  rcases ran : Demo.tracedLines with _ | ⟨⟨e | report, t⟩, last⟩
  · rw [ran] at evaluated
    cases evaluated
  · rw [ran] at evaluated
    cases evaluated
  · rw [ran] at evaluated
    cases evaluated
    exact ⟨t, rfl⟩

end MatchTrace
