import MatchTrace.Demo
import MatchTrace.Proofs.Archive.Clean
import MatchTrace.Proofs.Staging.Pipeline
import MatchTrace.Proofs.Trace.Words

/-!
A traced run as a whole. In the end the store is what others have made of it, and holds the archive
beside that if the run came to a result. The archive is then one that opens.
-/

namespace MatchTrace

set_option autoImplicit false

variable {σ : Type}

theorem trace_fits (layout : Layout) (count : Nat) (events : List Event) (fits : ∀ e ∈ events, e.Fits count)
    (bound : count < 2 ^ 63) : (Trace.ofEvents layout events).Fits := by
  cases layout with
  | nodes =>
      intro r mem
      obtain ⟨e, inside, finished⟩ := List.mem_filterMap.mp mem
      exact (event_holds count e (fits e inside) bound).2 r finished
  | events =>
      intro r mem
      obtain ⟨e, inside, rfl⟩ := List.mem_map.mp mem
      exact (event_holds count e (fits e inside) bound).1

theorem undisturbed_free (faults : Faults) (assembling : Option Node) (d : ArchiveDraft) (s : Store) (place : Location)
    (free : (d.undisturbed faults assembling s).target d.target = .ok place) :
    d.undisturbed faults assembling s = s := by
  rw [ArchiveDraft.undisturbed] at free ⊢
  split at free
  · exact Store.welcome_nothing d.target assembling s place free
  · rfl

namespace TracedRun

theorem totals_fit (input : Input) (recorder : Recorder) (table : Table) (sound : recorder.Sound)
    (events : table.eventCount < recorder.outbox.length) (room : input.length < 2 ^ 63)
    (few : recorder.nextNode < 2 ^ 63) : (totalsOf input recorder table).Fits := by
  have count := sound.count
  have units := unit_count_within input.chars.toList
  have lines := line_count_within input
  have matchers := sound.catalog.size
  rw [Array.length_toList] at units
  change unitCount input.chars.toList ≤ 2 * input.length at units
  have last : (if recorder.closed then 1 else 0) ≤ 1 := by
    split
    · exact Nat.le_refl 1
    · exact Nat.zero_le 1
  refine ⟨sound.time, ?_, ?_, ?_, ?_, ?_, ?_⟩
  · change table.eventCount ≤ 2 ^ 64 - 1
    omega
  · change recorder.catalog.size ≤ 2 ^ 64 - 1
    simp only [Decimal.maxHalf] at matchers
    omega
  · change recorder.lineCount.getD input.lineTable.lineCount ≤ Decimal.maxWord
    cases counted : recorder.lineCount with
    | some n => exact sound.lines n counted
    | none =>
        change input.lineTable.lineCount ≤ 2 ^ 64 - 1
        omega
  · change unitCount input.chars.toList ≤ 2 ^ 64 - 1
    omega
  · change input.chars.toList.length ≤ 2 ^ 64 - 1
    rw [Array.length_toList]
    change input.length ≤ 2 ^ 64 - 1
    omega
  · change recorder.nextNode ≤ 2 ^ 64 - 1
    omega

def alone (world : World) (settings : Settings) (classifier : Classifier) (run : Run) : Recorder × Option TraceError :=
  announce (Recorder.listen world.clock) (pipeline world settings classifier).recorder run.hooks

theorem listened_alone (fuel : Nat) (world : World) (settings : Settings) (classifier : Classifier) (g : Grammar)
    (input : Input) (extras : Listener ListenerError σ) (states : σ) (listened : Listened σ) (result : ParseResult)
    (heard : listenWith fuel world g input (pipeline world settings classifier) extras states = some listened)
    (ended : listened.outcome = .ok result) :
    ∃ run, g.runWith fuel input = some run ∧ run.outcome = .ok result ∧
      alone world settings classifier run = (listened.pipeline.recorder.reaching, none) ∧
      listened.pipeline.close world.faults =
        Table.ofMessages world.faults settings.layout settings.maxStagingBytes listened.pipeline.recorder.sent := by
  obtain ⟨⟨⟨p, last⟩, outcome⟩, ran, rfl⟩ := Option.map_eq_some_iff.mp heard
  dsimp only at ended
  subst ended
  obtain ⟨run, noted, ended, told⟩ := heard_announced fuel g input _ _ _ result ran
  have first := announce_mapped (Pipeline.listen world.clock world.faults world.pace) ListenerError.trace _ p run.hooks
    (announce_first _ extras _ _ run.hooks told)
  obtain ⟨fed, alone⟩ := Pipeline.announce_fed world.faults
    (Progress.start world.faults settings.layout settings.maxStagingBytes) world.clock world.pace run.hooks _ p
    ⟨Nat.le_refl 0, rfl⟩ first
  exact ⟨run, noted, ended, alone, Pipeline.close_fed world.faults _ p fed⟩

theorem listened_whole (fuel : Nat) (world : World) (settings : Settings) (classifier : Classifier) (g : Grammar)
    (input : Input) (extras : Listener ListenerError σ) (states : σ) (listened : Listened σ) (result : ParseResult)
    (heard : listenWith fuel world g input (pipeline world settings classifier) extras states = some listened)
    (ended : listened.outcome = .ok result) (room : input.length < Decimal.maxWord) :
    listened.pipeline.recorder.reaching.Sound ∧ ∃ events : List Event,
      listened.pipeline.recorder.sent = events.map .event ++ [.finish] ∧
      listened.pipeline.close world.faults =
        Table.ofMessages world.faults settings.layout settings.maxStagingBytes (events.map .event ++ [.finish]) := by
  obtain ⟨run, noted, ended, alone, closed⟩ :=
    listened_alone fuel world settings classifier g input extras states listened result heard ended
  obtain ⟨hooks, front, latest, count, -, sent, -⟩ := Recorder.parse_events fuel g input world.clock _ _ run result rfl
    noted ended alone
  change listened.pipeline.recorder.sent = _ at sent
  rw [sent] at closed
  exact ⟨Recorder.parse_sound fuel g input world.clock classifier true _ run room noted alone, _, sent, closed⟩

theorem draft_reads_back (fuel : Nat) (world : World) (settings : Settings) (classifier : Classifier) (g : Grammar)
    (input : Input) (extras : Listener ListenerError σ) (states : σ) (listened : Listened σ) (result : ParseResult)
    (heard : listenWith fuel world g input (pipeline world settings classifier) extras states = some listened)
    (ended : listened.outcome = .ok result) (staged : StagedTable)
    (closed : listened.pipeline.close world.faults = .ok staged.table) (room : input.length < 2 ^ 63)
    (few : listened.pipeline.recorder.nextNode < 2 ^ 63) (events : List Event)
    (sent : listened.pipeline.recorder.sent = events.map .event ++ [.finish]) :
    Archive.ofEntries ((draftOf settings input listened.pipeline.recorder staged).container.entries.map
        fun (name, text) => ⟨name, .text text⟩) =
      .ok ⟨input.text, listened.pipeline.recorder.catalog.descriptors, .ofEvents settings.layout events,
        totalsOf input listened.pipeline.recorder staged.table,
        [inputEntry, matchersEntry, settings.layout.entryName, infoEntry]⟩ := by
  have below : input.length < Decimal.maxWord := Nat.lt_of_lt_of_le room (by decide)
  obtain ⟨sound, -⟩ :=
    listened_whole fuel world settings classifier g input extras states listened result heard ended below
  obtain ⟨-, -, -, -, whole⟩ :=
    listened_alone fuel world settings classifier g input extras states listened result heard ended
  rw [closed, sent] at whole
  obtain ⟨layout, text⟩ := staged_text world.faults settings.layout settings.maxStagingBytes events [] staged.table
    whole.symm
  obtain ⟨-, count, -⟩ := table_text world.faults settings.layout settings.maxStagingBytes events [] staged.table
    whole.symm
  have outbox : listened.pipeline.recorder.outbox = .finish :: (events.map .event).reverse := by
    rw [← List.reverse_reverse listened.pipeline.recorder.outbox]
    change listened.pipeline.recorder.sent.reverse = _
    rw [sent, List.reverse_append, List.reverse_singleton, List.singleton_append]
  have fits (e : Event) (mem : e ∈ events) : e.Fits listened.pipeline.recorder.nextNode := by
    apply sound.events e
    change _ ∈ listened.pipeline.recorder.outbox
    rw [outbox]
    exact List.mem_cons_of_mem _ (List.mem_reverse.mpr (List.mem_map_of_mem mem))
  have totals := totals_fit input listened.pipeline.recorder.reaching staged.table sound (by
    change _ < listened.pipeline.recorder.outbox.length
    rw [outbox, count]
    simp) room few
  have back := container_reads_back (draftOf settings input listened.pipeline.recorder staged)
    (Trace.ofEvents settings.layout events) (layout.trans (trace_layout settings.layout events).symm) text
    (trace_fits settings.layout _ events fits few) sound.catalog.ids totals
  rw [trace_layout] at back
  exact back

theorem draft_opens (fuel : Nat) (world : World) (settings : Settings) (classifier : Classifier) (g : Grammar)
    (input : Input) (extras : Listener ListenerError σ) (states : σ) (listened : Listened σ) (result : ParseResult)
    (heard : listenWith fuel world g input (pipeline world settings classifier) extras states = some listened)
    (ended : listened.outcome = .ok result) (staged : StagedTable)
    (closed : listened.pipeline.close world.faults = .ok staged.table) (room : input.length < 2 ^ 63)
    (few : listened.pipeline.recorder.nextNode < 2 ^ 63) :
    ∃ trace, Archive.ofEntries ((draftOf settings input listened.pipeline.recorder staged).container.entries.map
        fun (name, text) => ⟨name, .text text⟩) =
      .ok ⟨input.text, listened.pipeline.recorder.catalog.descriptors, trace,
        totalsOf input listened.pipeline.recorder staged.table,
        [inputEntry, matchersEntry, settings.layout.entryName, infoEntry]⟩ := by
  have below : input.length < Decimal.maxWord := Nat.lt_of_lt_of_le room (by decide)
  obtain ⟨-, events, sent, -⟩ :=
    listened_whole fuel world settings classifier g input extras states listened result heard ended below
  exact ⟨_, draft_reads_back fuel world settings classifier g input extras states listened result heard ended staged
    closed room few events sent⟩

def undisturbed (world : World) (settings : Settings) (input : Input) (staging : Location) (assembling : Option Node)
    (listened : Listened σ) (s : Store) : Store :=
  match listened.outcome, listened.pipeline.close world.faults with
  | .ok _, .ok table =>
      (draftOf settings input listened.pipeline.recorder ⟨staging, table⟩).undisturbed world.faults assembling s
  | _, _ => s

-- What the store comes to if the run leaves it alone. A node may come to the place of the archive
-- while the parse runs, if a staging file could be made for it, or later.
def others (fuel : Nat) (world : World) (settings : Settings) (classifier : Classifier) (g : Grammar) (input : Input)
    (extras : Listener ListenerError σ) (states : σ) (during assembling : Option Node) (s : Store) : Store :=
  match createStaging world.faults settings s,
    listenWith fuel world g input (pipeline world settings classifier) extras states with
  | .ok (staging, _), some listened =>
      undisturbed world settings input staging assembling listened (s.welcome settings.archivePath during)
  | _, _ => s

-- How a run that was heard to its end may have ended, and what it left.
def Leaves (settings : Settings) (input : Input) (staging : Location) (faults : Faults) (listened : Listened σ)
    (others t : Store) : Except TraceError Report → Prop
  | .error _ => ∀ l, t.node? l = others.node? l
  | .ok report => ∃ table, listened.outcome = .ok report.result ∧ listened.pipeline.close faults = .ok table ∧
      let draft := draftOf settings input listened.pipeline.recorder ⟨staging, table⟩
      report.totals = draft.totals ∧ t.read settings.archivePath = .ok (.file (.archive draft.container)) ∧
        ∃ place, others.target settings.archivePath = .ok place ∧
          ∀ l, t.node? l = if l = place then some (.file (.archive draft.container)) else others.node? l

theorem settle_clean (world : World) (settings : Settings) (input : Input) (staging : Location)
    (assembling : Option Node) (listened : Listened σ) (theirs u t : Store) (outcome : Except TraceError Report)
    (beside : Store.Beside (Path.fileName? settings.archivePath) [staging] theirs u)
    (settled : settle { world with meanwhile := Store.welcome settings.archivePath assembling } settings input staging
      listened u = (outcome, t)) :
    Leaves settings input staging world.faults listened
      (undisturbed world settings input staging assembling listened theirs) t outcome := by
  unfold settle at settled
  cases ended : listened.outcome with
  | error e =>
      simp only [ended] at settled
      cases settled
      rw [undisturbed, ended]
      exact beside_nothing _ theirs _ (StagedTable.abort_clean _ theirs u staging beside _)
  | ok result =>
      simp only [ended] at settled
      rcases finished : StagedTable.finish u staging (listened.pipeline.close world.faults) with ⟨answer, v⟩
      have clean := StagedTable.finish_clean _ theirs u staging beside _ v answer finished
      rw [finished] at settled
      cases answer with
      | error e =>
          obtain ⟨⟨stop, closed⟩, clean⟩ := clean
          cases settled
          rw [undisturbed, ended, closed]
          exact beside_nothing _ theirs t clean
      | ok staged =>
          obtain ⟨closed, rfl, clean⟩ := clean
          rw [undisturbed, ended, closed]
          dsimp only at settled ⊢
          rcases published : (draftOf settings input listened.pipeline.recorder staged).publish world.faults
            (Store.welcome settings.archivePath assembling) v with ⟨answer, w⟩
          have leaves := ArchiveDraft.publish_clean world.faults assembling
            (draftOf settings input listened.pipeline.recorder staged) theirs v w answer clean published
          rw [published] at settled
          cases answer with
          | error e =>
              cases settled
              exact leaves
          | ok path =>
              cases settled
              exact ⟨staged.table, ended, closed, rfl, published_content _ world.faults _ v t path published, leaves⟩

theorem create_staging_clean (faults : Faults) (settings : Settings) (s t : Store) (staging : Location)
    (created : createStaging faults settings s = .ok (staging, t)) :
    Store.Beside (Path.fileName? settings.archivePath) [staging] s t := by
  unfold createStaging at created
  obtain ⟨_, _, created⟩ := bind_ok _ _ _ created
  have made := StagedTable.create_ok s t _ _ _ staging created
  exact (Store.beside_create _ [] s s (Store.beside_refl _ s) t _ _ staging made).2

theorem undisturbed_nothing (world : World) (settings : Settings) (input : Input) (staging : Location)
    (assembling : Option Node) (listened : Listened σ) (s : Store) (place : Location)
    (free : (undisturbed world settings input staging assembling listened s).target settings.archivePath = .ok place) :
    undisturbed world settings input staging assembling listened s = s := by
  rw [undisturbed] at free ⊢
  split at free
  · exact undisturbed_free world.faults assembling _ s place free
  · rfl

end TracedRun

namespace Demo

def linesWorld : World := { clock := fun n => ⟨n, 0⟩ }

def linesSettings : Settings := { archivePath := "/out/lines.zip" }

def notesStore : Store := { nodes := [(["out"], .dir), (["out", "notes.txt"], .file (.ofText "kept"))] }

def linesReport : Report := ⟨⟨true, 4, 3⟩, ⟨0, 68, 11, 2, 3, 3, 34⟩, "/out/lines.zip"⟩

def tracedLines : Option ((Except TraceError Report × Store) × Unit) :=
  TracedRun.runWith 7 { linesWorld with meanwhile := Store.welcome "/out/lines.zip" none } linesSettings .builtIn lines
    (.ofString "a\nb") .deaf () (fun _ => Store.welcome "/out/lines.zip" none) notesStore

end Demo

end MatchTrace
