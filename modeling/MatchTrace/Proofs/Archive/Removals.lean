import MatchTrace.Proofs.Archive.Cause
import MatchTrace.Proofs.Archive.Setback

/-!
What storage may refuse to a traced run. The writer or the publication fails at a step, and the run tells that step,
the cause and every removal of a temporary file that failed too. A run that does not fail so goes on without its
staging file as with it.
-/

namespace MatchTrace

set_option autoImplicit false

open Operation

namespace StagedTable

theorem abort_store (s : Store) (staging : Location) (ended : Except Stop Table) :
    (abort s staging ended).2 = match ended with
      | .ok table => ((s.refill staging (.ofText table.text)).remove staging).2
      | .error _ => (s.remove staging).2 := by
  rcases ended with (_ | f) | table <;> rfl

end StagedTable

namespace TracedRun

variable {σ : Type}

def openStaging (faults : Faults) (settings : Settings) (s : Store) : Except IoError (Location × Store) :=
  match faults .createStaging 0 with
  | some cause => .error cause
  | none => s.createTemp settings.resolvedStagingDir settings.layout.stagingSuffix (Path.fileName? settings.archivePath)

theorem create_staging_eq (faults : Faults) (settings : Settings) (s : Store) :
    createStaging faults settings s = (openStaging faults settings s).mapError (⟨.createStaging, ·, []⟩) := by
  unfold createStaging openStaging StagedTable.create Faults.check
  generalize s.createTemp settings.resolvedStagingDir settings.layout.stagingSuffix
    (Path.fileName? settings.archivePath) = made
  cases faults .createStaging 0 with
  | some cause => rfl
  | none => cases made <;> rfl

theorem staging_apart (faults : Faults) (settings : Settings) (s t : Store) (staging : Location)
    (created : openStaging faults settings s = .ok (staging, t)) (place : Location) (n : Nat) :
    staging ≠ place ++ [Store.tempName n ArchiveDraft.archiveSuffix] := by
  rw [openStaging] at created
  split at created
  · cases created
  · obtain ⟨dir, -, rfl, -⟩ := Store.create_temp_cases s t _ _ _ staging created
    obtain ⟨m, fresh⟩ := Store.fresh_name_temp s dir settings.layout.stagingSuffix (Path.fileName? settings.archivePath)
    intro same
    have names := (List.append_inj' same rfl).2
    rw [fresh, List.singleton_inj] at names
    revert names
    apply Store.temp_names_apart
    · cases settings.layout <;> decide
    · cases settings.layout <;> decide

theorem listened_closed (fuel : Nat) (world : World) (settings : Settings) (classifier : Classifier) (g : Grammar)
    (input : Input) (extras : Listener ListenerError σ) (states : σ) (listened : Listened σ)
    (heard : listenWith fuel world g input (pipeline world settings classifier) extras states = some listened) :
    listened.pipeline.close world.faults =
      Table.ofMessages world.faults settings.layout settings.maxStagingBytes listened.pipeline.recorder.sent := by
  cases ended : listened.outcome with
  | ok result =>
      obtain ⟨_, -, -, -, closed⟩ :=
        listened_alone fuel world settings classifier g input extras states listened result heard ended
      exact closed
  | error cause =>
      obtain ⟨a, ⟨hooks, order, -, comes⟩, rfl⟩ :=
        Hearing.listened_ends world settings classifier extras states fuel g input listened heard cause ended
      have sound := Drain.comes_sound world.clock world.faults
        (Progress.start world.faults settings.layout settings.maxStagingBytes) _ _ a.drain
        (Drain.start_sound world.clock world.faults _ (pipeline world settings classifier).recorder hooks rfl order)
        (Hearing.drain_comes world.clock world.faults extras _ a comes)
      exact Pipeline.close_fed world.faults _ a.drain.pipeline sound.fed

section Settle

variable (world : World) (settings : Settings) (input : Input) (staging : Location) (listened : Listened σ) (s : Store)

theorem settle_written (step : Step) (cause : IoError)
    (closed : listened.pipeline.close world.faults = .error (.failed ⟨step, cause, []⟩))
    (symptom : ∀ e, listened.outcome = .error e → e = .listener (.trace .writerClosed)) :
    settle world settings input staging listened s =
      (.error (.io (⟨step, cause, [staging], s⟩ : Setback).failure), (s.remove staging).2) := by
  have finished : StagedTable.finish s staging (.error (.failed ⟨step, cause, []⟩)) =
      (.error (.io (⟨step, cause, [staging], s⟩ : Setback).failure), (s.remove staging).2) := by
    simp only [StagedTable.finish, discard_bare]
  cases ended : listened.outcome with
  | error e =>
      obtain rfl := symptom e ended
      simp only [settle, ended, closed, StagedTable.abort_io _ _ _ _ _ finished]
      rfl
  | ok result => simp only [settle, ended, closed, finished]

theorem settle_published (result : ParseResult) (table : Table) (ended : listened.outcome = .ok result)
    (closed : listened.pipeline.close world.faults = .ok table) :
    let draft := draftOf settings input listened.pipeline.recorder ⟨staging, table⟩
    settle world settings input staging listened s =
      match draft.publish world.faults world.meanwhile (s.refill staging (.ofText table.text)) with
      | (.ok path, t) => (.ok ⟨result, draft.totals, path⟩, t)
      | (.error e, t) => (.error e, t) := by
  rcases published : (draftOf settings input listened.pipeline.recorder ⟨staging, table⟩).publish world.faults
    world.meanwhile (s.refill staging (.ofText table.text)) with ⟨_ | path, t⟩
  · simp only [settle, ended, closed, StagedTable.finish, published]
  · simp only [settle, ended, closed, StagedTable.finish, published]

theorem of_run_own (e : RunError ListenerError) (error : TraceError) (same : TraceError.ofRun e = error)
    (own : ∀ cause, error ≠ .listener cause) (unruly : ∀ e, error ≠ .rule e) : e = .listener (.trace error) := by
  rcases e with e | (e | cause)
  · exact absurd same.symm (unruly e)
  · exact congrArg (RunError.listener ∘ ListenerError.trace) same
  · exact absurd same.symm (own cause)

theorem settle_io (failure : Failure)
    (failed : (settle world settings input staging listened s).1 = .error (.io failure)) :
    listened.outcome = .error (.listener (.trace (.io failure))) ∨
    (∃ f, listened.pipeline.close world.faults = .error (.failed f) ∧
      ∀ e, listened.outcome = .error e → e = .listener (.trace .writerClosed)) ∨
    ∃ result table, listened.outcome = .ok result ∧ listened.pipeline.close world.faults = .ok table ∧
      ((draftOf settings input listened.pipeline.recorder ⟨staging, table⟩).publish world.faults world.meanwhile
        (s.refill staging (.ofText table.text))).1 = .error (.io failure) := by
  cases ended : listened.outcome with
  | error e =>
      by_cases symptom : TraceError.ofRun e = .writerClosed
      · obtain rfl := of_run_own e _ symptom (by simp) (by simp)
        refine .inr (.inl ?_)
        simp only [settle, ended] at failed
        cases closed : listened.pipeline.close world.faults with
        | ok table =>
            rw [closed] at failed
            cases failed
        | error stop =>
            cases stop with
            | abandoned =>
                rw [closed] at failed
                cases failed
            | failed f => exact ⟨f, rfl, fun e same => (Except.error.inj same).symm⟩
      · simp only [settle, ended, reported_kept _ _ symptom] at failed
        exact .inl (congrArg Except.error (of_run_own e _ (Except.error.inj failed) (by simp) (by simp)))
  | ok result =>
      refine .inr ?_
      cases closed : listened.pipeline.close world.faults with
      | error stop =>
          cases stop with
          | abandoned =>
              simp only [settle, ended, closed] at failed
              cases failed
          | failed f =>
              refine .inl ⟨f, rfl, fun e same => ?_⟩
              cases same
      | ok table =>
          refine .inr ⟨result, table, rfl, rfl, ?_⟩
          rw [settle_published world settings input staging listened s result table ended closed] at failed
          rcases published : (draftOf settings input listened.pipeline.recorder ⟨staging, table⟩).publish world.faults
            world.meanwhile (s.refill staging (.ofText table.text)) with ⟨_ | path, t⟩
          · rw [published] at failed
            cases failed
            rfl
          · rw [published] at failed
            cases failed

theorem settle_same_but (others : Store → Store) (u t : Store) (same : Store.SameBut staging s u)
    (alike : ∀ v w, Store.SameBut staging v w → Store.SameBut staging (world.meanwhile v) (others w))
    (apart : ∀ place n, staging ≠ place ++ [Store.tempName n ArchiveDraft.archiveSuffix])
    (outcome : Except TraceError Report) (sound : ∀ failure, outcome ≠ .error (.io failure))
    (settled : settle world settings input staging listened s = (outcome, t)) :
    settle { world with meanwhile := others } settings input staging listened u = (outcome, t) := by
  cases ended : listened.outcome with
  | error e =>
      have stores : (StagedTable.abort u staging (listened.pipeline.close world.faults)).2 =
          (StagedTable.abort s staging (listened.pipeline.close world.faults)).2 := by
        rw [StagedTable.abort_store, StagedTable.abort_store]
        cases listened.pipeline.close world.faults with
        | error stop => exact same.symm
        | ok table => exact (Store.same_but_refill staging s u same staging (.ofText table.text)).symm
      simp only [settle, ended] at settled ⊢
      rw [stores]
      obtain ⟨rfl, rfl⟩ := Prod.mk.inj settled
      by_cases symptom : TraceError.ofRun e = .writerClosed
      · cases closed : listened.pipeline.close world.faults with
        | ok table => rfl
        | error stop =>
            cases stop with
            | abandoned => rfl
            | failed f =>
                obtain ⟨g, v, failed, -, -⟩ := StagedTable.finish_io s staging f
                rw [closed, StagedTable.abort_io s v staging f g failed, symptom] at sound
                exact absurd rfl (sound g)
      · rw [reported_kept _ _ symptom, reported_kept _ _ symptom]
  | ok result =>
      cases closed : listened.pipeline.close world.faults with
      | error stop =>
          cases stop with
          | abandoned =>
              simp only [settle, ended, closed, StagedTable.finish] at settled ⊢
              rw [← settled, same]
          | failed f =>
              obtain ⟨g, v, failed, -, -⟩ := StagedTable.finish_io s staging f
              simp only [settle, ended, closed, failed] at settled
              cases settled
              exact absurd rfl (sound g)
      | ok table =>
          rw [settle_published world settings input staging listened s result table ended closed] at settled
          rw [settle_published { world with meanwhile := others } settings input staging listened u result table ended
            closed]
          have filled := Store.same_but_refill staging s u same staging (.ofText table.text)
          rcases published : (draftOf settings input listened.pipeline.recorder ⟨staging, table⟩).publish world.faults
            world.meanwhile (s.refill staging (.ofText table.text)) with ⟨answer, v⟩
          rw [published] at settled
          have harmless (failure : Failure) : answer ≠ .error (.io failure) := by
            rintro rfl
            cases settled
            exact sound failure rfl
          rw [ArchiveDraft.publish_same_but world.faults world.meanwhile _ _ apart others _ v filled alike answer harmless
            published]
          exact settled

end Settle

section Run

variable (fuel : Nat) (world : World) (settings : Settings) (classifier : Classifier) (g : Grammar) (input : Input)
  (extras : Listener ListenerError σ) (states : σ) (touch : σ → Store → Store) (s : Store)

-- What storage may refuse to a traced run. That the writer failed comes out if it is what ended the parse, or if the
-- parse came to a result.
inductive Meets : Setback → Prop where
  | create (cause : IoError) : openStaging world.faults settings s = .error cause → Meets ⟨.createStaging, cause, [], s⟩
  | write (staging : Location) (u : Store) (listened : Listened σ) (step : Step) (cause : IoError) :
      openStaging world.faults settings s = .ok (staging, u) →
      listenWith fuel world g input (pipeline world settings classifier) extras states = some listened →
      (∀ e, listened.outcome = .error e → e = .listener (.trace .writerClosed)) →
      FailsAt (Table.operations world.faults settings.layout listened.pipeline.recorder.sent)
        { room := settings.maxStagingBytes } step cause →
      Meets ⟨step, cause, [staging], touch listened.extras u⟩
  | publish (staging : Location) (u : Store) (listened : Listened σ) (result : ParseResult) (table : Table)
      (b : Setback) :
      openStaging world.faults settings s = .ok (staging, u) →
      listenWith fuel world g input (pipeline world settings classifier) extras states = some listened →
      listened.outcome = .ok result →
      Table.ofMessages world.faults settings.layout settings.maxStagingBytes listened.pipeline.recorder.sent = .ok table →
      (draftOf settings input listened.pipeline.recorder ⟨staging, table⟩).Meets world.faults world.meanwhile
        ((touch listened.extras u).refill staging (.ofText table.text)) b →
      Meets b

theorem run_opened (staging : Location) (u : Store) (opened : openStaging world.faults settings s = .ok (staging, u)) :
    runWith fuel world settings classifier g input extras states touch s =
      (listenWith fuel world g input (pipeline world settings classifier) extras states).map fun listened =>
        (settle world settings input staging listened (touch listened.extras u), listened.extras) := by
  rw [runWith, create_staging_eq, opened]
  rfl

theorem meets_run (b : Setback) (meets : Meets fuel world settings classifier g input extras states touch s b) :
    b.left.Nodup ∧ ∃ t last,
      runWith fuel world settings classifier g input extras states touch s = some ((.error (.io b.failure), t), last) := by
  cases meets with
  | create cause refused =>
      refine ⟨List.nodup_nil, s, states, ?_⟩
      rw [runWith, create_staging_eq, refused]
      rfl
  | write staging u listened step cause opened heard symptom failed =>
      have closed := listened_closed fuel world settings classifier g input extras states listened heard
      rw [(Table.of_messages_failed _ _ _ _ ⟨step, cause, []⟩).mpr ⟨step, cause, failed, rfl⟩] at closed
      refine ⟨List.nodup_singleton _, ((touch listened.extras u).remove staging).2, listened.extras, ?_⟩
      rw [run_opened fuel world settings classifier g input extras states touch s staging u opened, heard, Option.map_some,
        settle_written world settings input staging listened _ step cause closed symptom]
  | publish staging u listened result table _ opened heard ended written meets =>
      have closed := listened_closed fuel world settings classifier g input extras states listened heard
      rw [written] at closed
      obtain ⟨distinct, failed⟩ := ArchiveDraft.meets_publish world.faults world.meanwhile _ _
        (staging_apart world.faults settings s u staging opened) b meets
      refine ⟨distinct, ?_⟩
      rw [run_opened fuel world settings classifier g input extras states touch s staging u opened, heard, Option.map_some,
        settle_published world settings input staging listened _ result table ended closed]
      rcases published : (draftOf settings input listened.pipeline.recorder ⟨staging, table⟩).publish world.faults
        world.meanwhile ((touch listened.extras u).refill staging (.ofText table.text)) with ⟨answer, t⟩
      rw [published] at failed
      cases failed
      exact ⟨t, listened.extras, rfl⟩

theorem run_meets (failure : Failure) (t : Store) (last : σ)
    (failed : runWith fuel world settings classifier g input extras states touch s = some ((.error (.io failure), t), last)) :
    (∃ b, Meets fuel world settings classifier g input extras states touch s b ∧ failure = b.failure) ∨
      ∃ listened, listenWith fuel world g input (pipeline world settings classifier) extras states = some listened ∧
        listened.outcome = .error (.listener (.trace (.io failure))) := by
  cases opened : openStaging world.faults settings s with
  | error cause =>
      rw [runWith, create_staging_eq, opened] at failed
      cases failed
      exact .inl ⟨_, .create cause opened, rfl⟩
  | ok made =>
      obtain ⟨staging, u⟩ := made
      rw [run_opened fuel world settings classifier g input extras states touch s staging u opened] at failed
      obtain ⟨listened, heard, same⟩ := Option.map_eq_some_iff.mp failed
      have settled := congrArg Prod.fst (Prod.mk.inj same).1
      have closed := listened_closed fuel world settings classifier g input extras states listened heard
      rcases settle_io world settings input staging listened _ failure settled with
        ended | ⟨f, refused, symptom⟩ | ⟨result, table, ended, written, published⟩
      · exact .inr ⟨listened, heard, ended⟩
      · obtain ⟨step, cause, first, rfl⟩ := (Table.of_messages_failed _ _ _ _ f).mp (closed.symm.trans refused)
        rw [settle_written world settings input staging listened _ step cause refused symptom] at settled
        cases settled
        exact .inl ⟨_, .write staging u listened step cause opened heard symptom first, rfl⟩
      · obtain ⟨b, meets, rfl⟩ := ArchiveDraft.publish_meets world.faults world.meanwhile _ _
          (staging_apart world.faults settings s u staging opened) failure published
        exact .inl ⟨b, .publish staging u listened result table b opened heard ended (closed.symm.trans written) meets, rfl⟩

theorem run_same_but (staging : Location) (u t : Store) (touched : σ → Store → Store) (others : Store → Store)
    (outcome : Except TraceError Report) (last : σ) (opened : openStaging world.faults settings s = .ok (staging, u))
    (same : ∀ after, Store.SameBut staging (touch after u) (touched after u))
    (alike : ∀ v w, Store.SameBut staging v w → Store.SameBut staging (world.meanwhile v) (others w))
    (sound : ∀ failure, outcome ≠ .error (.io failure))
    (ran : runWith fuel world settings classifier g input extras states touch s = some ((outcome, t), last)) :
    runWith fuel { world with meanwhile := others } settings classifier g input extras states touched s =
      some ((outcome, t), last) := by
  rw [run_opened fuel world settings classifier g input extras states touch s staging u opened] at ran
  obtain ⟨listened, heard, ended⟩ := Option.map_eq_some_iff.mp ran
  obtain ⟨settled, rfl⟩ := Prod.mk.inj ended
  rw [run_opened fuel { world with meanwhile := others } settings classifier g input extras states touched s staging u
    opened]
  have again := settle_same_but world settings input staging listened _ others _ t (same listened.extras) alike
    (staging_apart world.faults settings s u staging opened) outcome sound settled
  refine Option.map_eq_some_iff.mpr ⟨listened, heard, ?_⟩
  rw [again]

end Run

end TracedRun

/-- A traced run that storage refuses something ends with an error that tells the step and the cause, and as suppressed
one error for each of the temporary files that it has at that step and cannot remove. Conversely, an error of storage
that a run ends with is of that kind, or it is a listener's own. A run that ends otherwise, with a result or because
something is at the place of the archive, ends in the same way and leaves the same store if its staging file vanishes
at any time. -/
theorem failed_removals_are_told {σ : Type} (fuel : Nat) (world : World) (settings : Settings) (classifier : Classifier)
    (g : Grammar) (input : Input) (extras : Listener ListenerError σ) (states : σ) (touch : σ → Store → Store)
    (s : Store) :
    let run (world : World) (touch : σ → Store → Store) :=
      TracedRun.runWith fuel world settings classifier g input extras states touch s
    let Meets := TracedRun.Meets fuel world settings classifier g input extras states touch s
    (∀ b, Meets b → b.left.Nodup ∧ ∃ t last, run world touch = some ((.error (.io b.failure), t), last)) ∧
    (∀ failure t last, run world touch = some ((.error (.io failure), t), last) →
      (∃ b, Meets b ∧ failure = b.failure) ∨
      ∃ listened, TracedRun.listenWith fuel world g input (TracedRun.pipeline world settings classifier) extras states =
        some listened ∧ listened.outcome = .error (.listener (.trace (.io failure)))) ∧
    ∀ staging u t touched others outcome last, TracedRun.openStaging world.faults settings s = .ok (staging, u) →
      (∀ after, Store.SameBut staging (touch after u) (touched after u)) →
      (∀ v w, Store.SameBut staging v w → Store.SameBut staging (world.meanwhile v) (others w)) →
      (∀ failure, outcome ≠ .error (.io failure)) → run world touch = some ((outcome, t), last) →
      run { world with meanwhile := others } touched = some ((outcome, t), last) := by
  intro run Meets
  refine ⟨?_, ?_, ?_⟩
  · exact TracedRun.meets_run fuel world settings classifier g input extras states touch s
  · exact TracedRun.run_meets fuel world settings classifier g input extras states touch s
  · exact TracedRun.run_same_but fuel world settings classifier g input extras states touch s

namespace Demo

def isDir : Node → Bool
  | .dir => true
  | .file _ => false

def strippedWorld : World :=
  { linesWorld with
    faults := fun step _ => if step = .copyTable then some (.other "Input/output error") else none
    meanwhile := fun s => { s with nodes := s.nodes.filter fun e => isDir e.2 } }

def lostFiles : Failure := ⟨.copyTable, .other "Input/output error", [.notFound, .notFound]⟩

def error? {ε α : Type} : Except ε α → Option ε
  | .error e => some e
  | .ok _ => none

def linesRun (world : World) (touch : Unit → Store → Store) : Option ((Except TraceError Report × Store) × Unit) :=
  TracedRun.runWith 7 world linesSettings .builtIn lines (.ofString "a\nb") .deaf () touch notesStore

end Demo

theorem lost_files_are_told :
    (∃ t b, Demo.linesRun Demo.strippedWorld (fun _ s => s) = some ((.error (.io Demo.lostFiles), t), ()) ∧
      TracedRun.Meets 7 Demo.strippedWorld Demo.linesSettings .builtIn Demo.lines (.ofString "a\nb") .deaf ()
        (fun _ s => s) Demo.notesStore b ∧ b.failure = Demo.lostFiles) ∧
    ∃ staging u t, TracedRun.openStaging .none Demo.linesSettings Demo.notesStore = .ok (staging, u) ∧
      Demo.linesRun Demo.linesWorld (fun _ s => (s.remove staging).2) = some ((.ok Demo.linesReport, t), ()) := by
  constructor
  · have told := failed_removals_are_told 7 Demo.strippedWorld Demo.linesSettings .builtIn Demo.lines (.ofString "a\nb")
      .deaf () (fun _ s => s) Demo.notesStore
    have parsed : (TracedRun.listenWith 7 Demo.strippedWorld Demo.lines (.ofString "a\nb")
        (TracedRun.pipeline Demo.strippedWorld Demo.linesSettings .builtIn) .deaf ()).map
          (fun listened => listened.outcome.isOk) = some true := by decide +kernel
    rcases ran : Demo.linesRun Demo.strippedWorld (fun _ s => s) with _ | ⟨⟨outcome, t⟩, last⟩
    · exact absurd (congrArg Option.isSome ran) (by decide +kernel)
    have failed : (Demo.linesRun Demo.strippedWorld fun _ s => s).map (fun r => Demo.error? r.1.1) =
        some (some (.io Demo.lostFiles)) := by decide +kernel
    rw [ran] at failed
    cases outcome with
    | ok report => cases failed
    | error e =>
        cases failed
        refine ⟨t, ?_⟩
        cases told.2.1 Demo.lostFiles t last ran with
        | inl meets =>
            obtain ⟨b, meets, same⟩ := meets
            exact ⟨b, rfl, meets, same.symm⟩
        | inr objected =>
            obtain ⟨listened, heard, ended⟩ := objected
            rw [heard, Option.map_some, ended] at parsed
            cases parsed
  · have made : (TracedRun.openStaging .none Demo.linesSettings Demo.notesStore).isOk = true := by decide +kernel
    rcases opened : TracedRun.openStaging .none Demo.linesSettings Demo.notesStore with cause | ⟨staging, u⟩
    · rw [opened] at made
      cases made
    rcases ran : Demo.linesRun Demo.linesWorld (fun _ s => s) with _ | ⟨⟨outcome, t⟩, last⟩
    · exact absurd (congrArg Option.isSome ran) (by decide +kernel)
    have ended : (Demo.linesRun Demo.linesWorld fun _ s => s).map (·.1.1.toOption) = some (some Demo.linesReport) := by
      decide +kernel
    rw [ran] at ended
    cases outcome with
    | error e => cases ended
    | ok report =>
        cases ended
        refine ⟨staging, u, t, rfl, ?_⟩
        exact (failed_removals_are_told 7 Demo.linesWorld Demo.linesSettings .builtIn Demo.lines (.ofString "a\nb") .deaf
          () (fun _ s => s) Demo.notesStore).2.2 staging u t (fun _ s => (s.remove staging).2) id _ last opened
          (fun _ => Store.same_but_vanished staging u) (fun _ _ same => same) (fun _ same => by cases same) ran

end MatchTrace
