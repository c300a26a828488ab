import MatchTrace.Proofs.Archive.Drain
import MatchTrace.Proofs.Staging.Hearing

/-!
What is reported of a traced run whose parse failed. It is what ended the parse, whatever became of the writer
meanwhile; only that the queue is closed is a symptom, and the writer's own failure is reported in its place.
-/

namespace MatchTrace

set_option autoImplicit false

variable {σ : Type}

namespace StagedTable

theorem abort_failed (s : Store) (staging : Location) (f : Failure) :
    ∃ g, (abort s staging (.error (.failed f))).1 = some (.io g) ∧ g.step = f.step ∧ g.cause = f.cause := by
  obtain ⟨g, t, failed, step, cause⟩ := finish_io s staging f
  exact ⟨g, by rw [abort_io s t staging f g failed], step, cause⟩

end StagedTable

namespace TracedRun

-- What is reported of what ended a parse, where the writer came to `ended`.
def Reports (ended : Except Stop Table) : RunError ListenerError → TraceError → Prop
  | .rule e, report => report = .rule e
  | .listener (.other cause), report => report = .listener cause
  | .listener (.trace .writerClosed), report =>
      match ended with
      | .error (.failed f) => ∃ g, report = .io g ∧ g.step = f.step ∧ g.cause = f.cause
      | .error .abandoned | .ok _ => report = .writerClosed
  | .listener (.trace e), report => report = e

theorem reported_kept (cause : TraceError) (own : Option TraceError) (apart : cause ≠ .writerClosed) :
    reported cause own = cause := by
  cases own with
  | none => rfl
  | some e => exact if_neg apart

theorem reported_reports (s : Store) (staging : Location) (ended : Except Stop Table) (cause : RunError ListenerError) :
    Reports ended cause (reported (.ofRun cause) (StagedTable.abort s staging ended).1) := by
  rcases cause with e | (e | cause)
  · exact reported_kept _ _ nofun
  · cases e with
    | writerClosed =>
        rcases ended with (_ | f) | table
        · rfl
        · obtain ⟨g, failed, step, cause⟩ := StagedTable.abort_failed s staging f
          exact ⟨g, by rw [failed]; rfl, step, cause⟩
        · rfl
    | _ => exact reported_kept _ _ nofun
  · exact reported_kept _ _ nofun

theorem reports_closed (ended : Except Stop Table) (cause : RunError ListenerError)
    (reports : Reports ended cause .writerClosed) :
    cause = .listener (.trace .writerClosed) ∧ ∀ f, ended ≠ .error (.failed f) := by
  rcases cause with e | (e | cause)
  · cases reports
  · cases e with
    | writerClosed =>
        refine ⟨rfl, ?_⟩
        rintro f rfl
        obtain ⟨_, same, -⟩ := reports
        cases same
    | _ => cases reports
  · cases reports

end TracedRun

namespace Hearing

def listened (a : Hearing σ) (cause : RunError ListenerError) : TracedRun.Listened σ :=
  ⟨a.drain.pipeline, a.extras, .error cause⟩

def Stops (a : Hearing σ) (cause : RunError ListenerError) : Prop :=
  a.failure? = cause.failure? ∧ (a.failure? = none → a.drain.hooks = [])

structure Blames (faults : Faults) (a : Hearing σ) (cause : RunError ListenerError) (report : TraceError) : Prop where
  reports : TracedRun.Reports (a.drain.pipeline.close faults) cause report
  closed : report = .writerClosed → a.drain.refused = none ∧ a.objected = some (.trace .writerClosed) ∧
    ∀ f, a.drain.pipeline.close faults ≠ .error (.failed f)

section Ends

variable (world : World) (settings : Settings) (classifier : Classifier) (extras : Listener ListenerError σ) (states : σ)

def Ends (a : Hearing σ) (cause : RunError ListenerError) : Prop :=
  ∃ hooks, InOrder hooks ∧ a.Stops cause ∧
    Comes world.clock world.faults extras ⟨⟨TracedRun.pipeline world settings classifier, hooks, none⟩, states, none⟩ a

theorem ends_blames (a : Hearing σ) (cause : RunError ListenerError) (report : TraceError)
    (ends : a.Ends world settings classifier extras states cause)
    (reports : TracedRun.Reports (a.drain.pipeline.close world.faults) cause report) :
    a.Blames world.faults cause report := by
  obtain ⟨hooks, order, ⟨stopped, -⟩, comes⟩ := ends
  refine ⟨reports, ?_⟩
  rintro rfl
  obtain ⟨rfl, sound⟩ := TracedRun.reports_closed _ cause reports
  cases refused : a.drain.refused with
  | none =>
      rw [failure?, refused] at stopped
      exact ⟨rfl, stopped, sound⟩
  | some e =>
      rw [failure?, refused] at stopped
      cases stopped
      obtain ⟨f, failed⟩ := closed_queue_failed world.clock world.faults extras
        (TracedRun.pipeline world settings classifier).recorder _ hooks states a rfl rfl order
        (start_unfinished _ _ _) comes refused
      exact absurd failed (sound f)

theorem settle_blames (input : Input) (staging : Location) (a : Hearing σ) (cause : RunError ListenerError)
    (ends : a.Ends world settings classifier extras states cause) (s : Store) :
    ∃ report t, TracedRun.settle world settings input staging (a.listened cause) s = (.error report, t) ∧
      a.Blames world.faults cause report :=
  ⟨_, _, rfl, ends_blames world settings classifier extras states a cause _ ends
    (TracedRun.reported_reports s staging (a.drain.pipeline.close world.faults) cause)⟩

theorem listened_ends (fuel : Nat) (g : Grammar) (input : Input) (listened : TracedRun.Listened σ)
    (heard : TracedRun.listenWith fuel world g input (TracedRun.pipeline world settings classifier) extras states =
      some listened)
    (cause : RunError ListenerError) (failed : listened.outcome = .error cause) :
    ∃ a : Hearing σ, a.Ends world settings classifier extras states cause ∧ a.listened cause = listened := by
  obtain ⟨⟨⟨p, last⟩, outcome⟩, ran, rfl⟩ := Option.map_eq_some_iff.mp heard
  dsimp only at failed
  subst failed
  obtain ⟨hooks, order, told⟩ := heard_told _ (fun h => ¬ h.IsLast) (fun _ _ => id) (fun _ => id)
    (by rintro ⟨_ | _, _⟩ _ <;> exact id) fuel g input _ _ _ ran
  obtain ⟨a, comes, rfl, rfl, failure, whole⟩ := announce_comes world extras hooks _ p states last _ told
  exact ⟨a, ⟨hooks, order, ⟨failure, whole⟩, comes⟩, rfl⟩

end Ends

end Hearing

/-- A traced run whose parse fails reports what ended it, however the steps of the parse and the writer fell: a
trace error that a listener raised as itself, any other error of a listener as such, an error of a rule as such.
Only where the queue was found closed is the writer's own failure reported, if it has one. The caller is told
that the queue was closed only if one of the other listeners said so and the writer has not failed. -/
theorem first_cause_is_reported (fuel : Nat) (world : World) (settings : Settings) (classifier : Classifier)
    (g : Grammar) (input : Input) (extras : Listener ListenerError σ) (states : σ) (touch : σ → Store → Store)
    (s u : Store) (staging : Location)
    (created : TracedRun.createStaging world.faults settings s = .ok (staging, u)) (listened : TracedRun.Listened σ)
    (heard : TracedRun.listenWith fuel world g input (TracedRun.pipeline world settings classifier) extras states =
      some listened)
    (cause : RunError ListenerError) (failed : listened.outcome = .error cause) :
    (∀ (a : Hearing σ) (reason : RunError ListenerError), a.Ends world settings classifier extras states reason → ∀ v,
      ∃ report t, TracedRun.settle world settings input staging (a.listened reason) v = (.error report, t) ∧
        a.Blames world.faults reason report) ∧
    ∃ (a : Hearing σ) (report : TraceError) (t : Store), a.Ends world settings classifier extras states cause ∧
      a.listened cause = listened ∧ a.Blames world.faults cause report ∧
      TracedRun.runWith fuel world settings classifier g input extras states touch s =
        some ((.error report, t), listened.extras) := by
  have settled := Hearing.settle_blames world settings classifier extras states input staging
  refine ⟨settled, ?_⟩
  obtain ⟨a, ends, same⟩ := Hearing.listened_ends world settings classifier extras states fuel g input listened heard
    cause failed
  obtain ⟨report, t, reported, blames⟩ := settled a cause ends (touch listened.extras u)
  refine ⟨a, report, t, ends, same, blames, ?_⟩
  rw [same] at reported
  rw [TracedRun.runWith, created]
  simp only [heard, Option.map_some, reported]

namespace Demo

def weary : Listener ListenerError Nat := fun heard _ =>
  (heard + 1, if heard = 2 then some (.trace .writerClosed) else none)

def fullWorld : World :=
  { linesWorld with faults := fun step _ => if step = .writeEvent then some (.other "No space left on device") else none }

end Demo

-- The writer had taken nothing when the parse was ended, and then found the disk full.
theorem weary_listener_finds_disk_full :
    ∃ g t, TracedRun.runWith 7 Demo.fullWorld Demo.linesSettings .builtIn Demo.lines (.ofString "a\nb") Demo.weary 0
        (fun _ s => s) Demo.notesStore = some ((.error (.io g), t), 3) ∧
      g.step = .writeEvent ∧ g.cause = .other "No space left on device" := by
  have made : (TracedRun.createStaging Demo.fullWorld.faults Demo.linesSettings Demo.notesStore).isOk = true := by
    decide +kernel
  rcases created : TracedRun.createStaging Demo.fullWorld.faults Demo.linesSettings Demo.notesStore with f | ⟨staging, u⟩
  · rw [created] at made
    cases made
  rcases heard : TracedRun.listenWith 7 Demo.fullWorld Demo.lines (.ofString "a\nb")
    (TracedRun.pipeline Demo.fullWorld Demo.linesSettings .builtIn) Demo.weary 0 with _ | listened
  · exact absurd (congrArg Option.isSome heard) (by decide +kernel)
  have evaluated : (TracedRun.listenWith 7 Demo.fullWorld Demo.lines (.ofString "a\nb")
      (TracedRun.pipeline Demo.fullWorld Demo.linesSettings .builtIn) Demo.weary 0).map (fun listened =>
        (listened.outcome, listened.extras, listened.pipeline.close Demo.fullWorld.faults)) =
      some (.error (.listener (.trace .writerClosed)), 3,
        .error (.failed ⟨.writeEvent, .other "No space left on device", []⟩)) := by decide +kernel
  rw [heard, Option.map_some, Option.some.injEq, Prod.mk.injEq, Prod.mk.injEq] at evaluated
  obtain ⟨failed, heardOf, ended⟩ := evaluated
  obtain ⟨-, a, report, t, -, rfl, blames, ran⟩ := first_cause_is_reported 7 Demo.fullWorld Demo.linesSettings .builtIn
    Demo.lines (.ofString "a\nb") Demo.weary 0 (fun _ s => s) Demo.notesStore u staging created listened heard
    (.listener (.trace .writerClosed)) failed
  have reports := blames.reports
  rw [show a.drain.pipeline.close Demo.fullWorld.faults = _ from ended] at reports
  obtain ⟨g, rfl, step, cause⟩ := reports
  exact ⟨g, t, by rw [ran, heardOf], step, cause⟩

end MatchTrace
