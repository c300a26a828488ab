import MatchTrace.Proofs.Archive.TracedRun
import MatchTrace.Proofs.Match.Adequacy
import MatchTrace.Proofs.Staging.Schedule

/-!
What a traced run has when the parse and the writer have both come to an end. It does not depend on how their
steps fell: if nobody but the writer can stop the parse, the outcome is what the writer makes of the whole run.
-/

namespace MatchTrace

set_option autoImplicit false

variable {σ : Type}

-- What comes of the staged table once the parse has ended, or was ended by `cause`: the writer gets to its end.
def Pipeline.drain (faults : Faults) (staging : Location) (p : Pipeline) (cause : Option TraceError) (s : Store) :
    Except TraceError StagedTable × Store :=
  match cause with
  | none => StagedTable.finish s staging (p.close faults)
  | some e =>
    let (own, s) := StagedTable.abort s staging (p.close faults)
    (.error (TracedRun.reported e own), s)

namespace TracedRun

def Listened.cause (listened : Listened σ) : Option TraceError :=
  match listened.outcome with
  | .ok _ => none
  | .error e => some (.ofRun e)

theorem settle_drained (world : World) (settings : Settings) (input : Input) (staging : Location)
    (listened : Listened σ) (s : Store) :
    let settled := settle world settings input staging listened s
    match listened.pipeline.drain world.faults staging listened.cause s with
    | (.error e, t) => settled = (.error e, t)
    | (.ok staged, t) => ∃ result, listened.outcome = .ok result ∧
        let draft := draftOf settings input listened.pipeline.recorder staged
        settled = match draft.publish world.faults world.meanwhile t with
          | (.ok path, u) => (.ok ⟨result, draft.totals, path⟩, u)
          | (.error e, u) => (.error e, u) := by
  rcases listened with ⟨p, last, _ | result⟩
  · simp only [Listened.cause, Pipeline.drain, settle]
  · simp only [Listened.cause, Pipeline.drain, settle]
    rcases StagedTable.finish s staging (p.close world.faults) with ⟨_ | staged, t⟩
    · rfl
    · exact ⟨result, rfl, rfl⟩

end TracedRun

namespace StagedTable

theorem finish_reported (s : Store) (staging : Location) (r : Except Stop Table) (ended : r ≠ .error .abandoned) :
    (finish s staging r).1 ≠ .error .writerClosed := by
  intro closed
  rcases r with (_ | f) | t
  · exact ended rfl
  · cases closed
  · cases closed

theorem finish_io (s : Store) (staging : Location) (f : Failure) :
    ∃ g t, finish s staging (.error (.failed f)) = (.error (.io g), t) ∧ g.step = f.step ∧ g.cause = f.cause := by
  rw [finish, discard]
  rcases s.remove staging with ⟨_ | _, t⟩
  · exact ⟨_, t, rfl, rfl, rfl⟩
  · exact ⟨_, t, rfl, rfl, rfl⟩

theorem abort_io (s t : Store) (staging : Location) (f g : Failure)
    (failed : finish s staging (.error (.failed f)) = (.error (.io g), t)) :
    abort s staging (.error (.failed f)) = (some (.io g), t) := by
  rw [abort, failed]

end StagedTable

theorem ended_stops (faults : Faults) (p : Progress) (messages : List Message) :
    (p.takeAll faults (messages ++ [.finish])).close ≠ .error .abandoned := by
  rw [Progress.takeAll, List.foldl_append, List.foldl_cons, List.foldl_nil]
  cases messages.foldl (Progress.take faults) p with
  | finished t => intro same; cases same
  | failed f => intro same; cases same
  | running w =>
      rw [Progress.take]
      cases w.finish faults with
      | ok t => intro same; cases same
      | error f => intro same; cases same

namespace Drain

def outcome (faults : Faults) (staging : Location) (d : Drain) (s : Store) : Except TraceError StagedTable × Store :=
  d.pipeline.drain faults staging d.refused s

section Outcome

variable (clock : Nat → Clock) (faults : Faults) (start : Progress) (alone : Recorder × Option TraceError)
  (unfinished : ∀ t, start ≠ .finished t) (d : Drain) (sound : d.Sound clock faults start alone) (rests : d.Rests)
  (staging : Location) (s : Store)

include unfinished sound rests

theorem outcome_whole (told : alone.2 = none) :
    d.outcome faults staging s = StagedTable.finish s staging (start.takeAll faults alone.1.sent).close := by
  rcases rests_cases clock faults start alone d sound unfinished rests with
    ⟨refused, -, closed⟩ | ⟨e, -, same⟩ | ⟨f, refused, closed, whole⟩
  · rw [outcome, refused, Pipeline.drain, closed]
  · rw [told] at same
    cases same
  · obtain ⟨g, t, failed, -, -⟩ := StagedTable.finish_io s staging f
    rw [outcome, refused, Pipeline.drain, closed, whole, failed, StagedTable.abort_io s t staging f g failed]
    rfl

theorem outcome_refused (e : TraceError) (told : alone.2 = some e) (own : e ≠ .writerClosed) :
    (d.outcome faults staging s).1 = .error e ∨
      ∃ f, (start.takeAll faults alone.1.sent).close = .error (.failed f) ∧
        d.outcome faults staging s = StagedTable.finish s staging (.error (.failed f)) := by
  rcases rests_cases clock faults start alone d sound unfinished rests with
    ⟨-, none, -⟩ | ⟨e', refused, same⟩ | ⟨f, refused, closed, whole⟩
  · rw [told] at none
    cases none
  · rw [told] at same
    cases same
    left
    rw [outcome, refused, Pipeline.drain]
    rcases StagedTable.abort s staging (d.pipeline.close faults) with ⟨_ | g, t⟩
    · rfl
    · exact congrArg Except.error (if_neg own)
  · obtain ⟨g, t, failed, -, -⟩ := StagedTable.finish_io s staging f
    refine .inr ⟨f, whole, ?_⟩
    rw [outcome, refused, Pipeline.drain, closed, failed, StagedTable.abort_io s t staging f g failed]
    rfl

end Outcome

end Drain

theorem publish_reported (d : ArchiveDraft) (faults : Faults) (meanwhile : Store → Store) (s : Store) :
    (d.publish faults meanwhile s).1 ≠ .error .writerClosed := by
  rw [ArchiveDraft.publish]
  cases d.createTemp faults s with
  | error cause => intro same; cases same
  | ok made =>
      cases d.assemble faults with
      | error failure => intro same; cases same
      | ok container =>
          dsimp only
          split
          · intro same; cases same
          · intro same; cases same
          · intro same; cases same

namespace TracedRun

def Reaches (world : World) (settings : Settings) (classifier : Classifier) (run : Run) (d : Drain) : Prop :=
  Drain.Comes world.clock world.faults ⟨pipeline world settings classifier, run.hooks, none⟩ d

section Schedule

variable (fuel : Nat) (world : World) (settings : Settings) (classifier : Classifier) (g : Grammar) (input : Input)
  (run : Run) (noted : g.runWith fuel input = some run)

include noted

theorem alone_cataloguing (e : TraceError) (told : (alone world settings classifier run).2 = some e) :
    e.IsCataloguing := by
  rcases recorded : alone world settings classifier run with ⟨x, answer⟩
  rw [recorded] at told
  cases told
  have heard := heard_of_noted fuel g input run noted (Recorder.listen world.clock)
    (pipeline world settings classifier).recorder
  rw [relay, show announce _ _ run.hooks = (x, some e) from recorded] at heard
  exact Recorder.heard_errors fuel g input world.clock _ x e rfl rfl heard

variable (result : ParseResult) (ended : run.outcome = .ok result)

include ended

theorem reaches_sound (d : Drain) (reaches : Reaches world settings classifier run d) :
    d.Sound world.clock world.faults (Progress.start world.faults settings.layout settings.maxStagingBytes)
      (alone world settings classifier run) := by
  obtain ⟨v, inner, -, balanced, hooks⟩ := root_hooks fuel g input run result noted ended
  refine Drain.comes_sound world.clock world.faults _ _ _ d ?_ reaches
  refine Drain.start_sound world.clock world.faults _ (pipeline world settings classifier).recorder run.hooks rfl ?_
  rw [hooks, ← List.cons_append, InOrder, List.dropLast_concat]
  intro h mem
  rcases List.mem_cons.mp mem with rfl | mem
  · exact id
  · refine balanced_each (fun h => ¬ h.IsLast) (fun _ => id) ?_ 0 _ (balanced_call ⟨g.root, 0, 0⟩ v inner balanced) h mem
    rintro ⟨_ | _, index⟩ c
    · exact id
    · exact id

theorem alone_events (told : (alone world settings classifier run).2 = none) :
    ∃ (hooks : List Hook) (events : List Event),
      run.hooks = .beforeParse ⟨g.root, 0, 0⟩ input :: (hooks ++ [.afterParse result]) ∧
      List.Forall₂ (Hook.Tells input.length) hooks events ∧
      (alone world settings classifier run).1.sent = events.map .event ++ [.finish] := by
  rcases recorded : alone world settings classifier run with ⟨x, answer⟩
  rw [recorded] at told
  cases told
  obtain ⟨hooks, front, last, count, same, sent, tells, -⟩ :=
    Recorder.parse_events fuel g input world.clock _ x run result rfl noted ended recorded
  rw [noted] at same
  exact ⟨hooks, _, congrArg Run.hooks (Option.some.inj same), tells, sent⟩

theorem drain_whole (events : List Event) (told : (alone world settings classifier run).2 = none)
    (sent : (alone world settings classifier run).1.sent = events.map .event ++ [.finish]) (d : Drain)
    (reaches : Reaches world settings classifier run d) (rests : d.Rests) (staging : Location) (s : Store) :
    d.outcome world.faults staging s = StagedTable.finish s staging
      (Table.ofMessages world.faults settings.layout settings.maxStagingBytes (events.map .event ++ [.finish])) := by
  have sound := reaches_sound fuel world settings classifier g input run noted result ended d reaches
  rw [Drain.outcome_whole world.clock world.faults _ _ (start_unfinished _ _ _) d sound rests staging s told, sent]
  rfl

-- A recorder that refuses a class, or one class too many, is what the run ends for, unless the writer fails on what was
-- sent until then: whether that is found out first is up to the schedule.
theorem drain_refused (e : TraceError) (told : (alone world settings classifier run).2 = some e) (d : Drain)
    (reaches : Reaches world settings classifier run d) (rests : d.Rests) (staging : Location) (s : Store) :
    (d.outcome world.faults staging s).1 = .error e ∨
      ∃ f, Table.ofMessages world.faults settings.layout settings.maxStagingBytes
          (alone world settings classifier run).1.sent = .error (.failed f) ∧
        d.outcome world.faults staging s = StagedTable.finish s staging (.error (.failed f)) := by
  have sound := reaches_sound fuel world settings classifier g input run noted result ended d reaches
  have own := cataloguing_own e (alone_cataloguing fuel world settings classifier g input run noted e told)
  exact Drain.outcome_refused world.clock world.faults _ _ (start_unfinished _ _ _) d sound rests staging s e told own

theorem drain_reported (d : Drain) (reaches : Reaches world settings classifier run d) (rests : d.Rests)
    (staging : Location) (s : Store) : (d.outcome world.faults staging s).1 ≠ .error .writerClosed := by
  cases told : (alone world settings classifier run).2 with
  | none =>
      obtain ⟨-, events, -, -, sent⟩ := alone_events fuel world settings classifier g input run noted result ended told
      rw [drain_whole fuel world settings classifier g input run noted result ended events told sent d reaches rests]
      exact StagedTable.finish_reported s staging _ (ended_stops world.faults _ _)
  | some e =>
      have own := cataloguing_own e (alone_cataloguing fuel world settings classifier g input run noted e told)
      rcases drain_refused fuel world settings classifier g input run noted result ended e told d reaches rests staging s
        with same | ⟨f, -, same⟩
      · rw [same]
        exact fun closed => own (Except.error.inj closed)
      · rw [same]
        exact StagedTable.finish_reported s staging _ (fun abandoned => by cases abandoned)

variable (extras : Listener ListenerError σ) (states last : σ) (willing : announce extras states run.hooks = (last, none))

include willing

theorem listened_reaches :
    ∃ listened d, listenWith fuel world g input (pipeline world settings classifier) extras states = some listened ∧
      Reaches world settings classifier run d ∧ d.Rests ∧ listened.pipeline = d.pipeline ∧
      listened.cause = d.refused := by
  let told := announce (Pipeline.listen world.clock world.faults world.pace) (pipeline world settings classifier) run.hooks
  obtain ⟨d, comes, rests, same, refused⟩ := Drain.announce_comes world.clock world.faults world.pace run.hooks
    (pipeline world settings classifier) told.1 told.2 rfl
  obtain ⟨first, answer⟩ := announce_beside
    (fun p h => ((Pipeline.listen world.clock world.faults world.pace p h).1,
      (Pipeline.listen world.clock world.faults world.pace p h).2.map ListenerError.trace))
    extras (pipeline world settings classifier, states) last run.hooks willing
  rw [announce_map] at first answer
  rcases ran : announce (listener world extras) (pipeline world settings classifier, states) run.hooks with
    ⟨⟨p, states'⟩, e⟩
  change (announce (listener world extras) (pipeline world settings classifier, states) run.hooks).1.1 = told.1 at first
  change (announce (listener world extras) (pipeline world settings classifier, states) run.hooks).2 =
    told.2.map ListenerError.trace at answer
  rw [ran] at first answer
  have heard := heard_of_noted fuel g input run noted (listener world extras) (pipeline world settings classifier, states)
  rw [relay, ran] at heard
  cases refusal : told.2 with
  | none =>
      rw [refusal] at answer refused
      cases answer
      refine ⟨_, d, congrArg (Option.map _) heard, comes, rests, first.trans same.symm, ?_⟩
      simp only [Listened.cause, ended]
      exact refused.symm
  | some e' =>
      rw [refusal] at answer refused
      cases answer
      exact ⟨_, d, congrArg (Option.map _) heard, comes, rests, first.trans same.symm, refused.symm⟩

theorem run_reported (touch : σ → Store → Store) (s t : Store) (states' : σ) :
    runWith fuel world settings classifier g input extras states touch s ≠ some ((.error .writerClosed, t), states') := by
  intro ran
  rw [runWith] at ran
  cases created : createStaging world.faults settings s with
  | error failure =>
      rw [created] at ran
      cases ran
  | ok made =>
      obtain ⟨staging, u⟩ := made
      obtain ⟨listened, d, heard, reaches, rests, pipeline, cause⟩ :=
        listened_reaches fuel world settings classifier g input run noted result ended extras states last willing
      rw [created] at ran
      simp only [heard, Option.map_some, Option.some.injEq, Prod.mk.injEq] at ran
      have drained := settle_drained world settings input staging listened (touch listened.extras u)
      have reported := drain_reported fuel world settings classifier g input run noted result ended d reaches rests
        staging (touch listened.extras u)
      rw [Drain.outcome, ← pipeline, ← cause] at reported
      rcases outcome : listened.pipeline.drain world.faults staging listened.cause (touch listened.extras u) with
        ⟨e | staged, v⟩
      · rw [outcome] at drained reported
        rw [drained] at ran
        cases ran.1
        exact reported rfl
      · rw [outcome] at drained
        obtain ⟨result', -, settled⟩ := drained
        have open' := publish_reported (draftOf settings input listened.pipeline.recorder staged) world.faults
          world.meanwhile v
        rw [settled] at ran
        rcases published : (draftOf settings input listened.pipeline.recorder staged).publish world.faults
          world.meanwhile v with ⟨e | path, w⟩
        · rw [published] at ran open'
          cases ran.1
          exact open' rfl
        · rw [published] at ran
          cases ran.1

end Schedule

end TracedRun

/-- A parse that neither a rule nor a listener stops sends every event, one for each hook of an invocation, and then the
end mark. However its steps and those of the writer fall, it drains alike: the outcome is what the writer makes of all
that was sent, the table of all the events in order if it is not longer than the bound, and otherwise the writer's own
failure. A writer that was found gone is never what is reported.

A parse that its own recorder stops, as it refuses a class, sends no end mark, and ends with the refusal or with a
failure of the writer (`TracedRun.drain_refused`). -/
theorem every_schedule_drains_alike (fuel : Nat) (world : World) (settings : Settings) (classifier : Classifier)
    (g : Grammar) (input : Input) (run : Run) (noted : g.runWith fuel input = some run) (result : ParseResult)
    (ended : run.outcome = .ok result) (extras : Listener ListenerError σ) (states last : σ)
    (willing : announce extras states run.hooks = (last, none)) (staging : Location) (s : Store) :
    let Ends (d : Drain) := TracedRun.Reaches world settings classifier run d ∧ d.Rests
    (∀ d, TracedRun.Reaches world settings classifier run d →
      ∃ d', Drain.Comes world.clock world.faults d d' ∧ d'.Rests) ∧
    (∃ listened d, TracedRun.listenWith fuel world g input (TracedRun.pipeline world settings classifier) extras states =
        some listened ∧ Ends d ∧
      listened.pipeline.drain world.faults staging listened.cause s = d.outcome world.faults staging s) ∧
    (∀ d, Ends d → (d.outcome world.faults staging s).1 ≠ .error .writerClosed) ∧
    (∀ touch s t states', TracedRun.runWith fuel world settings classifier g input extras states touch s ≠
      some ((.error .writerClosed, t), states')) ∧
    match TracedRun.alone world settings classifier run with
    | (_, some e) => e.IsCataloguing ∧ ∀ d, Ends d →
        (d.outcome world.faults staging s).1 = .error e ∨ ∃ f, (d.outcome world.faults staging s).1 = .error (.io f)
    | (recorder, none) => ∃ (hooks : List Hook) (events : List Event),
        run.hooks = .beforeParse ⟨g.root, 0, 0⟩ input :: (hooks ++ [.afterParse result]) ∧
        List.Forall₂ (Hook.Tells input.length) hooks events ∧ recorder.sent = events.map .event ++ [.finish] ∧
        (∀ d, Ends d → d.outcome world.faults staging s = StagedTable.finish s staging
          (Table.ofMessages world.faults settings.layout settings.maxStagingBytes (events.map .event ++ [.finish]))) ∧
        (world.faults = .none →
          let text := settings.layout.tableText events
          ((∀ bound ∈ settings.maxStagingBytes, text.utf8ByteSize ≤ bound) → ∀ d, Ends d →
            (d.outcome world.faults staging s).1 =
              .ok ⟨staging, ⟨settings.layout, text, events.length, events.countP (·.phase = .enter)⟩⟩) ∧
          ∀ bound ∈ settings.maxStagingBytes, bound < text.utf8ByteSize → ∃ f, f.cause = .overLimit ∧
            (f.step = .writeEvent ∨ f.step = .finishTable) ∧
            ∀ d, Ends d → (d.outcome world.faults staging s).1 = .error (.io f)) := by
  intro Ends
  have listened : ∃ listened d, TracedRun.listenWith fuel world g input
      (TracedRun.pipeline world settings classifier) extras states = some listened ∧ Ends d ∧
      listened.pipeline.drain world.faults staging listened.cause s = d.outcome world.faults staging s := by
    obtain ⟨listened, d, heard, reaches, rests, pipeline, cause⟩ := TracedRun.listened_reaches fuel world settings
      classifier g input run noted result ended extras states last willing
    exact ⟨listened, d, heard, ⟨reaches, rests⟩, by rw [Drain.outcome, pipeline, cause]⟩
  refine ⟨fun d _ => Drain.comes_rests world.clock world.faults d.hooks d.pipeline d.refused, listened, ?_, ?_, ?_⟩
  · intro d ends
    exact TracedRun.drain_reported fuel world settings classifier g input run noted result ended d ends.1 ends.2 staging s
  · exact TracedRun.run_reported fuel world settings classifier g input run noted result ended extras states last willing
  have events := TracedRun.alone_events fuel world settings classifier g input run noted result ended
  have cataloguing := TracedRun.alone_cataloguing fuel world settings classifier g input run noted
  have whole := TracedRun.drain_whole fuel world settings classifier g input run noted result ended
  rcases recorded : TracedRun.alone world settings classifier run with ⟨recorder, _ | e⟩
  · rw [recorded] at events whole
    obtain ⟨hooks, events, same, tells, sent⟩ := events rfl
    have drained (d : Drain) (ends : Ends d) := whole events rfl sent d ends.1 ends.2 staging s
    refine ⟨hooks, events, same, tells, sent, drained, ?_⟩
    intro faultless text
    rw [faultless] at drained ⊢
    have limited := table_limit settings.layout settings.maxStagingBytes events []
    cases written : Table.ofMessages .none settings.layout settings.maxStagingBytes (events.map .event ++ [.finish]) with
    | ok t =>
        rw [written] at limited drained
        obtain ⟨rfl, fits⟩ := limited
        refine ⟨fun _ d ends => congrArg Prod.fst (drained d ends), fun bound bounded less => ?_⟩
        exact absurd (fits bound bounded) (Nat.not_le_of_lt less)
    | error stop =>
        rw [written] at limited drained
        obtain ⟨f, rfl, stopped, bound, bounded, less⟩ := limited
        obtain ⟨f', t, failed, step, cause⟩ := StagedTable.finish_io s staging f
        rw [failed] at drained
        refine ⟨fun fits => absurd (fits bound bounded) (Nat.not_le_of_lt less), fun _ _ _ => ?_⟩
        exact ⟨f', cause.trans stopped.cause, step ▸ stopped.step, fun d ends => congrArg Prod.fst (drained d ends)⟩
  · have told := congrArg Prod.snd recorded
    refine ⟨cataloguing e told, fun d ends => ?_⟩
    rcases TracedRun.drain_refused fuel world settings classifier g input run noted result ended e told d ends.1 ends.2
      staging s with same | ⟨f, -, same⟩
    · exact .inl same
    · obtain ⟨f', t, failed, -, -⟩ := StagedTable.finish_io s staging f
      exact .inr ⟨f', congrArg Prod.fst (same.trans failed)⟩

namespace Demo

def crowdedSettings : Settings := { linesSettings with maxStagingBytes := some 64 }

def eventsOf (messages : List Message) : List Event :=
  messages.filterMap fun
    | .event e => some e
    | .finish => none

end Demo

theorem crowded_lines_drain_alike :
    ∃ run f, Demo.lines.runWith 7 (.ofString "a\nb") = some run ∧ run.outcome = .ok ⟨true, 4, 3⟩ ∧
      announce (Listener.deaf (ε := ListenerError)) () run.hooks = ((), none) ∧ f.cause = .overLimit ∧
      ∀ d, TracedRun.Reaches Demo.linesWorld Demo.crowdedSettings .builtIn run d → d.Rests →
        (d.outcome .none ["out", "staged"] Demo.outStore).1 = .error (.io f) := by
  rcases noted : Demo.lines.runWith 7 (.ofString "a\nb") with _ | run
  · exact absurd (congrArg Option.isSome noted) (by decide +kernel)
  have evaluated : (Demo.lines.runWith 7 (.ofString "a\nb")).map (fun run =>
      let alone := TracedRun.alone Demo.linesWorld Demo.crowdedSettings .builtIn run
      (run.outcome.toOption, alone.2, decide (64 < (Layout.nodes.tableText (Demo.eventsOf alone.1.sent)).utf8ByteSize))) =
      some (some ⟨true, 4, 3⟩, none, true) := by decide +kernel
  rw [noted, Option.map_some, Option.some.injEq, Prod.mk.injEq, Prod.mk.injEq, decide_eq_true_eq] at evaluated
  obtain ⟨matched, told, long⟩ := evaluated
  have ended : run.outcome = .ok ⟨true, 4, 3⟩ := by
    cases outcome : run.outcome with
    | ok result =>
        rw [outcome] at matched
        exact congrArg Except.ok (Option.some.inj matched)
    | error e =>
        rw [outcome] at matched
        cases matched
  obtain ⟨_, willing⟩ := announce_obliging (Listener.deaf (ε := ListenerError)) (fun _ _ => rfl) run.hooks ()
  obtain ⟨-, -, -, -, drained⟩ := every_schedule_drains_alike 7 Demo.linesWorld Demo.crowdedSettings .builtIn Demo.lines
    (.ofString "a\nb") run noted _ ended .deaf () () willing ["out", "staged"] Demo.outStore
  rcases recorded : TracedRun.alone Demo.linesWorld Demo.crowdedSettings .builtIn run with ⟨recorder, _ | e⟩
  · rw [recorded] at drained long
    obtain ⟨_, events, -, -, sent, -, bounded⟩ := drained
    have same : Demo.eventsOf recorder.sent = events := by
      simp [Demo.eventsOf, sent, List.filterMap_append, List.filterMap_map]
    rw [same] at long
    obtain ⟨f, cause, -, failed⟩ := (bounded rfl).2 64 rfl long
    exact ⟨run, f, rfl, ended, willing, cause, fun d reaches rests => failed d ⟨reaches, rests⟩⟩
  · rw [recorded] at told
    cases told

end MatchTrace
