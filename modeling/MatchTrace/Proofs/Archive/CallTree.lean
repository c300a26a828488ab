import MatchTrace.Proofs.Archive.Published
import MatchTrace.Proofs.Match.Adequacy
import MatchTrace.Proofs.Trace.Retelling
import MatchTrace.Proofs.Trace.Timeless

/-!
The two layouts of a trace tell the same call tree: rows of calls are the exits of the events, and the rows alone
give all events back in order.
-/

namespace MatchTrace

set_option autoImplicit false

variable {σ : Type}

namespace Trace

theorem finished_successes (points : List CallPoint) :
    (points.filterMap CallPoint.finished?).countP (·.success) = points.countP (·.phase == .success) := by
  rw [List.countP_filterMap]
  apply List.countP_congr
  rintro ⟨phase, nodeId, parentId, level, matcherId, startOffset, offset⟩ -
  cases phase <;> rfl

theorem finished_failures (points : List CallPoint) :
    (points.filterMap CallPoint.finished?).countP (!·.success) = points.countP (·.phase == .failure) := by
  rw [List.countP_filterMap]
  apply List.countP_congr
  rintro ⟨phase, nodeId, parentId, level, matcherId, startOffset, offset⟩ -
  cases phase <;> rfl

def pointVerdicts (points : List CallPoint) : Nat × Nat :=
  (points.countP (·.phase == .success), points.countP (·.phase == .failure))

theorem events_verdicts (entries : List EventEntry) :
    (Trace.events entries).verdicts = pointVerdicts (EventEntry.points entries) := by
  simp only [verdicts, pointVerdicts, EventEntry.points, List.countP_map, Function.comp_def]

theorem nodes_verdicts (rows : List FinishedCall) (points : List CallPoint)
    (told : rows.map FinishedCall.timeless = points.filterMap CallPoint.finished?) :
    (Trace.nodes rows).verdicts = pointVerdicts points := by
  rw [pointVerdicts, ← finished_successes, ← finished_failures, ← told, List.countP_map, List.countP_map]
  rfl

theorem verdicts_total (rows : List FinishedCall) :
    (Trace.nodes rows).verdicts.1 + (Trace.nodes rows).verdicts.2 = rows.length := by
  rw [List.length_eq_countP_add_countP (fun r : FinishedCall => r.success)]
  simp only [verdicts, Bool.not_eq_true, Bool.decide_eq_false]

end Trace

structure Tabled (events : List Event) (tree : CallForest) : Prop where
  points : events.map Event.point = tree.points rootParent 0 0
  rows : (events.filterMap Event.finishedCall?).map FinishedCall.timeless = tree.rows rootParent 0 0

section Tables

variable (events : List Event) (tree : CallForest) (tabled : Tabled events tree)

include tabled

theorem tabled_entries : EventEntry.points (events.map Event.entry) = tree.points rootParent 0 0 :=
  entries_points events tree rootParent 0 0 tabled.points

theorem tabled_finished : EventEntry.finishedCalls (events.map Event.entry) = tree.rows rootParent 0 0 := by
  rw [EventEntry.finishedCalls, tabled_entries events tree tabled, CallForest.points_finished]

theorem tabled_retold : FinishedCall.retold (events.filterMap Event.finishedCall?) = tree.points rootParent 0 0 := by
  rw [← FinishedCall.retold_timeless, tabled.rows, CallForest.retold_rows]

theorem tabled_verdicts (layout : Layout) :
    (Trace.ofEvents layout events).verdicts = Trace.pointVerdicts (tree.points rootParent 0 0) := by
  cases layout with
  | nodes => exact Trace.nodes_verdicts _ _ (by rw [tabled.rows, CallForest.points_finished])
  | events => exact (Trace.events_verdicts _).trans (congrArg _ (tabled_entries events tree tabled))

theorem tabled_total (layout : Layout) :
    (Trace.ofEvents layout events).verdicts.1 + (Trace.ofEvents layout events).verdicts.2 = tree.size := by
  rw [tabled_verdicts events tree tabled layout, ← tabled_verdicts events tree tabled .nodes]
  rw [Trace.ofEvents, Trace.verdicts_total, ← CallForest.rows_length tree rootParent 0 0, ← tabled.rows, List.length_map]

end Tables

namespace TracedRun

theorem alone_tree (P : Call → Verdict → Prop) (world : World) (settings : Settings) (classifier : Classifier) (g : Grammar)
    (input : Input) (run : Run) (v : Verdict) (inner : List Hook) (result : ParseResult)
    (hooks : run.hooks = .beforeParse ⟨g.root, 0, 0⟩ input ::
      ((.beforeMatch ⟨g.root, 0, 0⟩ :: (inner ++ [v.closing ⟨g.root, 0, 0⟩])) ++ [.afterParse result]))
    (holds : P ⟨g.root, 0, 0⟩ v) (enclosed : Enclosed P 1 inner) (recorder : Recorder) (events : List Event)
    (told : alone world settings classifier run = (recorder, none))
    (sent : recorder.sent = events.map .event ++ [.finish]) :
    ∃ (m stop : Nat) (inside : CallForest),
      let tree : CallForest := .call m 0 stop v.matched inside .nil
      recorder.nextNode = tree.size ∧ Tabled events tree ∧ tree.All (Recorder.Places P input.length) := by
  rw [alone, hooks] at told
  obtain ⟨events', m, inside, sent', number, points, rows, places⟩ := Recorder.parse_tells world.clock P ⟨g.root, 0, 0⟩ input
    result v inner holds enclosed _ recorder rfl told
  rw [sent] at sent'
  have same := List.map_injective_iff.mpr (fun _ _ => Message.event.inj) (List.append_cancel_right sent')
  subst same
  exact ⟨m, _, inside, number, ⟨points, rows⟩, places⟩

theorem run_tree (fuel : Nat) (world : World) (settings : Settings) (classifier : Classifier) (g : Grammar)
    (input : Input) (extras : Listener ListenerError σ) (states last : σ) (touch : σ → Store → Store) (s t : Store)
    (report : Report)
    (ran : runWith fuel world settings classifier g input extras states touch s = some ((.ok report, t), last)) :
    ∃ (run : Run) (recorder : Recorder) (events : List Event) (tree : CallForest) (a : Archive),
      g.runWith fuel input = some run ∧ alone world settings classifier run = (recorder, none) ∧
      recorder.sent = events.map .event ++ [.finish] ∧ a.Published t settings.archivePath ∧ a.totals = report.totals ∧
      a.trace = .ofEvents settings.layout events ∧ report.totals.nodeCount = recorder.nextNode ∧
      recorder.nextNode = tree.size ∧ Tabled events tree := by
  obtain ⟨run, recorder, events, noted, ended, told, sent, published, totals⟩ :=
    run_published fuel world settings classifier g input extras states last touch s t report ran
  obtain ⟨v, inner, -, balanced, hooks⟩ := root_hooks fuel g input run report.result noted ended
  obtain ⟨m, stop, inside, number, tabled, -⟩ := alone_tree (fun _ _ => True) world settings classifier g input run v
    inner report.result hooks trivial (balanced_enclosed 1 inner balanced) recorder events told sent
  exact ⟨run, recorder, events, _, _, noted, told, sent, published, totals, rfl, congrArg Totals.nodeCount totals.symm,
    number, tabled⟩

end TracedRun

/-- The nodes table and the events table of a run that came to a result tell the same call tree. The rows of
the one are what the exits of the other tell of their calls, apart from times; so both count the same successes
and failures, which add up to the count of nodes. And the rows alone, walked from the root through the children
of each call in the order of their numbers, tell all events again in order. Whichever table was published, that
of any other run of the same grammar on the same text tells the same. -/
theorem layouts_tell_same_tree (fuel : Nat) (world : World) (settings : Settings) (classifier : Classifier) (g : Grammar)
    (input : Input) (extras : Listener ListenerError σ) (states last : σ) (touch : σ → Store → Store) (s t : Store)
    (report : Report)
    (ran : TracedRun.runWith fuel world settings classifier g input extras states touch s =
      some ((.ok report, t), last)) :
    ∃ (rows : List FinishedCall) (entries : List EventEntry) (a : Archive),
      a.Published t settings.archivePath ∧ a.totals = report.totals ∧
      a.trace = (match settings.layout with | .nodes => .nodes rows | .events => .events entries) ∧
      rows.map FinishedCall.timeless = EventEntry.finishedCalls entries ∧
      (Trace.nodes rows).verdicts = (Trace.events entries).verdicts ∧
      a.trace.verdicts.1 + a.trace.verdicts.2 = report.totals.nodeCount ∧
      FinishedCall.retold rows = EventEntry.points entries ∧
      ∀ (τ : Type) (fuel' : Nat) (world' : World) (settings' : Settings) (extras' : Listener ListenerError τ)
        (states' last' : τ) (touch' : τ → Store → Store) (s' t' : Store) (report' : Report),
        TracedRun.runWith fuel' world' settings' classifier g input extras' states' touch' s' =
          some ((.ok report', t'), last') →
        ∃ b : Archive, b.Published t' settings'.archivePath ∧ b.totals = report'.totals ∧
          b.trace.layout = settings'.layout ∧ b.trace.verdicts = a.trace.verdicts ∧
          report'.totals.nodeCount = report.totals.nodeCount ∧
          match b.trace with
          | .nodes rows' => rows'.map FinishedCall.timeless = rows.map FinishedCall.timeless
          | .events entries' => EventEntry.points entries' = EventEntry.points entries := by
  obtain ⟨run, recorder, events, tree, a, noted, told, sent, published, totals, trace, count, number, tabled⟩ :=
    TracedRun.run_tree fuel world settings classifier g input extras states last touch s t report ran
  have verdicts := tabled_verdicts events tree tabled
  have entries := tabled_entries events tree tabled
  refine ⟨events.filterMap Event.finishedCall?, events.map Event.entry, a, published, totals, ?_, ?_, ?_, ?_, ?_, ?_⟩
  · rw [trace]
    cases settings.layout <;> rfl
  · rw [tabled_finished events tree tabled, tabled.rows]
  · exact (verdicts .nodes).trans (verdicts .events).symm
  · rw [trace, tabled_total events tree tabled, count, number]
  · rw [tabled_retold events tree tabled, entries]
  intro τ fuel' world' settings' extras' states' last' touch' s' t' report' ran'
  obtain ⟨other, recorder', events', tree', b, renoted, retold, resent, republished, totals', trace', count', -, tabled'⟩ :=
    TracedRun.run_tree fuel' world' settings' classifier g input extras' states' last' touch' s' t' report' ran'
  obtain rfl := run_unique g input fuel fuel' run other noted renoted
  obtain ⟨alike, numbers⟩ := Recorder.same_points world.clock world'.clock _ _ recorder recorder' run.hooks events events'
    rfl told retold sent resent
  have walk : tree'.points rootParent 0 0 = tree.points rootParent 0 0 := by rw [← tabled'.points, ← alike, tabled.points]
  refine ⟨b, republished, totals', trace' ▸ trace_layout settings'.layout events', ?_, ?_, ?_⟩
  · rw [trace, trace', verdicts, tabled_verdicts events' tree' tabled', walk]
  · rw [count', count, numbers]
  · rw [trace']
    cases settings'.layout with
    | nodes =>
        change (events'.filterMap Event.finishedCall?).map FinishedCall.timeless =
          (events.filterMap Event.finishedCall?).map FinishedCall.timeless
        rw [tabled'.rows, tabled.rows, ← CallForest.points_finished, walk, CallForest.points_finished]
    | events => exact (tabled_entries events' tree' tabled').trans (walk.trans entries.symm)

theorem traced_lines_tell_same_tree :
    ∃ t rows entries a, Demo.tracedLines = some ((.ok Demo.linesReport, t), ()) ∧
      Archive.Published t "/out/lines.zip" a ∧ a.trace = .nodes rows ∧ FinishedCall.retold rows = EventEntry.points entries ∧
      (Trace.nodes rows).verdicts = (Trace.events entries).verdicts ∧ a.trace.verdicts.1 + a.trace.verdicts.2 = 34 := by
  obtain ⟨t, ran⟩ := traced_lines_report
  obtain ⟨rows, entries, a, published, -, trace, -, verdicts, total, retold, -⟩ := layouts_tell_same_tree 7
    { Demo.linesWorld with meanwhile := Store.welcome "/out/lines.zip" none } Demo.linesSettings .builtIn Demo.lines
    (.ofString "a\nb") .deaf () () (fun _ => Store.welcome "/out/lines.zip" none) Demo.notesStore t _ ran
  exact ⟨t, rows, entries, a, ran, published, trace, retold, verdicts, total⟩

end MatchTrace
