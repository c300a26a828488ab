import MatchTrace.Proofs.Archive.CallTree
import MatchTrace.Proofs.Match.Forward
import MatchTrace.Proofs.Trace.Tally

/-!
The parts of a published archive agree with each other: its totals with its tables, the calls of its trace
with each other, and what the trace says of matchers with the matcher table.
-/

namespace MatchTrace

set_option autoImplicit false

variable {σ : Type}

namespace Trace

def calls : Trace → List FinishedCall
  | .nodes rows => rows.map FinishedCall.timeless
  | .events entries => EventEntry.finishedCalls entries

def points : Trace → List CallPoint
  | .nodes rows => FinishedCall.retold rows
  | .events entries => EventEntry.points entries

theorem of_events_tree (layout : Layout) (events : List Event) (tree : CallForest) (tabled : Tabled events tree) :
    (Trace.ofEvents layout events).calls = tree.rows rootParent 0 0 ∧
      (Trace.ofEvents layout events).points = tree.points rootParent 0 0 := by
  cases layout with
  | nodes => exact ⟨tabled.rows, tabled_retold events tree tabled⟩
  | events => exact ⟨tabled_finished events tree tabled, tabled_entries events tree tabled⟩

end Trace

structure FinishedCall.FormTree (calls : List FinishedCall) (count : Nat) : Prop where
  ids : (calls.map (·.id)).Perm (List.range count)
  root : ∃ front root, calls = front ++ [root] ∧ root.id = 0 ∧ root.parentId = rootParent ∧ root.level = 0 ∧
    ∀ r ∈ front, r.parentId ≠ rootParent
  parents : ∀ front r back, calls = front ++ r :: back → r.parentId ≠ rootParent →
    ∃ q ∈ back, (q.id : Int) = r.parentId ∧ q.id < r.id ∧ r.level = q.level + 1

theorem tree_calls (m s e : Nat) (ok : Bool) (inner : CallForest) :
    FinishedCall.FormTree ((CallForest.call m s e ok inner .nil).rows rootParent 0 0)
      (CallForest.call m s e ok inner .nil).size where
  ids := List.range_eq_range' ▸ CallForest.rows_ids (.call m s e ok inner .nil) rootParent 0 0
  root := by
    refine ⟨_, _, rfl, rfl, rfl, rfl, fun r mem => ?_⟩
    have within := CallForest.rows_within inner 0 1 1 r mem
    rw [rootParent]
    omega
  parents front r back shape child := by
    rcases CallForest.rows_parents _ rootParent 0 0 front back r shape with ⟨direct, -⟩ | parent
    · exact absurd direct child
    · exact parent

structure Archive.MatchersAgree (a : Archive) : Prop where
  count : a.totals.matcherCount = a.matchers.length
  rows : a.matchers.map (·.id) = List.range a.totals.matcherCount
  calls : ∀ r ∈ a.trace.calls, r.matcherId < a.totals.matcherCount
  points : ∀ x ∈ a.trace.points, x.matcherId < a.totals.matcherCount
  firstSeen : ((a.trace.points.filter (·.phase == .enter)).map (·.matcherId)).eraseDups = List.range a.totals.matcherCount
  classes : ∀ entries, a.trace = .events entries → ∀ r ∈ entries,
    ∃ d, a.matchers[r.matcherId]? = some d ∧ d.className = r.matcherClass ∧ d.category = r.category

structure Archive.Consistent (a : Archive) : Prop where
  eventCount : a.totals.eventCount = 2 * a.totals.nodeCount
  tableSize : a.trace.size =
    match a.trace.layout with
    | .nodes => a.totals.nodeCount
    | .events => a.totals.eventCount
  callCount : a.trace.calls.length = a.totals.nodeCount
  calls : FinishedCall.FormTree a.trace.calls a.totals.nodeCount
  matchers : a.MatchersAgree
  lineCount : a.totals.lineCount = a.input.toList.count '\n' + 1
  codePointCount : a.totals.codePointCount = a.input.toList.length
  charCount : a.totals.charCount = a.totals.codePointCount + a.input.toList.countP fun c => 0xFFFF < c.toNat

theorem entered_points (events : List Event) :
    (events.map Message.event ++ [Message.finish]).filterMap Message.named? =
      ((events.map Event.point).filter (·.phase == .enter)).map (·.matcherId) := by
  induction events with
  | nil => rfl
  | cons e es ih =>
      rcases e with ⟨_ | _ | _, nodeId, parentId, level, matcher, startOffset, offset, timestamp, elapsed⟩
      · exact congrArg (matcher.id :: ·) ih
      · exact ih
      · exact ih

section Recorded

variable (layout : Layout) (input : Input) (recorder : Recorder) (events : List Event) (tree : CallForest)
  (tallied : recorder.Tallied input.lineTable.lineCount) (sent : recorder.sent = events.map .event ++ [.finish])
  (tabled : Tabled events tree)

include tallied sent tabled

theorem recorded_matchers : (Archive.ofRecorded layout input recorder events).MatchersAgree := by
  obtain ⟨calls, walk⟩ := Trace.of_events_tree layout events tree tabled
  have count : recorder.catalog.size = recorder.catalog.descriptors.length := (List.length_map _).symm
  have known (e : Event) (mem : e ∈ events) : e.matcher ∈ recorder.catalog.descriptors := by
    apply tallied.events e
    rw [← List.mem_reverse]
    change _ ∈ recorder.sent
    rw [sent]
    exact List.mem_append_left _ (List.mem_map_of_mem mem)
  have below (x : CallPoint) (mem : x ∈ tree.points rootParent 0 0) : x.matcherId < recorder.catalog.size := by
    rw [← tabled.points] at mem
    obtain ⟨e, inside, rfl⟩ := List.mem_map.mp mem
    exact count ▸ Recorder.id_below _ tallied.ids e.matcher (known e inside)
  refine ⟨count, tallied.ids.trans (congrArg List.range count.symm), ?_, ?_, ?_, ?_⟩
  · intro r mem
    change r ∈ (Trace.ofEvents layout events).calls at mem
    rw [calls, ← CallForest.points_finished] at mem
    obtain ⟨x, inside, finished⟩ := List.mem_filterMap.mp mem
    have same : r.matcherId = x.matcherId := by
      rw [CallPoint.finished?] at finished
      split at finished
      · cases finished
        rfl
      · cases finished
    exact same ▸ below x inside
  · intro x mem
    change x ∈ (Trace.ofEvents layout events).points at mem
    exact below x (walk ▸ mem)
  · change (((Trace.ofEvents layout events).points.filter _).map _).eraseDups = List.range recorder.catalog.size
    rw [walk, ← tabled.points, ← entered_points, ← sent, count]
    exact tallied.seen
  · intro entries told r mem
    change Trace.ofEvents layout events = .events entries at told
    cases layout with
    | nodes => cases told
    | events =>
        cases told
        obtain ⟨e, inside, rfl⟩ := List.mem_map.mp mem
        exact ⟨e.matcher, number_place _ _ tallied.ids e.matcher (known e inside), rfl, rfl⟩

theorem recorded_consistent (m e : Nat) (ok : Bool) (inner : CallForest) (shape : tree = .call m 0 e ok inner .nil)
    (number : recorder.nextNode = tree.size) : (Archive.ofRecorded layout input recorder events).Consistent := by
  obtain ⟨calls, -⟩ := Trace.of_events_tree layout events tree tabled
  have twice : events.length = 2 * tree.size := by
    rw [← List.length_map (f := Event.point), tabled.points, CallForest.points_length]
  have characters : input.text.toList = input.chars.toList := String.toList_ofList
  refine ⟨?_, ?_, ?_, ?_, recorded_matchers layout input recorder events tree tallied sent tabled, ?_, ?_, ?_⟩
  · exact twice.trans (congrArg (2 * ·) number.symm)
  · cases layout with
    | nodes =>
        change (events.filterMap Event.finishedCall?).length = recorder.nextNode
        rw [number, ← CallForest.rows_length tree rootParent 0 0, ← tabled.rows, List.length_map]
    | events => exact List.length_map _
  · change (Trace.ofEvents layout events).calls.length = recorder.nextNode
    rw [calls, CallForest.rows_length, number]
  · change FinishedCall.FormTree (Trace.ofEvents layout events).calls recorder.nextNode
    rw [calls, number, shape]
    exact tree_calls m 0 e ok inner
  · change recorder.lineCount.getD input.lineTable.lineCount = input.text.toList.count '\n' + 1
    rw [characters, ← line_feeds]
    cases counted : recorder.lineCount with
    | none => rfl
    | some n => exact tallied.lines n counted
  · exact congrArg List.length characters.symm
  · change unitCount input.chars.toList = input.chars.toList.length + input.text.toList.countP _
    rw [characters]
    exact wide_units input.chars.toList

end Recorded

/-- The archive of a run that came to a result agrees with itself and with the run. There are two events for each
node; the calls are numbered without gaps, the root is left last, and every other call has its parent after it, with
a smaller number and one level further out. Row `i` of the matcher table has number `i`, enters name new matchers
in the order of their numbers, and events repeat class and category of the row. The totals count the lines,
scalars and units of the text. Where all rules are built in, a call that succeeded lies inside the text. -/
theorem published_archive_is_consistent (fuel : Nat) (world : World) (settings : Settings) (classifier : Classifier)
    (g : Grammar) (input : Input) (extras : Listener ListenerError σ) (states last : σ) (touch : σ → Store → Store)
    (s t : Store) (report : Report)
    (ran : TracedRun.runWith fuel world settings classifier g input extras states touch s =
      some ((.ok report, t), last)) :
    ∃ a : Archive, a.Published t settings.archivePath ∧ a.totals = report.totals ∧ a.input = input.text ∧
      a.trace.layout = settings.layout ∧ a.Consistent ∧
      (g.BuiltIn → ∀ r ∈ a.trace.calls, r.success = true →
        r.startOffset ≤ r.endOffset ∧ r.endOffset ≤ a.totals.codePointCount) := by
  obtain ⟨run, recorder, events, noted, ended, told, sent, published, totals⟩ :=
    TracedRun.run_published fuel world settings classifier g input extras states last touch s t report ran
  have tallied := Recorder.parse_tallied fuel g input world.clock classifier true recorder run report.result noted ended told
  obtain ⟨v, inner, -, balanced, hooks⟩ := root_hooks fuel g input run report.result noted ended
  obtain ⟨m, stop, inside, number, tabled, -⟩ := TracedRun.alone_tree (fun _ _ => True) world settings classifier g input
    run v inner report.result hooks trivial (balanced_enclosed 1 inner balanced) recorder events told sent
  refine ⟨_, published, totals, rfl, trace_layout settings.layout events, ?_, ?_⟩
  · exact recorded_consistent settings.layout input recorder events _ tallied sent tabled m stop v.matched inside rfl number
  · intro builtIn r mem success
    obtain ⟨w, within, forward, enclosed, shape⟩ := root_forward fuel g builtIn input run report.result noted ended
    obtain ⟨m', stop', inside', -, retabled, places⟩ := TracedRun.alone_tree Forward world settings classifier g input
      run w within report.result shape forward enclosed recorder events told sent
    have listed : r ∈ (Trace.ofEvents settings.layout events).calls := mem
    rw [(Trace.of_events_tree settings.layout events _ retabled).1] at listed
    obtain ⟨c, u, moved, start, stopped, matched⟩ := CallForest.rows_all _ _ places rootParent 0 0 r listed
    have length : (Archive.ofRecorded settings.layout input recorder events).totals.codePointCount = input.length :=
      Array.length_toList
    rw [success] at matched
    have ahead := moved matched.symm
    rw [Recorder.exitOffset, ← matched, if_pos rfl] at stopped
    rw [length, start, stopped]
    omega

theorem lines_built_in : Demo.lines.BuiltIn := by
  intro r reached
  have known := reaches_within Demo.lines
    [Demo.lines.root, .sequence 11 [.zeroOrMore 12 Demo.line, Demo.lineText, .terminal 13 .endOfInput],
      .zeroOrMore 12 Demo.line, Demo.line, .sequence 8 [Demo.lineText, Demo.ch 9 '\n', Demo.countLine], Demo.lineText,
      .zeroOrMore 1 (.sequence 2 [.testNot 3 (Demo.ch 4 '\n'), .terminal 5 .any]),
      .sequence 2 [.testNot 3 (Demo.ch 4 '\n'), .terminal 5 .any], .testNot 3 (Demo.ch 4 '\n'), Demo.ch 4 '\n',
      .terminal 5 .any, Demo.ch 9 '\n', Demo.countLine, .terminal 13 .endOfInput]
    List.mem_cons_self
    (by simp [Demo.lines, Demo.line, Demo.lineText, Demo.countLine, Demo.ch, Rule.children])
    (by simp [Demo.lines, Demo.line, Demo.lineText, Demo.countLine, Demo.ch]) r reached
  simp only [List.mem_cons, List.not_mem_nil, or_false] at known
  rcases known with rfl | rfl | rfl | rfl | rfl | rfl | rfl | rfl | rfl | rfl | rfl | rfl | rfl | rfl
  all_goals exact id

theorem traced_lines_are_consistent :
    ∃ t a, Demo.tracedLines = some ((.ok Demo.linesReport, t), ()) ∧ Demo.lines.BuiltIn ∧
      Archive.Published t "/out/lines.zip" a ∧ a.Consistent ∧ a.totals = Demo.linesReport.totals ∧
      ∀ r ∈ a.trace.calls, r.success = true → r.startOffset ≤ r.endOffset ∧ r.endOffset ≤ 3 := by
  obtain ⟨t, ran⟩ := traced_lines_report
  obtain ⟨a, published, totals, -, -, consistent, forward⟩ := published_archive_is_consistent 7
    { Demo.linesWorld with meanwhile := Store.welcome "/out/lines.zip" none } Demo.linesSettings .builtIn Demo.lines
    (.ofString "a\nb") .deaf () () (fun _ => Store.welcome "/out/lines.zip" none) Demo.notesStore t _ ran
  have inside := forward lines_built_in
  rw [totals] at inside
  exact ⟨t, a, ran, lines_built_in, published, consistent, totals, inside⟩

end MatchTrace
