import Mathlib.Data.List.Forall2
import MatchTrace.Demo
import MatchTrace.Proofs.Match.Nesting
import MatchTrace.Proofs.Trace.Recorder

/-!
The events of a recorded run. The recorder knows an open invocation by its level alone, and yet the
events it sends tell the call tree of the run: numbers in order of entry, parents by nesting, and
exits that close what was opened last.
-/

namespace MatchTrace

set_option autoImplicit false

def Event.innermost : List Event → Int
  | [] => rootParent
  | e :: _ => e.nodeId

-- The event that may come next, where `count` invocations have been entered and the enters listed,
-- innermost first, are not closed yet; and how many and which they are after it.
inductive Event.Follows : Nat → List Event → Event → Nat → List Event → Prop where
  | enter (count : Nat) (opened : List Event) (e : Event) :
      e.phase = .enter → e.nodeId = count → e.parentId = innermost opened → e.level = opened.length →
      e.startOffset = e.offset → Follows count opened e (count + 1) (e :: opened)
  | exit (count : Nat) (top : Event) (opened : List Event) (e : Event) :
      e.phase ≠ .enter → e.nodeId = top.nodeId → e.parentId = top.parentId → e.level = top.level →
      e.matcher = top.matcher → e.startOffset = top.startOffset → Follows count (top :: opened) e count opened

inductive Event.Nests : Nat → List Event → List Event → Nat → List Event → Prop where
  | nil (count : Nat) (opened : List Event) : Nests count opened [] count opened
  | cons (count next final : Nat) (opened after left : List Event) (e : Event) (es : List Event) :
      Follows count opened e next after → Nests next after es final left →
      Nests count opened (e :: es) final left

theorem event_nests_append (a b c : Nat) (opened after left es fs : List Event)
    (first : Event.Nests a opened es b after) (second : Event.Nests b after fs c left) :
    Event.Nests a opened (es ++ fs) c left := by
  induction first with
  | nil => exact second
  | cons count next final opened after left e es follows _ ih =>
      exact .cons count next c opened after _ e _ follows (ih second)

theorem event_nests_single (count next : Nat) (opened after : List Event) (e : Event)
    (follows : Event.Follows count opened e next after) : Event.Nests count opened [e] next after :=
  .cons _ _ _ _ _ _ e [] follows (.nil next after)

def Hook.Tells (length : Nat) : Hook → Event → Prop
  | .beforeMatch c, e => e.phase = .enter ∧ e.level = c.level ∧ e.offset = min c.index length
  | .matchSuccess c, e => e.phase = .success ∧ e.level = c.level ∧ e.offset = min c.index length
  | .matchFailure c, e => e.phase = .failure ∧ e.level = c.level ∧ e.offset = c.index
  | _, _ => False

inductive Mirrors : List OpenCall → List Event → Prop where
  | nil : Mirrors [] []
  | cons (call : OpenCall) (calls : List OpenCall) (e : Event) (es : List Event) :
      call.nodeId = e.nodeId → call.parentId = e.parentId → call.matcher = e.matcher →
      call.startOffset = e.startOffset → e.level = calls.length → Mirrors calls es →
      Mirrors (call :: calls) (e :: es)

theorem mirrors_length (calls : List OpenCall) (es : List Event) (mirrors : Mirrors calls es) :
    calls.length = es.length := by
  induction mirrors with
  | nil => rfl
  | cons _ calls _ es _ _ _ _ _ _ ih => simp [ih]

theorem mirrors_parent (calls : List OpenCall) (es : List Event) (mirrors : Mirrors calls es) :
    Recorder.parentOf calls = Event.innermost es := by
  cases mirrors with
  | nil => rfl
  | cons call _ e _ nodeId => simp [Recorder.parentOf, Event.innermost, nodeId]

namespace Recorder

theorem send_sent (x t : Recorder) (m : Message) (sent : x.send m = (t, none)) :
    t = { x with outbox := m :: x.outbox } := by
  simp only [send] at sent
  split at sent
  · cases sent
  · cases sent
    rfl

theorem entered_follows (x : Recorder) (now : Nat) (c : Call) (matcher : Descriptor) (opened : List Event)
    (level : c.level = x.depth) (mirrors : Mirrors x.openCalls opened) :
    Event.Follows x.nextNode opened (x.enterEvent now c matcher) (x.nextNode + 1)
        (x.enterEvent now c matcher :: opened) ∧
      Mirrors (x.newCall now c matcher :: x.openCalls) (x.enterEvent now c matcher :: opened) :=
  ⟨.enter _ _ _ rfl rfl (mirrors_parent _ _ mirrors) (level.trans (mirrors_length _ _ mirrors)) rfl,
    .cons _ _ _ _ rfl rfl rfl rfl level mirrors⟩

theorem exited_follows (x : Recorder) (now : Nat) (success : Bool) (c : Call) (call : OpenCall)
    (openCalls : List OpenCall) (opened : List Event) (calls : x.openCalls = call :: openCalls)
    (level : c.level = openCalls.length) (mirrors : Mirrors x.openCalls opened) :
    ∃ top rest, opened = top :: rest ∧
      Event.Follows x.nextNode opened (x.exitEvent now success c call) x.nextNode rest ∧ Mirrors openCalls rest := by
  rw [calls] at mirrors
  cases mirrors with
  | cons _ _ top rest nodeId parentId matcher startOffset depth mirrors =>
      refine ⟨top, rest, rfl, ?_, mirrors⟩
      refine .exit _ top rest _ ?_ nodeId parentId (level.trans depth.symm) matcher startOffset
      cases success with
      | true => exact nofun
      | false => exact nofun

theorem opening_follows (clock : Nat → Clock) (x t : Recorder) (c : Call) (opened : List Event)
    (mirrors : Mirrors x.openCalls opened) (step : listen clock x (.beforeMatch c) = (t, none)) :
    ∃ (call : OpenCall) (e : Event), t.openCalls = call :: x.openCalls ∧ call.nodeId = x.nextNode ∧
      t.outbox = .event e :: x.outbox ∧ t.inputLength = x.inputLength ∧ Mirrors t.openCalls (e :: opened) ∧
      Event.Follows x.nextNode opened e t.nextNode (e :: opened) ∧
      (Hook.beforeMatch c).Tells x.inputLength e := by
  rcases enter_cases _ t _ c none step with
    ⟨-, -, refused⟩ | ⟨-, _, _, _, -, -, refused⟩ | ⟨level, matcher, catalog, classifier, -, sent⟩
  · cases refused
  · cases refused
  have eq := send_sent _ t _ sent.symm
  subst eq
  obtain ⟨follows, mirrored⟩ := entered_follows x (clock x.readings).nanos c matcher opened level mirrors
  exact ⟨_, _, rfl, rfl, rfl, rfl, mirrored, follows, rfl, rfl, rfl⟩

theorem closing_follows (clock : Nat → Clock) (x t : Recorder) (c : Call) (v : Verdict) (opened : List Event)
    (mirrors : Mirrors x.openCalls opened) (step : listen clock x (v.closing c) = (t, none)) :
    ∃ (call : OpenCall) (e top : Event) (rest : List Event), x.openCalls = call :: t.openCalls ∧
      opened = top :: rest ∧ e.nodeId = call.nodeId ∧ t.outbox = .event e :: x.outbox ∧
      t.inputLength = x.inputLength ∧ t.nextNode = x.nextNode ∧ Mirrors t.openCalls rest ∧
      Event.Follows x.nextNode opened e x.nextNode rest ∧ (v.closing c).Tells x.inputLength e := by
  rw [listen_closing] at step
  rcases exit_cases _ t _ _ _ none step with ⟨-, -, refused⟩ | ⟨call, openCalls, calls, level, sent⟩
  · cases refused
  have eq := send_sent _ t _ sent.symm
  subst eq
  obtain ⟨top, rest, rfl, follows, below⟩ := exited_follows { x with readings := x.readings + 1 }
    (clock x.readings).nanos v.matched { c with index := v.index } call openCalls opened calls level mirrors
  refine ⟨call, _, top, rest, calls, rfl, rfl, rfl, rfl, rfl, below, follows, ?_⟩
  rcases v with ⟨_ | _, index⟩
  · exact ⟨rfl, rfl, rfl⟩
  · exact ⟨rfl, rfl, rfl⟩

-- What the hooks of whole invocations do to the recorder: the open calls come back as they were.
theorem balanced_events (clock : Nat → Clock) (level : Nat) (hooks : List Hook) (balanced : Balanced level hooks)
    (x t : Recorder) (opened : List Event) (mirrors : Mirrors x.openCalls opened)
    (told : announce (listen clock) x hooks = (t, none)) :
    ∃ events : List Event, t.outbox = (events.map Message.event).reverse ++ x.outbox ∧
      t.openCalls = x.openCalls ∧ t.inputLength = x.inputLength ∧
      Event.Nests x.nextNode opened events t.nextNode opened ∧
      List.Forall₂ (Hook.Tells x.inputLength) hooks events := by
  induction balanced generalizing x t opened with
  | nil =>
      cases told
      exact ⟨[], rfl, rfl, rfl, .nil _ _, .nil⟩
  | call c v inner rest _ _ innerIH restIH =>
      obtain ⟨y, enter, told⟩ := announce_cons (listen clock) x t _ _ told
      obtain ⟨z, within, told⟩ := announce_parts (listen clock) y t inner _ told
      obtain ⟨w, exit, told⟩ := announce_cons (listen clock) z t _ _ told
      obtain ⟨call, e, calls, -, sent, length, mirrorsIn, follows, tells⟩ :=
        opening_follows clock x y c opened mirrors enter
      obtain ⟨es, sentIn, callsIn, lengthIn, nestsIn, tellsIn⟩ := innerIH y z _ mirrorsIn within
      rw [← callsIn] at mirrorsIn
      obtain ⟨_, f, top, below, callsOut, same, -, sentOut, lengthOut, nextOut, mirrorsOut, followsOut, tellsOut⟩ :=
        closing_follows clock z w c v _ mirrorsIn exit
      cases same
      have restored : w.openCalls = x.openCalls := by
        rw [callsIn, calls] at callsOut
        exact (List.cons.inj callsOut).2.symm
      obtain ⟨fs, sentRest, callsRest, lengthRest, nestsRest, tellsRest⟩ :=
        restIH w t opened (restored ▸ mirrors) told
      refine ⟨e :: (es ++ f :: fs), ?_, callsRest.trans restored, ?_, ?_, ?_⟩
      · simp [sentRest, sentOut, sentIn, sent]
      · rw [lengthRest, lengthOut, lengthIn, length]
      · refine .cons _ _ _ _ _ _ e _ follows (event_nests_append _ _ _ _ _ _ es _ nestsIn ?_)
        exact .cons _ _ _ _ _ _ f fs followsOut (nextOut ▸ nestsRest)
      · rw [lengthOut, lengthIn, length] at tellsRest
        rw [lengthIn, length] at tellsOut
        rw [length] at tellsIn
        exact .cons tells (List.rel_append tellsIn (.cons tellsOut tellsRest))

theorem finish_sent (clock : Nat → Clock) (x t : Recorder) (result : ParseResult)
    (step : listen clock x (.afterParse result) = (t, none)) : t.outbox = .finish :: x.outbox := by
  rcases sent : { x with readings := x.readings + 1, result := some result }.send .finish with ⟨y, answer⟩
  simp only [listen, react, finish, sent, Prod.mk.injEq] at step
  obtain ⟨rfl, rfl⟩ := step
  exact congrArg outbox (send_sent _ y _ sent)

theorem parse_events (fuel : Nat) (g : Grammar) (input : Input) (clock : Nat → Clock) (x t : Recorder) (run : Run)
    (result : ParseResult) (fresh : x.outbox = []) (noted : g.runWith fuel input = some run)
    (ended : run.outcome = .ok result) (told : announce (listen clock) x run.hooks = (t, none)) :
    ∃ (hooks : List Hook) (front : List Event) (last : Event) (count : Nat),
      g.runWith fuel input =
        some ⟨.beforeParse ⟨g.root, 0, 0⟩ input :: (hooks ++ [.afterParse result]), .ok result⟩ ∧
      t.sent = (front ++ [last]).map .event ++ [.finish] ∧
      List.Forall₂ (Hook.Tells input.length) hooks (front ++ [last]) ∧
      Event.Nests 0 [] (front ++ [last]) count [] ∧ last.nodeId = 0 ∧
      last.phase = (if result.matched then .success else .failure) ∧
      (result.matched → last.offset = min result.endIndex input.length) := by
  obtain ⟨v, inner, same, balanced, hooks⟩ := root_hooks fuel g input run result noted ended
  rw [hooks] at told
  obtain ⟨y, start, told⟩ := announce_cons (listen clock) x t _ _ told
  obtain ⟨z, told, after⟩ := announce_parts (listen clock) y t _ _ told
  obtain ⟨t', after, rest⟩ := announce_cons (listen clock) z t _ _ after
  cases rest
  cases start
  obtain ⟨a, enter, told⟩ := announce_cons (listen clock) _ z _ _ told
  obtain ⟨b, within, told⟩ := announce_parts (listen clock) a z inner _ told
  obtain ⟨c, exit, rest⟩ := announce_cons (listen clock) b z _ _ told
  cases rest
  obtain ⟨call, e, calls, number, sent, length, mirrors, follows, tells⟩ := opening_follows clock _ a _ [] .nil enter
  obtain ⟨es, sentIn, callsIn, lengthIn, nestsIn, tellsIn⟩ :=
    balanced_events clock 1 inner balanced a b _ mirrors within
  obtain ⟨call', f, top, below, callsOut, opened, numberOut, sentOut, -, -, -, followsOut, tellsOut⟩ :=
    closing_follows clock b _ _ v _ (callsIn ▸ mirrors) exit
  cases opened
  change a.inputLength = input.length at length
  rw [length] at tellsIn lengthIn
  rw [lengthIn] at tellsOut
  refine ⟨.beforeMatch ⟨g.root, 0, 0⟩ :: (inner ++ [v.closing ⟨g.root, 0, 0⟩]), e :: es, f, b.nextNode, ?_, ?_, ?_,
    ?_, ?_, ?_, ?_⟩
  · rw [noted, ← hooks, ← ended]
  · rw [Recorder.sent, finish_sent clock _ t result after, sentOut, sentIn, sent]
    simp [start, fresh]
  · exact .cons tells (List.rel_append tellsIn (.cons tellsOut .nil))
  · exact .cons _ _ _ _ _ _ e _ follows
      (event_nests_append _ _ _ _ _ _ es [f] nestsIn (event_nests_single _ _ _ _ f followsOut))
  · rw [callsIn, calls] at callsOut
    rw [numberOut, ← (List.cons.inj callsOut).1]
    exact number
  · subst same
    rcases v with ⟨_ | _, index⟩ <;> exact tellsOut.1
  · subst same
    rcases v with ⟨_ | _, index⟩
    · simp [Verdict.result]
    · exact fun _ => tellsOut.2.2

end Recorder

/-- A fresh recorder in a parse refuses nothing but what its catalog refuses, so no enter and no exit is
out of balance. If the parse comes to a result, there is one event for each hook of an invocation, at the
index of the hook (clamped to the text unless it tells a failure); the events nest, and the last one
closes invocation 0 with the verdict of the parse. -/
theorem recorded_events_nest (fuel : Nat) (g : Grammar) (input : Input) (clock : Nat → Clock)
    (classifier : Classifier) (countsLines : Bool) (x : Recorder)
    (outcome : Except (RunError TraceError) ParseResult)
    (heard : g.heardWith fuel input (Recorder.listen clock) { classifier, countsLines } = some (x, outcome)) :
    (∀ e, outcome = .error (.listener e) → (∃ name, e = .unresolved name) ∨ ∃ count, e = .tooManyMatchers count) ∧
    ∀ result, outcome = .ok result →
      ∃ (hooks : List Hook) (front : List Event) (last : Event) (count : Nat),
        g.runWith fuel input =
          some ⟨.beforeParse ⟨g.root, 0, 0⟩ input :: (hooks ++ [.afterParse result]), .ok result⟩ ∧
        x.sent = (front ++ [last]).map .event ++ [.finish] ∧
        List.Forall₂ (Hook.Tells input.length) hooks (front ++ [last]) ∧
        Event.Nests 0 [] (front ++ [last]) count [] ∧ last.nodeId = 0 ∧
        last.phase = (if result.matched then .success else .failure) ∧
        (result.matched → last.offset = min result.endIndex input.length) := by
  constructor
  · intro e failed
    subst failed
    exact Recorder.heard_errors fuel g input clock _ x e rfl rfl heard
  · intro result ended
    subst ended
    obtain ⟨run, noted, ended, told⟩ := heard_announced fuel g input _ _ x result heard
    exact Recorder.parse_events fuel g input clock _ x run result rfl noted ended told

theorem recorded_lines_nest :
    ∃ x result, Demo.lines.heardWith 7 (.ofString "a\nb") (Recorder.listen fun n => ⟨n, 0⟩)
        { classifier := .builtIn, countsLines := true } = some (x, .ok result) ∧ result = ⟨true, 4, 3⟩ ∧
      ∃ front last count, x.sent = (front ++ [last]).map .event ++ [.finish] ∧
        Event.Nests 0 [] (front ++ [last]) count [] ∧ last.nodeId = 0 ∧ last.phase = .success ∧ last.offset = 3 := by
  rcases heard : Demo.lines.heardWith 7 (.ofString "a\nb") (Recorder.listen fun n => ⟨n, 0⟩)
      { classifier := .builtIn, countsLines := true } with _ | ⟨x, outcome⟩
  · exact absurd (congrArg Option.isSome heard) (by decide +kernel)
  · have ended : outcome = .ok ⟨true, 4, 3⟩ := by
      have evaluated : (Demo.lines.heardWith 7 (.ofString "a\nb") (Recorder.listen fun n => ⟨n, 0⟩)
        { classifier := .builtIn, countsLines := true }).map (·.2.toOption) = some (some ⟨true, 4, 3⟩) := by
        decide +kernel
      rw [heard] at evaluated
      cases outcome with
      | ok result => exact congrArg Except.ok (Option.some.inj (Option.some.inj evaluated))
      | error e => cases evaluated
    obtain ⟨hooks, front, last, count, -, sent, -, nests, number, phase, offset⟩ :=
      (recorded_events_nest 7 Demo.lines (.ofString "a\nb") _ _ _ x outcome heard).2 _ ended
    exact ⟨x, _, ended ▸ rfl, rfl, front, last, count, sent, nests, number, phase, offset rfl⟩

end MatchTrace
