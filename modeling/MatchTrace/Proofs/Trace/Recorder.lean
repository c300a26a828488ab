import MatchTrace.Proofs.Match.Announce
import MatchTrace.Proofs.Trace.Catalog
import MatchTrace.Trace.Recorder

/-!
What the recorder does at each hook: all that can come of an enter and of an exit, and the errors it
can raise in a run. In a run every hook stands at the level the recorder expects, so only the catalog
can refuse one.
-/

namespace MatchTrace

set_option autoImplicit false

namespace Recorder

def newCall (x : Recorder) (now : Nat) (c : Call) (matcher : Descriptor) : OpenCall :=
  ⟨x.nextNode, parentOf x.openCalls, matcher, min c.index x.inputLength, now⟩

def enterEvent (x : Recorder) (now : Nat) (c : Call) (matcher : Descriptor) : Event :=
  ⟨.enter, x.nextNode, parentOf x.openCalls, c.level, matcher, min c.index x.inputLength,
    min c.index x.inputLength, nanosBetween x.origin now, none⟩

def exitEvent (x : Recorder) (now : Nat) (success : Bool) (c : Call) (call : OpenCall) : Event :=
  ⟨if success then .success else .failure, call.nodeId, call.parentId, c.level, call.matcher,
    call.startOffset, exitOffset x.inputLength c.index success, nanosBetween x.origin now,
    some (nanosBetween call.opened now)⟩

def entered (x : Recorder) (now : Nat) (c : Call) (matcher : Descriptor) (catalog : Catalog)
    (classifier : Classifier) : Recorder :=
  { x with
    catalog, classifier, nextNode := x.nextNode + 1, openCalls := x.newCall now c matcher :: x.openCalls }

theorem enter_cases (x t : Recorder) (now : Nat) (c : Call) (answer : Option TraceError)
    (step : x.enter now c = (t, answer)) :
    (c.level ≠ x.depth ∧ t = x ∧ answer = some (.unbalancedEnter c.level x.depth)) ∨
    (c.level = x.depth ∧ ∃ e catalog classifier,
      x.catalog.resolve x.classifier c.rule = (.error e, catalog, classifier) ∧
        t = { x with catalog, classifier } ∧ answer = some e) ∨
    (c.level = x.depth ∧ ∃ matcher catalog classifier,
      x.catalog.resolve x.classifier c.rule = (.ok matcher, catalog, classifier) ∧
        (t, answer) = (x.entered now c matcher catalog classifier).send (.event (x.enterEvent now c matcher))) := by
  by_cases level : c.level = x.depth
  · refine .inr ?_
    rcases resolved : x.catalog.resolve x.classifier c.rule with ⟨e | matcher, catalog, classifier⟩
    · simp only [enter, level, ne_eq, not_true_eq_false, if_false, resolved, Prod.mk.injEq] at step
      exact .inl ⟨level, e, catalog, classifier, rfl, step.1.symm, step.2.symm⟩
    · simp only [enter, level, ne_eq, not_true_eq_false, if_false, resolved] at step
      exact .inr ⟨level, matcher, catalog, classifier, rfl,
        by simpa only [entered, newCall, enterEvent, level] using step.symm⟩
  · simp only [enter, ne_eq, level, not_false_eq_true, if_true, Prod.mk.injEq] at step
    exact .inl ⟨level, step.1.symm, step.2.symm⟩

theorem exit_cases (x t : Recorder) (now : Nat) (success : Bool) (c : Call) (answer : Option TraceError)
    (step : x.exit now success c = (t, answer)) :
    (c.level + 1 ≠ x.depth ∧ t = x ∧ answer = some (.unbalancedExit c.level)) ∨
    ∃ call openCalls, x.openCalls = call :: openCalls ∧ c.level = openCalls.length ∧
      (t, answer) = { x with openCalls }.send (.event (x.exitEvent now success c call)) := by
  cases opened : x.openCalls with
  | nil =>
      simp only [exit, opened, Prod.mk.injEq] at step
      exact .inl ⟨by simp [depth, opened], step.1.symm, step.2.symm⟩
  | cons call openCalls =>
      by_cases level : c.level = openCalls.length
      · simp only [exit, opened, level, if_true] at step
        exact .inr ⟨call, openCalls, rfl, level, by simpa only [exitEvent, level] using step.symm⟩
      · simp only [exit, opened, level, if_false, Prod.mk.injEq] at step
        exact .inl ⟨by simpa [depth, opened] using level, step.1.symm, step.2.symm⟩

structure Ready (x : Recorder) (level : Nat) : Prop where
  depth : x.depth = level
  notClosed : x.closed = false
  reached : x.writerGone = false

theorem send_ready (x : Recorder) (level : Nat) (ready : x.Ready level) (m : Message) :
    x.send m = ({ x with outbox := m :: x.outbox }, none) := by
  simp [send, ready.notClosed, ready.reached]

end Recorder

def TraceError.IsCataloguing (e : TraceError) : Prop :=
  (∃ name, e = .unresolved name) ∨ ∃ count, e = .tooManyMatchers count

theorem cataloguing_own (e : TraceError) (fault : e.IsCataloguing) : e ≠ .writerClosed := by
  rintro rfl
  rcases fault with ⟨_, same⟩ | ⟨_, same⟩
  · cases same
  · cases same

theorem resolve_error (x : Catalog) (k : Classifier) (r : Rule) (e : TraceError) (catalog : Catalog)
    (classifier : Classifier) (refused : x.resolve k r = (.error e, catalog, classifier)) :
    e.IsCataloguing := by
  cases Catalog.resolves _ _ _ _ _ _ refused with
  | unresolved _ _ => exact .inl ⟨_, rfl⟩
  | full _ _ _ _ _ => exact .inr ⟨_, rfl⟩

namespace Recorder

theorem enter_ready (x t : Recorder) (now : Nat) (c : Call) (answer : Option TraceError)
    (ready : x.Ready c.level) (step : x.enter now c = (t, answer)) :
    (∃ e, answer = some e ∧ e.IsCataloguing) ∨
    answer = none ∧ t.Ready (c.level + 1) ∧ ∃ matcher catalog classifier,
      x.catalog.resolve x.classifier c.rule = (.ok matcher, catalog, classifier) ∧
      t = { x.entered now c matcher catalog classifier with
        outbox := .event (x.enterEvent now c matcher) :: x.outbox } := by
  rcases enter_cases x t now c answer step with
    ⟨level, -, -⟩ | ⟨-, e, _, _, refused, -, rfl⟩ | ⟨level, matcher, catalog, classifier, resolved, sent⟩
  · exact absurd ready.depth.symm level
  · exact .inl ⟨e, rfl, resolve_error _ _ _ e _ _ refused⟩
  · have depth : (x.entered now c matcher catalog classifier).depth = c.level + 1 :=
      congrArg (· + 1) ready.depth
    rw [send_ready _ _ ⟨depth, ready.notClosed, ready.reached⟩, Prod.mk.injEq] at sent
    obtain ⟨rfl, rfl⟩ := sent
    exact .inr ⟨rfl, ⟨depth, ready.notClosed, ready.reached⟩, matcher, catalog, classifier, resolved, rfl⟩

theorem exit_ready (x t : Recorder) (now : Nat) (success : Bool) (c : Call) (answer : Option TraceError)
    (ready : x.Ready (c.level + 1)) (step : x.exit now success c = (t, answer)) :
    answer = none ∧ t.Ready c.level ∧ ∃ call openCalls, x.openCalls = call :: openCalls ∧
      t = { x with openCalls, outbox := .event (x.exitEvent now success c call) :: x.outbox } := by
  rcases exit_cases x t now success c answer step with ⟨level, -, -⟩ | ⟨call, openCalls, opened, level, sent⟩
  · exact absurd ready.depth.symm level
  · have outside : { x with openCalls }.Ready c.level := ⟨level.symm, ready.notClosed, ready.reached⟩
    rw [send_ready _ _ outside, Prod.mk.injEq] at sent
    obtain ⟨rfl, rfl⟩ := sent
    exact ⟨rfl, ⟨level.symm, ready.notClosed, ready.reached⟩, call, openCalls, opened, rfl⟩

theorem listen_closing (clock : Nat → Clock) (x : Recorder) (v : Verdict) (c : Call) :
    listen clock x (v.closing c) =
      { x with readings := x.readings + 1 }.exit (clock x.readings).nanos v.matched { c with index := v.index } := by
  rcases v with ⟨_ | _, index⟩ <;> rfl

-- How a part of a run at a level leaves the recorder, and what it may end with.
def Orderly (level : Nat) (heard _ : Heard TraceError Recorder Verdict) : Prop :=
  ∀ x t ending, x.Ready level → heard x = some (t, ending) →
    match ending with
    | .ok _ => t.Ready level
    | .error (.listener e) => e.IsCataloguing
    | .error (.rule _) => True

theorem orderly_enclose (clock : Nat → Clock) (c : Call) (f g : Unit → Heard TraceError Recorder Verdict)
    (part : Orderly (c.level + 1) (f ()) (g ())) :
    Orderly c.level ((Mode.heard (listen clock)).enclose c f) ((Mode.heard (listen clock)).enclose c g) := by
  intro x t ending ready eq
  rcases heard_then_cases _ _ x t ending eq with ⟨e, first, rfl⟩ | ⟨y, _, first, eq⟩
  all_goals
    rcases step : listen clock x (.beforeMatch c) with ⟨w, answer⟩
    simp only [Heard.tell, step] at first
    have came := enter_ready { x with readings := x.readings + 1 } w (clock x.readings).nanos c answer
      ⟨ready.depth, ready.notClosed, ready.reached⟩ step
  · rcases came with ⟨e, rfl, fault⟩ | ⟨rfl, -⟩
    · cases first
      exact fault
    · cases first
  · rcases came with ⟨e, rfl, -⟩ | ⟨rfl, inside, -⟩
    · cases first
    cases first
    rcases heard_then_cases _ _ _ t ending eq with ⟨e, first, rfl⟩ | ⟨z, v, first, eq⟩
    · have ended := part _ t _ inside first
      cases e with
      | rule e => trivial
      | listener e => exact ended
    · have after := part _ z _ inside first
      rcases step : listen clock z (v.closing c) with ⟨w, answer⟩
      obtain ⟨rfl, outside, -⟩ := exit_ready { z with readings := z.readings + 1 } w (clock z.readings).nanos
        v.matched { c with index := v.index } answer ⟨after.depth, after.notClosed, after.reached⟩
        (listen_closing clock z v c ▸ step)
      simp only [Heard.andThen, Heard.tell, step] at eq
      cases eq
      exact outside

theorem orderly_simulation (clock : Nat → Clock) :
    Simulation (Mode.heard (listen clock)) (Mode.heard (listen clock)) (fun _ => True) Orderly where
  exhausted _ _ x t ending _ eq := nomatch eq
  conclude _ _ _ x t ending ready eq := by cases eq; exact ready
  abort _ _ x t ending ready eq := by cases eq; trivial
  andThen d a b f g part next := by
    intro x t ending ready eq
    rcases heard_then_cases a f x t ending eq with ⟨e, first, rfl⟩ | ⟨u, v, first, eq⟩
    · exact part x t _ ready first
    · exact next v trivial u t ending (part x u _ ready first) eq
  enclose c f g _ := orderly_enclose clock c f g

theorem heard_errors (fuel : Nat) (g : Grammar) (input : Input) (clock : Nat → Clock) (x t : Recorder)
    (e : TraceError) (notClosed : x.closed = false) (reached : x.writerGone = false)
    (heard : g.heardWith fuel input (listen clock) x = some (t, .error (.listener e))) : e.IsCataloguing := by
  have started : ({ x with readings := x.readings + 1 }.start (clock x.readings).nanos (clock x.readings).millis
      input).Ready 0 := ⟨rfl, notClosed, reached⟩
  have orderly := (orderly_simulation clock).root g input fuel
  rcases heard_then_cases _ _ x t _ heard with ⟨e', first, eq⟩ | ⟨y, _, first, rest⟩
  · cases first
  cases first
  rcases heard_then_cases (g.invokeRoot (.heard (listen clock)) fuel input) _ _ t _ rest with
    ⟨e', first, eq⟩ | ⟨z, v, first, rest⟩
  · cases eq
    exact orderly _ t _ started first
  · have ready := orderly _ z _ started first
    have told : listen clock z (.afterParse (v.result input.length)) =
        ({ z with
          readings := z.readings + 1, result := some (v.result input.length)
          outbox := .finish :: z.outbox, closed := true }, none) := by
      simp [listen, react, finish, send, ready.notClosed, ready.reached]
    simp only [Heard.andThen, Heard.tell, told] at rest
    cases rest

end Recorder

end MatchTrace
