import Mathlib.Logic.Relation
import MatchTrace.Proofs.Staging.File
import MatchTrace.Proofs.Staging.Pipeline

/-!
The parse and the writer as two processes with the queue between them. Either may do its next step at any
time. However their steps fall, the recorder has sent a front part of what it sends when nobody stops it, and
it is refused only what it would refuse alone or what a writer that has stopped will not take.
-/

namespace MatchTrace

set_option autoImplicit false

namespace Recorder

theorem send_refused (x t : Recorder) (m : Message) (e : TraceError) (sent : x.send m = (t, some e)) :
    t = x ∧ (x.reaching.send m = (x.reaching, some e) ∨ e = .writerClosed ∧ x.writerGone = true) := by
  cases closed : x.closed with
  | true =>
      simp only [send, closed, Bool.true_or, if_true, Prod.mk.injEq, Option.some.injEq] at sent
      obtain ⟨rfl, rfl⟩ := sent
      exact ⟨rfl, .inl (by simp [send, reaching, closed])⟩
  | false =>
      cases gone : x.writerGone with
      | true =>
          simp only [send, gone, Bool.or_true, if_true, Prod.mk.injEq, Option.some.injEq] at sent
          exact ⟨sent.1.symm, .inr ⟨sent.2.symm, rfl⟩⟩
      | false => simp [send, closed, gone] at sent

theorem enter_refused (x t : Recorder) (now : Nat) (c : Call) (e : TraceError) (step : x.enter now c = (t, some e)) :
    t.outbox = x.outbox ∧ (x.reaching.enter now c = (t.reaching, some e) ∨ e = .writerClosed ∧ x.writerGone = true) := by
  have depth : x.reaching.depth = x.depth := rfl
  rcases enter_cases x t now c _ step with
    ⟨level, rfl, same⟩ | ⟨level, e', catalog, classifier, resolved, rfl, same⟩ |
      ⟨level, matcher, catalog, classifier, resolved, sent⟩
  · cases same
    have apart : c.level ≠ t.reaching.depth := level
    exact ⟨rfl, .inl (by rw [enter, if_pos apart]; rfl)⟩
  · cases same
    have found : x.reaching.catalog.resolve x.reaching.classifier c.rule = (.error e, catalog, classifier) := resolved
    exact ⟨rfl, .inl (by rw [enter, depth, if_neg (not_not_intro level), found]; rfl)⟩
  · obtain ⟨rfl, alone⟩ := send_refused _ t _ e sent.symm
    have found : x.reaching.catalog.resolve x.reaching.classifier c.rule = (.ok matcher, catalog, classifier) := resolved
    refine ⟨rfl, alone.imp_left fun same => ?_⟩
    rw [enter, depth, if_neg (not_not_intro level), found]
    exact same

theorem exit_refused (x t : Recorder) (now : Nat) (success : Bool) (c : Call) (e : TraceError)
    (step : x.exit now success c = (t, some e)) :
    t.outbox = x.outbox ∧
      (x.reaching.exit now success c = (t.reaching, some e) ∨ e = .writerClosed ∧ x.writerGone = true) := by
  rcases exit_cases x t now success c _ step with ⟨level, rfl, same⟩ | ⟨call, openCalls, calls, level, sent⟩
  · cases same
    refine ⟨rfl, .inl ?_⟩
    rcases alone : t.reaching.exit now success c with ⟨u, answer⟩
    rcases exit_cases _ u now success c _ alone with ⟨-, rfl, rfl⟩ | ⟨call, openCalls, calls, same, -⟩
    · rfl
    · have opened : t.openCalls = call :: openCalls := calls
      exact absurd (by rw [same, depth, opened]; rfl) level
  · obtain ⟨rfl, alone⟩ := send_refused _ t _ e sent.symm
    have opened : x.reaching.openCalls = call :: openCalls := calls
    refine ⟨rfl, alone.imp_left fun same => ?_⟩
    rw [exit, opened]
    dsimp only
    rw [if_pos level]
    exact same

theorem finish_refused (x t : Recorder) (result : ParseResult) (e : TraceError)
    (step : x.finish result = (t, some e)) :
    t.outbox = x.outbox ∧ (x.reaching.finish result = (t.reaching, some e) ∨ e = .writerClosed ∧ x.writerGone = true) := by
  rcases sent : { x with result := some result }.send .finish with ⟨y, answer⟩
  simp only [finish, sent, Prod.mk.injEq] at step
  obtain ⟨rfl, rfl⟩ := step
  obtain ⟨rfl, alone⟩ := send_refused _ y _ e sent
  refine ⟨rfl, alone.imp_left fun same => ?_⟩
  have refused : { x.reaching with result := some result }.send .finish =
      ({ x.reaching with result := some result }, some e) := same
  simp only [finish, refused]
  rfl

theorem listen_refused (clock : Nat → Clock) (x t : Recorder) (h : Hook) (e : TraceError)
    (step : listen clock x h = (t, some e)) :
    t.outbox = x.outbox ∧ (listen clock x.reaching h = (t.reaching, some e) ∨ e = .writerClosed ∧ x.writerGone = true) := by
  cases h with
  | beforeParse c input => cases step
  | beforeMatch c => exact enter_refused { x with readings := x.readings + 1 } t _ c e step
  | matchSuccess c => exact exit_refused { x with readings := x.readings + 1 } t _ true c e step
  | matchFailure c => exact exit_refused { x with readings := x.readings + 1 } t _ false c e step
  | afterParse result => exact finish_refused { x with readings := x.readings + 1 } t result e step

theorem listen_grown (clock : Nat → Clock) (x : Recorder) (h : Hook) : x.sent <+: (listen clock x h).1.sent := by
  rcases step : listen clock x h with ⟨t, _ | e⟩
  · obtain ⟨-, new, grown⟩ := listen_reaching clock x t h step
    exact ⟨new, grown.symm⟩
  · have same : t.sent = x.sent := congrArg List.reverse (listen_refused clock x t h e step).1
    exact ⟨[], (List.append_nil _).trans same.symm⟩

theorem announce_grown (clock : Nat → Clock) (x : Recorder) (hooks : List Hook) :
    x.sent <+: (announce (listen clock) x hooks).1.sent := by
  induction hooks generalizing x with
  | nil => exact List.prefix_refl _
  | cons h hs ih =>
      have first := listen_grown clock x h
      rw [announce]
      rcases step : listen clock x h with ⟨t, _ | e⟩
      · rw [step] at first
        exact first.trans (ih t)
      · rw [step] at first
        exact first

end Recorder

def Hook.IsLast : Hook → Prop
  | .afterParse _ => True
  | _ => False

def InOrder (hooks : List Hook) : Prop := ∀ h ∈ hooks.dropLast, ¬ h.IsLast

theorem listen_endless (clock : Nat → Clock) (x : Recorder) (h : Hook) (inner : ¬ h.IsLast)
    (endless : .finish ∉ x.sent) : .finish ∉ (Recorder.listen clock x h).1.sent := by
  rcases step : Recorder.listen clock x h with ⟨t, _ | e⟩
  · have single (e : Event) (grown : t.outbox = .event e :: x.outbox) : .finish ∉ t.sent := by
      rw [Recorder.sent, grown, List.reverse_cons]
      simpa [Recorder.sent] using endless
    cases h with
    | beforeParse c input =>
        cases step
        exact endless
    | beforeMatch c =>
        rcases Recorder.enter_cases _ t _ c none step with
          ⟨-, -, refused⟩ | ⟨-, _, _, _, -, -, refused⟩ | ⟨-, _, _, _, -, sent⟩
        · cases refused
        · cases refused
        · exact single _ (congrArg Recorder.outbox (Recorder.send_sent _ t _ sent.symm))
    | matchSuccess c =>
        rcases Recorder.exit_cases _ t _ true c none step with ⟨-, -, refused⟩ | ⟨_, _, -, -, sent⟩
        · cases refused
        · exact single _ (congrArg Recorder.outbox (Recorder.send_sent _ t _ sent.symm))
    | matchFailure c =>
        rcases Recorder.exit_cases _ t _ false c none step with ⟨-, -, refused⟩ | ⟨_, _, -, -, sent⟩
        · cases refused
        · exact single _ (congrArg Recorder.outbox (Recorder.send_sent _ t _ sent.symm))
    | afterParse result => exact absurd trivial inner
  · rw [Recorder.sent, (Recorder.listen_refused clock x t h e step).1]
    exact endless

structure Drain where
  pipeline : Pipeline
  hooks : List Hook
  refused : Option TraceError := none

namespace Drain

-- The steps of the two processes. The writer takes the message that was sent first of those it has not
-- taken; the parse tells the recorder its next hook. Once the writer has stopped, the recorder may find
-- it gone.
inductive Moves (clock : Nat → Clock) (faults : Faults) : Drain → Drain → Prop where
  | take (p : Pipeline) (hooks : List Hook) (refused : Option TraceError) (m : Message) (ms : List Message) :
      p.queue = m :: ms →
      Moves clock faults ⟨p, hooks, refused⟩
        ⟨{ p with writer := p.writer.take faults m, taken := p.taken + 1 }, hooks, refused⟩
  | hear (p : Pipeline) (h : Hook) (hooks : List Hook) (gone : Bool) (x : Recorder) (answer : Option TraceError) :
      (gone = true → p.writer.hasStopped = true) →
      Recorder.listen clock { p.recorder with writerGone := gone } h = (x, answer) →
      Moves clock faults ⟨p, h :: hooks, none⟩ ⟨{ p with recorder := x }, hooks, answer⟩

abbrev Comes (clock : Nat → Clock) (faults : Faults) : Drain → Drain → Prop :=
  Relation.ReflTransGen (Moves clock faults)

def Rests (d : Drain) : Prop := d.hooks = [] ∨ d.refused.isSome

section Invariant

variable (clock : Nat → Clock) (faults : Faults) (start : Progress) (alone : Recorder × Option TraceError)

-- The hooks that are left end with the last one of the run, and until then no end mark is sent.
def Ending (d : Drain) : Prop :=
  d.hooks = [] ∨ .finish ∉ d.pipeline.recorder.sent ∧
    ∃ front last, d.hooks = front ++ [last] ∧ ∀ h ∈ front, ¬ h.IsLast

-- What holds however the steps fall, where `alone` is what the hooks come to for a recorder alone.
structure Sound (d : Drain) : Prop where
  fed : d.pipeline.Fed faults start
  front : d.pipeline.recorder.sent <+: alone.1.sent
  rest : d.refused = none →
    d.Ending ∧ announce (Recorder.listen clock) d.pipeline.recorder.reaching d.hooks = alone
  refused : ∀ e, d.refused = some e →
    alone = (d.pipeline.recorder.reaching, some e) ∨
      e = .writerClosed ∧ .finish ∉ d.pipeline.recorder.sent ∧ d.pipeline.writer.hasStopped = true

theorem fed_pop (p : Pipeline) (m : Message) (ms : List Message) (fed : p.Fed faults start) (queue : p.queue = m :: ms) :
    { p with writer := p.writer.take faults m, taken := p.taken + 1 }.Fed faults start := by
  have popped : p.take faults 1 = { p with writer := p.writer.take faults m, taken := p.taken + 1 } := by
    simp only [Pipeline.take, queue, List.take_succ_cons, List.take_zero]
    rfl
  exact popped ▸ Pipeline.fed_take faults start p fed 1

theorem take_stopped (p : Progress) (m : Message) (stopped : p.hasStopped = true) : p.take faults m = p := by
  cases p with
  | running w => cases stopped
  | finished t => cases m <;> rfl
  | failed f => cases m <;> rfl

theorem fed_grown (p : Pipeline) (x : Recorder) (fed : p.Fed faults start) (grown : p.recorder.sent <+: x.sent) :
    { p with recorder := x }.Fed faults start := by
  obtain ⟨new, sent⟩ := grown
  refine ⟨?_, ?_⟩
  · change p.taken ≤ x.sent.length
    rw [← sent, List.length_append]
    exact Nat.le_trans fed.sent (Nat.le_add_right _ _)
  · change p.writer = start.takeAll faults (x.sent.take p.taken)
    rw [← sent, List.take_append_of_le_length fed.sent]
    exact fed.writer

theorem ending_heard (p : Pipeline) (h : Hook) (hooks : List Hook) (gone : Bool)
    (ending : (⟨p, h :: hooks, none⟩ : Drain).Ending) (answer : Option TraceError) :
    (⟨{ p with recorder := (Recorder.listen clock { p.recorder with writerGone := gone } h).1 }, hooks, answer⟩ :
      Drain).Ending := by
  rcases ending with none | ⟨endless, front, last, hooks', inner⟩
  · cases none
  cases front with
  | nil => exact .inl (List.cons.inj hooks').2
  | cons f fs =>
      obtain ⟨rfl, rfl⟩ := List.cons.inj hooks'
      refine .inr ⟨?_, fs, last, rfl, fun k mem => inner k (List.mem_cons_of_mem _ mem)⟩
      exact listen_endless clock { p.recorder with writerGone := gone } h (inner h List.mem_cons_self) endless

theorem start_sound (recorder : Recorder) (hooks : List Hook) (unsent : recorder.sent = []) (order : InOrder hooks) :
    (⟨⟨recorder, start, 0⟩, hooks, none⟩ : Drain).Sound clock faults start
      (announce (Recorder.listen clock) recorder.reaching hooks) := by
  have endless : .finish ∉ recorder.sent := by rw [unsent]; exact List.not_mem_nil
  have ending : (⟨⟨recorder, start, 0⟩, hooks, none⟩ : Drain).Ending := by
    rcases List.eq_nil_or_concat' hooks with rfl | ⟨front, last, rfl⟩
    · exact .inl rfl
    · rw [InOrder, List.dropLast_concat] at order
      exact .inr ⟨endless, front, last, rfl, order⟩
  refine ⟨⟨Nat.zero_le _, rfl⟩, ?_, fun _ => ⟨ending, rfl⟩, fun _ refused => by cases refused⟩
  rw [unsent]
  exact List.nil_prefix

theorem moves_sound (d d' : Drain) (sound : d.Sound clock faults start alone) (step : Moves clock faults d d') :
    d'.Sound clock faults start alone := by
  obtain ⟨fed, front, rest, refused⟩ := sound
  cases step with
  | take p hooks answer m ms queue =>
      refine ⟨fed_pop faults start p m ms fed queue, front, rest, fun e same => ?_⟩
      refine (refused e same).imp_right fun ⟨closed, endless, stopped⟩ => ⟨closed, endless, ?_⟩
      have same := take_stopped faults p.writer m stopped
      exact (congrArg Progress.hasStopped same).trans stopped
  | hear p h hooks gone x answer stopped step =>
      obtain ⟨ending, same⟩ := rest rfl
      have grown : p.recorder.sent <+: x.sent := by
        have grown := Recorder.listen_grown clock { p.recorder with writerGone := gone } h
        rwa [step] at grown
      have left := ending_heard clock p h hooks gone ending answer
      rw [step] at left
      cases answer with
      | none =>
          obtain ⟨reached, -⟩ := Recorder.listen_reaching clock { p.recorder with writerGone := gone } x h step
          have next : announce (Recorder.listen clock) x.reaching hooks = alone :=
            (announce_heard _ _ _ h hooks reached).symm.trans same
          refine ⟨fed_grown faults start p x fed grown, ?_, fun _ => ⟨left, next⟩, fun _ refusal => by cases refusal⟩
          exact next ▸ Recorder.announce_grown clock x.reaching hooks
      | some e =>
          obtain ⟨kept, cause⟩ := Recorder.listen_refused clock { p.recorder with writerGone := gone } x h e step
          have sent : x.sent = p.recorder.sent := congrArg List.reverse kept
          refine ⟨fed_grown faults start p x fed grown, sent ▸ front, (fun unrefused => by cases unrefused), ?_⟩
          rintro _ ⟨⟩
          rcases cause with own | ⟨rfl, found⟩
          · exact .inl (same.symm.trans (announce_refused _ _ _ h hooks e own))
          · right
            refine ⟨rfl, ?_, stopped found⟩
            rcases ending with none | ⟨endless, -⟩
            · cases none
            · exact sent ▸ endless

theorem comes_sound (d d' : Drain) (sound : d.Sound clock faults start alone) (steps : Comes clock faults d d') :
    d'.Sound clock faults start alone := by
  induction steps with
  | refl => exact sound
  | tail _ step ih => exact moves_sound clock faults start alone _ _ ih step

theorem take_all_failed (f : Failure) (messages : List Message) :
    Progress.takeAll faults (.failed f) messages = .failed f := by
  induction messages with
  | nil => rfl
  | cons m ms ih =>
      cases m with
      | event e => exact ih
      | finish => exact ih

-- A writer that was found gone before the end mark had failed, and would have failed so on the whole run.
theorem gone_failed (d : Drain) (sound : d.Sound clock faults start alone) (unfinished : ∀ t, start ≠ .finished t)
    (endless : .finish ∉ d.pipeline.recorder.sent) (stopped : d.pipeline.writer.hasStopped = true) :
    ∃ f, d.pipeline.close faults = .error (.failed f) ∧ (start.takeAll faults alone.1.sent).close = .error (.failed f) := by
  obtain ⟨new, whole⟩ := sound.front
  have taken := take_all_unfinished faults start (d.pipeline.recorder.sent.take d.pipeline.taken)
    (fun mem => endless (List.mem_of_mem_take mem)) unfinished
  rw [← sound.fed.writer] at taken
  cases writer : d.pipeline.writer with
  | running w =>
      rw [writer] at stopped
      cases stopped
  | finished t => exact absurd writer (taken t)
  | failed f =>
      refine ⟨f, ?_, ?_⟩
      · rw [Pipeline.close, writer, take_all_failed]
        rfl
      · have first := sound.fed.writer.symm.trans writer
        have split : alone.1.sent =
            d.pipeline.recorder.sent.take d.pipeline.taken ++ (d.pipeline.queue ++ new) := by
          rw [← whole, ← List.append_assoc, Pipeline.queue, List.take_append_drop]
        rw [split, Progress.takeAll, List.foldl_append]
        change ((start.takeAll faults (d.pipeline.recorder.sent.take d.pipeline.taken)).takeAll faults _).close = _
        rw [first, take_all_failed]
        rfl

theorem rests_cases (d : Drain) (sound : d.Sound clock faults start alone) (unfinished : ∀ t, start ≠ .finished t)
    (rests : d.Rests) :
    (d.refused = none ∧ alone.2 = none ∧ d.pipeline.close faults = (start.takeAll faults alone.1.sent).close) ∨
    (∃ e, d.refused = some e ∧ alone.2 = some e) ∨
    ∃ f, d.refused = some .writerClosed ∧ d.pipeline.close faults = .error (.failed f) ∧
      (start.takeAll faults alone.1.sent).close = .error (.failed f) := by
  cases refused : d.refused with
  | none =>
      obtain ⟨-, same⟩ := sound.rest refused
      rcases rests with ended | ended
      · rw [ended, announce] at same
        subst same
        exact .inl ⟨rfl, rfl, Pipeline.close_fed faults start d.pipeline sound.fed⟩
      · rw [refused] at ended
        cases ended
  | some e =>
      rcases sound.refused e refused with same | ⟨rfl, endless, stopped⟩
      · exact .inr (.inl ⟨e, rfl, congrArg Prod.snd same⟩)
      · obtain ⟨f, closed, whole⟩ := gone_failed clock faults start alone d sound unfinished endless stopped
        exact .inr (.inr ⟨f, rfl, closed, whole⟩)

end Invariant

-- No schedule is stuck: the parse can always go on.
theorem comes_rests (clock : Nat → Clock) (faults : Faults) (hooks : List Hook) (p : Pipeline)
    (refused : Option TraceError) : ∃ d : Drain, Comes clock faults ⟨p, hooks, refused⟩ d ∧ d.Rests := by
  induction hooks generalizing p refused with
  | nil => exact ⟨_, .refl, .inl rfl⟩
  | cons h hs ih =>
      cases refused with
      | some e => exact ⟨_, .refl, .inr rfl⟩
      | none =>
          obtain ⟨d, comes, rests⟩ := ih _ _
          exact ⟨d, .head (.hear p h hs false _ _ (fun gone => by cases gone) rfl) comes, rests⟩

theorem batch_comes (clock : Nat → Clock) (faults : Faults) (hooks : List Hook) (refused : Option TraceError)
    (batch rest : List Message) (p : Pipeline) (queue : p.queue = batch ++ rest) :
    Comes clock faults ⟨p, hooks, refused⟩
      ⟨{ p with writer := p.writer.takeAll faults batch, taken := p.taken + batch.length }, hooks, refused⟩ := by
  induction batch generalizing p with
  | nil => exact .refl
  | cons m ms ih =>
      let q : Pipeline := { p with writer := p.writer.take faults m, taken := p.taken + 1 }
      have next : q.queue = ms ++ rest := by
        change p.recorder.sent.drop (p.taken + 1) = _
        rw [← List.tail_drop]
        exact congrArg List.tail queue
      have others := ih q next
      have count : q.taken + ms.length = p.taken + (m :: ms).length := by
        simp only [q, List.length_cons]
        omega
      rw [count] at others
      exact .head (.take p hooks refused m (ms ++ rest) queue) others

theorem paced_comes (clock : Nat → Clock) (faults : Faults) (hooks : List Hook) (p : Pipeline) (count : Nat) :
    Comes clock faults ⟨p, hooks, none⟩ ⟨p.take faults count, hooks, none⟩ := by
  cases count with
  | zero => exact .refl
  | succ count =>
      exact batch_comes clock faults hooks none (p.queue.take (count + 1)) (p.queue.drop (count + 1)) p
        (List.take_append_drop _ _).symm

theorem listen_moves (clock : Nat → Clock) (faults : Faults) (pace : Nat → Nat) (h : Hook) (hooks : List Hook)
    (p q : Pipeline) (answer : Option TraceError) (step : p.listen clock faults pace h = (q, answer)) :
    Moves clock faults ⟨p.take faults (pace p.recorder.readings), h :: hooks, none⟩ ⟨q, hooks, answer⟩ := by
  cases step
  exact .hear _ h hooks _ _ _ id rfl

theorem announce_comes (clock : Nat → Clock) (faults : Faults) (pace : Nat → Nat) (hooks : List Hook)
    (p q : Pipeline) (answer : Option TraceError)
    (told : announce (Pipeline.listen clock faults pace) p hooks = (q, answer)) :
    ∃ d : Drain, Comes clock faults ⟨p, hooks, none⟩ d ∧ d.Rests ∧ d.pipeline = q ∧ d.refused = answer := by
  induction hooks generalizing p with
  | nil =>
      cases told
      exact ⟨_, .refl, .inl rfl, rfl, rfl⟩
  | cons h hs ih =>
      have took := paced_comes clock faults (h :: hs) p (pace p.recorder.readings)
      rcases step : p.listen clock faults pace h with ⟨u, e⟩
      have heard := listen_moves clock faults pace h hs p u e step
      cases e with
      | none =>
          rw [announce_heard _ p u h hs step] at told
          obtain ⟨d, comes, rests, pipeline, refused⟩ := ih u told
          exact ⟨d, took.trans (.head heard comes), rests, pipeline, refused⟩
      | some e =>
          rw [announce_refused _ p u h hs e step] at told
          cases told
          exact ⟨_, took.tail heard, .inr rfl, rfl, rfl⟩

end Drain

end MatchTrace
