import MatchTrace.Proofs.Trace.Nesting
import MatchTrace.Staging.Pipeline

/-!
The recorder and the writer with the queue between them. Whatever the writer's pace, it has taken a
front part of what was sent and nothing else, and a recorder that could always send has recorded what
it would have recorded alone.
-/

namespace MatchTrace

set_option autoImplicit false

namespace Recorder

def reaching (x : Recorder) : Recorder := { x with writerGone := false }

theorem send_reaching (x t : Recorder) (m : Message) (sent : x.send m = (t, none)) :
    x.reaching.send m = (t.reaching, none) ∧ t.sent = x.sent ++ [m] := by
  have same := send_sent x t m sent
  subst same
  have opened : x.closed = false := by
    cases closed : x.closed with
    | true => simp [send, closed] at sent
    | false => rfl
  exact ⟨by simp [send, reaching, opened], by simp [Recorder.sent]⟩

theorem enter_reaching (x t : Recorder) (now : Nat) (c : Call) (step : x.enter now c = (t, none)) :
    x.reaching.enter now c = (t.reaching, none) ∧ ∃ m, t.sent = x.sent ++ [m] := by
  rcases enter_cases x t now c none step with
    ⟨-, -, refused⟩ | ⟨-, _, _, _, -, -, refused⟩ | ⟨level, matcher, catalog, classifier, resolved, sent⟩
  · cases refused
  · cases refused
  obtain ⟨same, grown⟩ := send_reaching _ t _ sent.symm
  refine ⟨?_, _, grown⟩
  have depth : x.reaching.depth = x.depth := rfl
  have found : x.reaching.catalog.resolve x.reaching.classifier c.rule = (.ok matcher, catalog, classifier) := resolved
  rw [enter, depth, if_neg (not_not_intro level), found]
  exact same

theorem exit_reaching (x t : Recorder) (now : Nat) (success : Bool) (c : Call)
    (step : x.exit now success c = (t, none)) :
    x.reaching.exit now success c = (t.reaching, none) ∧ ∃ m, t.sent = x.sent ++ [m] := by
  rcases exit_cases x t now success c none step with ⟨-, -, refused⟩ | ⟨call, openCalls, calls, level, sent⟩
  · cases refused
  obtain ⟨same, grown⟩ := send_reaching _ t _ sent.symm
  refine ⟨?_, _, grown⟩
  have opened : x.reaching.openCalls = call :: openCalls := calls
  rw [exit, opened]
  dsimp only
  rw [if_pos level]
  exact same

theorem finish_reaching (x t : Recorder) (result : ParseResult) (step : x.finish result = (t, none)) :
    x.reaching.finish result = (t.reaching, none) ∧ ∃ m, t.sent = x.sent ++ [m] := by
  rcases sent : { x with result := some result }.send .finish with ⟨y, answer⟩
  simp only [finish, sent, Prod.mk.injEq] at step
  obtain ⟨rfl, rfl⟩ := step
  obtain ⟨same, grown⟩ := send_reaching _ y _ sent
  refine ⟨?_, _, grown⟩
  have alone : { x.reaching with result := some result }.send .finish = (y.reaching, none) := same
  simp only [finish, alone]
  rfl

theorem listen_reaching (clock : Nat → Clock) (x t : Recorder) (h : Hook) (step : listen clock x h = (t, none)) :
    listen clock x.reaching h = (t.reaching, none) ∧ ∃ new, t.sent = x.sent ++ new := by
  cases h with
  | beforeParse c input =>
      cases step
      exact ⟨rfl, [], (List.append_nil _).symm⟩
  | beforeMatch c =>
      obtain ⟨same, m, grown⟩ := enter_reaching { x with readings := x.readings + 1 } t _ c step
      exact ⟨same, [m], grown⟩
  | matchSuccess c =>
      obtain ⟨same, m, grown⟩ := exit_reaching { x with readings := x.readings + 1 } t _ true c step
      exact ⟨same, [m], grown⟩
  | matchFailure c =>
      obtain ⟨same, m, grown⟩ := exit_reaching { x with readings := x.readings + 1 } t _ false c step
      exact ⟨same, [m], grown⟩
  | afterParse result =>
      obtain ⟨same, m, grown⟩ := finish_reaching { x with readings := x.readings + 1 } t result step
      exact ⟨same, [m], grown⟩

end Recorder

namespace Pipeline

variable (faults : Faults) (start : Progress)

structure Fed (p : Pipeline) : Prop where
  sent : p.taken ≤ p.recorder.sent.length
  writer : p.writer = start.takeAll faults (p.recorder.sent.take p.taken)

theorem fed_take (p : Pipeline) (fed : p.Fed faults start) (count : Nat) : (p.take faults count).Fed faults start := by
  cases count with
  | zero => exact fed
  | succ count =>
      have size : (p.queue.take (count + 1)).length ≤ p.recorder.sent.length - p.taken := by
        rw [List.length_take, queue, List.length_drop]
        exact Nat.min_le_right _ _
      have taken := fed.sent
      refine ⟨?_, ?_⟩
      · change p.taken + (p.queue.take (count + 1)).length ≤ p.recorder.sent.length
        omega
      · change p.writer.takeAll faults (p.queue.take (count + 1)) =
          start.takeAll faults (p.recorder.sent.take (p.taken + (p.queue.take (count + 1)).length))
        have batch : p.recorder.sent.take (p.taken + (p.queue.take (count + 1)).length) =
            p.recorder.sent.take p.taken ++ p.queue.take (count + 1) := by
          rw [List.take_add, List.length_take, queue, ← List.take_eq_take_min]
        rw [fed.writer, batch, Progress.takeAll, Progress.takeAll, Progress.takeAll, List.foldl_append]

theorem take_recorder (p : Pipeline) (count : Nat) : (p.take faults count).recorder = p.recorder := by
  cases count <;> rfl

theorem listen_fed (clock : Nat → Clock) (pace : Nat → Nat) (p q : Pipeline) (h : Hook) (fed : p.Fed faults start)
    (step : p.listen clock faults pace h = (q, none)) :
    q.Fed faults start ∧ Recorder.listen clock p.recorder.reaching h = (q.recorder.reaching, none) := by
  have ready := fed_take faults start p fed (pace p.recorder.readings)
  have recorder := take_recorder faults p (pace p.recorder.readings)
  unfold listen at step
  generalize p.take faults (pace p.recorder.readings) = r at ready recorder step
  rcases heard : Recorder.listen clock { r.recorder with writerGone := r.writer.hasStopped } h with ⟨t, answer⟩
  simp only [heard, Prod.mk.injEq] at step
  obtain ⟨rfl, rfl⟩ := step
  obtain ⟨alone, new, grown⟩ := Recorder.listen_reaching clock _ t h heard
  have sent : t.sent = r.recorder.sent ++ new := grown
  refine ⟨⟨?_, ?_⟩, recorder ▸ alone⟩
  · rw [sent, List.length_append]
    exact Nat.le_trans ready.sent (Nat.le_add_right _ _)
  · rw [sent, List.take_append_of_le_length ready.sent]
    exact ready.writer

theorem announce_fed (clock : Nat → Clock) (pace : Nat → Nat) (hooks : List Hook) (p q : Pipeline)
    (fed : p.Fed faults start) (told : announce (listen clock faults pace) p hooks = (q, none)) :
    q.Fed faults start ∧ announce (Recorder.listen clock) p.recorder.reaching hooks = (q.recorder.reaching, none) := by
  induction hooks generalizing p with
  | nil =>
      cases told
      exact ⟨fed, rfl⟩
  | cons h hs ih =>
      obtain ⟨u, step, told⟩ := announce_cons _ p q h hs told
      obtain ⟨fed, alone⟩ := listen_fed faults start clock pace p u h fed step
      obtain ⟨fed, rest⟩ := ih u fed told
      exact ⟨fed, by simp only [announce, alone, rest]⟩

theorem close_fed (p : Pipeline) (fed : p.Fed faults start) :
    p.close faults = (start.takeAll faults p.recorder.sent).close := by
  rw [close, fed.writer, Progress.takeAll, Progress.takeAll, ← List.foldl_append, queue, List.take_append_drop]
  rfl

end Pipeline

end MatchTrace
