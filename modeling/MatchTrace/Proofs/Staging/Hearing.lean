import MatchTrace.Archive.TracedRun
import MatchTrace.Proofs.Staging.Schedule

/-!
A parse that other listeners hear beside the recorder. Any of them may end it, while the writer goes on at a
pace of its own. The recorder is told that the queue is closed only by a writer that has failed.
-/

namespace MatchTrace

set_option autoImplicit false

variable {σ : Type}

namespace Recorder

theorem exit_reached (x t : Recorder) (now : Nat) (success : Bool) (c : Call) (answer : Option TraceError)
    (ready : x.Ready x.depth) (step : x.exit now success c = (t, answer)) :
    answer ≠ some .writerClosed ∧ t.Ready t.depth := by
  rcases exit_cases x t now success c answer step with ⟨-, rfl, rfl⟩ | ⟨call, openCalls, -, -, sent⟩
  · exact ⟨nofun, ready⟩
  · rw [send_ready { x with openCalls } _ ⟨rfl, ready.notClosed, ready.reached⟩] at sent
    cases sent
    exact ⟨nofun, rfl, ready.notClosed, ready.reached⟩

theorem enter_reached (x t : Recorder) (now : Nat) (c : Call) (answer : Option TraceError)
    (ready : x.Ready x.depth) (step : x.enter now c = (t, answer)) :
    answer ≠ some .writerClosed ∧ t.Ready t.depth := by
  rcases enter_cases x t now c answer step with
    ⟨-, rfl, rfl⟩ | ⟨-, e, catalog, classifier, refused, rfl, rfl⟩ | ⟨-, matcher, catalog, classifier, -, sent⟩
  · exact ⟨nofun, ready⟩
  · have fault := resolve_error _ _ _ e _ _ refused
    exact ⟨fun same => cataloguing_own e fault (Option.some.inj same), rfl, ready.notClosed, ready.reached⟩
  · rw [send_ready (x.entered now c matcher catalog classifier) _ ⟨rfl, ready.notClosed, ready.reached⟩] at sent
    cases sent
    exact ⟨nofun, rfl, ready.notClosed, ready.reached⟩

theorem listen_reached (clock : Nat → Clock) (x t : Recorder) (h : Hook) (answer : Option TraceError)
    (ready : x.Ready x.depth) (step : listen clock x h = (t, answer)) :
    answer ≠ some .writerClosed ∧ (¬ h.IsLast → t.Ready t.depth) := by
  have now : { x with readings := x.readings + 1 }.Ready x.depth := ⟨rfl, ready.notClosed, ready.reached⟩
  cases h with
  | beforeParse c input =>
      cases step
      exact ⟨nofun, fun _ => ⟨rfl, ready.notClosed, ready.reached⟩⟩
  | beforeMatch c => exact (enter_reached _ t _ c answer now step).imp_right fun ready _ => ready
  | matchSuccess c => exact (exit_reached _ t _ true c answer now step).imp_right fun ready _ => ready
  | matchFailure c => exact (exit_reached _ t _ false c answer now step).imp_right fun ready _ => ready
  | afterParse result =>
      refine ⟨?_, fun inner => absurd trivial inner⟩
      simp only [listen, react, finish,
        send_ready { { x with readings := x.readings + 1 } with result := some result } x.depth
          ⟨rfl, ready.notClosed, ready.reached⟩] at step
      cases step
      exact nofun

theorem announce_reached (clock : Nat → Clock) (hooks : List Hook) (order : InOrder hooks) (x : Recorder)
    (ready : x.Ready x.depth) : (announce (listen clock) x hooks).2 ≠ some .writerClosed := by
  induction hooks generalizing x with
  | nil => exact nofun
  | cons h hs ih =>
      rcases step : listen clock x h with ⟨t, _ | e⟩
      · rw [announce_heard _ x t h hs step]
        cases hs with
        | nil => exact nofun
        | cons k ks =>
            have inner : ¬ h.IsLast := order h List.mem_cons_self
            have ready := (listen_reached clock x t h none ready step).2 inner
            exact ih (fun h mem => order h (List.mem_cons_of_mem _ mem)) t ready
      · rw [announce_refused _ x t h hs e step]
        exact (listen_reached clock x t h (some e) ready step).1

end Recorder

namespace Drain

theorem moves_suffix (clock : Nat → Clock) (faults : Faults) (d d' : Drain) (move : Moves clock faults d d') :
    d'.hooks <:+ d.hooks := by
  cases move with
  | take => exact List.suffix_refl _
  | hear p h hooks => exact List.suffix_cons h hooks

theorem comes_suffix (clock : Nat → Clock) (faults : Faults) (d d' : Drain) (comes : Comes clock faults d d') :
    d'.hooks <:+ d.hooks := by
  induction comes with
  | refl => exact List.suffix_refl _
  | tail _ move ih => exact (moves_suffix clock faults _ _ move).trans ih

end Drain

structure Hearing (σ : Type) where
  drain : Drain
  extras : σ
  objected : Option ListenerError := none

namespace Hearing

def failure? (a : Hearing σ) : Option ListenerError := (a.drain.refused.map .trace).or a.objected

-- The steps of the parse and the writer. All listeners are told a hook, whichever of them fails.
inductive Moves (clock : Nat → Clock) (faults : Faults) (extras : Listener ListenerError σ) :
    Hearing σ → Hearing σ → Prop where
  | take (d d' : Drain) (states : σ) (objected : Option ListenerError) :
      Drain.Moves clock faults d d' → d'.hooks = d.hooks →
      Moves clock faults extras ⟨d, states, objected⟩ ⟨d', states, objected⟩
  | hear (d d' : Drain) (h : Hook) (states : σ) :
      Drain.Moves clock faults d d' → d.hooks = h :: d'.hooks →
      Moves clock faults extras ⟨d, states, none⟩ ⟨d', (extras states h).1, (extras states h).2⟩

abbrev Comes (clock : Nat → Clock) (faults : Faults) (extras : Listener ListenerError σ) :
    Hearing σ → Hearing σ → Prop :=
  Relation.ReflTransGen (Moves clock faults extras)

section Steps

variable (clock : Nat → Clock) (faults : Faults) (extras : Listener ListenerError σ)

theorem drain_comes (a b : Hearing σ) (comes : Comes clock faults extras a b) :
    Drain.Comes clock faults a.drain b.drain := by
  refine comes.lift Hearing.drain fun a b move => ?_
  cases move with
  | take _ _ _ _ step => exact step
  | hear _ _ _ _ step => exact step

theorem idle_comes (d d' : Drain) (states : σ) (comes : Drain.Comes clock faults d d') (idle : d'.hooks = d.hooks) :
    Comes clock faults extras ⟨d, states, none⟩ ⟨d', states, none⟩ := by
  induction comes using Relation.ReflTransGen.head_induction_on with
  | refl => exact .refl
  | head move comes ih =>
      have first := Drain.moves_suffix clock faults _ _ move
      have rest := Drain.comes_suffix clock faults _ _ comes
      have same := first.eq_of_length_le (idle ▸ rest.length_le)
      exact .head (.take _ _ states none move same) (ih (idle.trans same.symm))

theorem closed_queue_failed (recorder : Recorder) (start : Progress) (hooks : List Hook) (states : σ) (a : Hearing σ)
    (unsent : recorder.sent = []) (notClosed : recorder.closed = false) (order : InOrder hooks)
    (unfinished : ∀ t, start ≠ .finished t)
    (comes : Comes clock faults extras ⟨⟨⟨recorder, start, 0⟩, hooks, none⟩, states, none⟩ a)
    (closed : a.drain.refused = some .writerClosed) : ∃ f, a.drain.pipeline.close faults = .error (.failed f) := by
  have sound := Drain.comes_sound clock faults start _ _ a.drain
    (Drain.start_sound clock faults start recorder hooks unsent order) (drain_comes clock faults extras _ a comes)
  rcases sound.refused _ closed with alone | ⟨-, endless, stopped⟩
  · have open' := Recorder.announce_reached clock hooks order recorder.reaching ⟨rfl, notClosed, rfl⟩
    rw [alone] at open'
    exact absurd rfl open'
  · obtain ⟨f, failed, -⟩ := Drain.gone_failed clock faults start _ a.drain sound unfinished endless stopped
    exact ⟨f, failed⟩

end Steps

theorem announce_comes (world : World) (extras : Listener ListenerError σ) (hooks : List Hook) (p q : Pipeline)
    (states last : σ) (answer : Option ListenerError)
    (told : announce (TracedRun.listener world extras) (p, states) hooks = ((q, last), answer)) :
    ∃ a : Hearing σ, Comes world.clock world.faults extras ⟨⟨p, hooks, none⟩, states, none⟩ a ∧
      a.drain.pipeline = q ∧ a.extras = last ∧ a.failure? = answer ∧ (a.failure? = none → a.drain.hooks = []) := by
  induction hooks generalizing p states with
  | nil =>
      cases told
      exact ⟨_, .refl, rfl, rfl, rfl, fun _ => rfl⟩
  | cons h hs ih =>
      rcases step : p.listen world.clock world.faults world.pace h with ⟨u, e⟩
      let b : Hearing σ := ⟨⟨u, hs, e⟩, (extras states h).1, (extras states h).2⟩
      have took := idle_comes world.clock world.faults extras ⟨p, h :: hs, none⟩ _ states
        (Drain.paced_comes world.clock world.faults (h :: hs) p (world.pace p.recorder.readings)) rfl
      have comes : Comes world.clock world.faults extras ⟨⟨p, h :: hs, none⟩, states, none⟩ b :=
        took.tail (.hear _ ⟨u, hs, e⟩ h states
          (Drain.listen_moves world.clock world.faults world.pace h hs p u e step) rfl)
      have heard : TracedRun.listener world extras (p, states) h = ((u, b.extras), b.failure?) := by
        simp only [TracedRun.listener, Listener.both, step]
        rfl
      cases failure : b.failure? with
      | none =>
          rw [failure] at heard
          rw [announce_heard _ _ _ h hs heard] at told
          obtain ⟨unrefused, silent⟩ := Option.or_eq_none_iff.mp failure
          have unrefused : e = none := Option.map_eq_none_iff.mp unrefused
          have silent : (extras states h).2 = none := silent
          obtain ⟨a, rest, same⟩ := ih u b.extras told
          refine ⟨a, comes.trans ?_, same⟩
          simpa only [b, unrefused, silent] using rest
      | some e' =>
          rw [failure] at heard
          rw [announce_refused _ _ _ h hs e' heard] at told
          cases told
          exact ⟨b, comes, rfl, rfl, failure, fun none => by rw [failure] at none; cases none⟩

end Hearing

end MatchTrace
