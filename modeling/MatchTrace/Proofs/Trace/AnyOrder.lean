import Mathlib.Data.List.Induction
import MatchTrace.Proofs.Trace.Nesting
import MatchTrace.Text.Decimal

/-!
A recorder that is told hooks in any order. Whatever the hooks are, one at a wrong level is refused without a trace, and
the events since a parse began are those of a run up to some point: what is still open could be closed in order.
-/

namespace MatchTrace

set_option autoImplicit false

theorem nests_complete (count : Nat) (left : List Event) : ∃ more, Event.Nests count left more count [] := by
  induction left with
  | nil => exact ⟨[], .nil count []⟩
  | cons top opened ih =>
      obtain ⟨more, closes⟩ := ih
      have closing : Event.Follows count (top :: opened) { top with phase := .success } count opened :=
        .exit count top opened _ nofun rfl rfl rfl rfl rfl
      exact ⟨{ top with phase := .success } :: more, .cons _ _ _ _ _ _ _ _ closing closes⟩

-- Errors with which a recorder refuses a hook, so that it is as if it had not been told.
def TraceError.IsRefusal : TraceError → Prop
  | .unbalancedEnter _ _ | .unbalancedExit _ | .unresolved _ => True
  | _ => False

namespace Recorder

def Live (x : Recorder) : Prop := x.closed = false ∧ x.writerGone = false

theorem send_cases (x t : Recorder) (m : Message) (answer : Option TraceError) (step : x.send m = (t, answer)) :
    (x.Live ∧ t = { x with outbox := m :: x.outbox } ∧ answer = none) ∨
      (¬ x.Live ∧ t = x ∧ answer = some .writerClosed) := by
  rw [send] at step
  by_cases silent : (x.closed || x.writerGone) = true
  · rw [if_pos silent] at step
    cases step
    refine .inr ⟨fun live => ?_, rfl, rfl⟩
    rw [live.1, live.2] at silent
    cases silent
  · rw [if_neg silent] at step
    cases step
    exact .inl ⟨Bool.or_eq_false_iff.mp (Bool.eq_false_of_not_eq_true silent), rfl, rfl⟩

theorem send_answer (x t : Recorder) (m : Message) (e : TraceError) (step : x.send m = (t, some e)) :
    e = .writerClosed := by
  rcases send_cases x t m _ step with ⟨-, -, none⟩ | ⟨-, -, closed⟩
  · cases none
  · exact Option.some.inj closed

theorem enter_wrong (x : Recorder) (now : Nat) (c : Call) (wrong : c.level ≠ x.depth) :
    x.enter now c = (x, some (.unbalancedEnter c.level x.depth)) := by
  rw [enter, if_pos wrong]

theorem enter_failed (x : Recorder) (now : Nat) (c : Call) (e : TraceError) (failed : (x.enter now c).2 = some e) :
    (c.level ≠ x.depth ∧ e = .unbalancedEnter c.level x.depth ∧ (x.enter now c).1 = x) ∨
    (c.level = x.depth ∧ (∃ name, e = .unresolved name) ∧ (x.enter now c).1 = x) ∨
    (c.level = x.depth ∧ ((∃ count, e = .tooManyMatchers count) ∨ e = .writerClosed)) := by
  rcases step : x.enter now c with ⟨t, answer⟩
  obtain rfl : answer = some e := (congrArg Prod.snd step).symm.trans failed
  rcases enter_cases x t now c _ step with
    ⟨wrong, same, fault⟩ | ⟨right, _, catalog, classifier, refused, same, fault⟩ | ⟨right, _, _, _, -, sent⟩
  · exact .inl ⟨wrong, Option.some.inj fault, same⟩
  · cases fault
    cases Catalog.resolves _ _ _ _ _ _ refused with
    | unresolved _ _ => exact .inr (.inl ⟨right, ⟨_, rfl⟩, same⟩)
    | full _ _ _ _ _ => exact .inr (.inr ⟨right, .inl ⟨_, rfl⟩⟩)
  · exact .inr (.inr ⟨right, .inr (send_answer _ _ _ _ sent.symm)⟩)

theorem exit_wrong (x : Recorder) (now : Nat) (success : Bool) (c : Call) (wrong : c.level + 1 ≠ x.depth) :
    x.exit now success c = (x, some (.unbalancedExit c.level)) := by
  rcases step : x.exit now success c with ⟨t, answer⟩
  rcases exit_cases x t now success c answer step with ⟨-, rfl, rfl⟩ | ⟨call, openCalls, opened, right, -⟩
  · rfl
  · exact absurd (by rw [depth, opened, right, List.length_cons]) wrong

theorem exit_failed (x : Recorder) (now : Nat) (success : Bool) (c : Call) (e : TraceError)
    (failed : (x.exit now success c).2 = some e) :
    (c.level + 1 ≠ x.depth ∧ e = .unbalancedExit c.level ∧ (x.exit now success c).1 = x) ∨ e = .writerClosed := by
  rcases step : x.exit now success c with ⟨t, answer⟩
  obtain rfl : answer = some e := (congrArg Prod.snd step).symm.trans failed
  rcases exit_cases x t now success c _ step with ⟨wrong, same, fault⟩ | ⟨_, _, -, -, sent⟩
  · exact .inl ⟨wrong, Option.some.inj fault, same⟩
  · exact .inr (send_answer _ _ _ _ sent.symm)

theorem finish_failed (x : Recorder) (result : ParseResult) (e : TraceError)
    (failed : (x.finish result).2 = some e) : e = .writerClosed :=
  send_answer _ _ _ e (Prod.ext rfl failed)

theorem exit_unbalanced (x : Recorder) (now : Nat) (success : Bool) (c : Call) (level : Nat) :
    (x.exit now success c).2 = some (.unbalancedExit level) ↔ c.level = level ∧ level + 1 ≠ x.depth := by
  constructor
  · intro failed
    rcases exit_failed x now success c _ failed with ⟨wrong, same, -⟩ | other
    · cases same
      exact ⟨rfl, wrong⟩
    · cases other
  · rintro ⟨rfl, wrong⟩
    exact congrArg Prod.snd (exit_wrong x now success c wrong)

section Listen

variable (clock : Nat → Clock) (x : Recorder)

theorem unbalanced_enter (h : Hook) (level height : Nat) :
    (listen clock x h).2 = some (.unbalancedEnter level height) ↔
      (∃ c, h = .beforeMatch c ∧ c.level = level) ∧ x.depth = height ∧ level ≠ height := by
  constructor
  · intro failed
    cases h with
    | beforeParse c input => cases failed
    | beforeMatch c =>
        rcases enter_failed _ _ c _ failed with ⟨wrong, same, -⟩ | ⟨-, ⟨_, other⟩, -⟩ | ⟨-, ⟨_, other⟩ | other⟩
        · cases same
          exact ⟨⟨c, rfl, rfl⟩, rfl, wrong⟩
        · cases other
        · cases other
        · cases other
    | matchSuccess c =>
        rcases exit_failed _ _ true c _ failed with ⟨-, other, -⟩ | other
        all_goals cases other
    | matchFailure c =>
        rcases exit_failed _ _ false c _ failed with ⟨-, other, -⟩ | other
        all_goals cases other
    | afterParse result => cases finish_failed _ result _ failed
  · rintro ⟨⟨c, rfl, rfl⟩, rfl, wrong⟩
    exact congrArg Prod.snd (enter_wrong { x with readings := x.readings + 1 } _ c wrong)

theorem unbalanced_exit (h : Hook) (level : Nat) :
    (listen clock x h).2 = some (.unbalancedExit level) ↔
      (∃ c, (h = .matchSuccess c ∨ h = .matchFailure c) ∧ c.level = level) ∧ level + 1 ≠ x.depth := by
  constructor
  · intro failed
    cases h with
    | beforeParse c input => cases failed
    | beforeMatch c =>
        rcases enter_failed _ _ c _ failed with ⟨-, other, -⟩ | ⟨-, ⟨_, other⟩, -⟩ | ⟨-, ⟨_, other⟩ | other⟩
        all_goals cases other
    | matchSuccess c =>
        obtain ⟨same, wrong⟩ := (exit_unbalanced _ _ true c level).mp failed
        exact ⟨⟨c, .inl rfl, same⟩, wrong⟩
    | matchFailure c =>
        obtain ⟨same, wrong⟩ := (exit_unbalanced _ _ false c level).mp failed
        exact ⟨⟨c, .inr rfl, same⟩, wrong⟩
    | afterParse result => cases finish_failed _ result _ failed
  · rintro ⟨⟨c, rfl | rfl, same⟩, wrong⟩
    · exact (exit_unbalanced { x with readings := x.readings + 1 } _ true c level).mpr ⟨same, wrong⟩
    · exact (exit_unbalanced { x with readings := x.readings + 1 } _ false c level).mpr ⟨same, wrong⟩

-- Levels are words, and a sum of words may wrap. No exit is let through then either, as one is refused where nothing is
-- open.
theorem unbalanced_exit_wrapped (h : Hook) (c : Call) (exits : h = .matchSuccess c ∨ h = .matchFailure c)
    (word : c.level ≤ Decimal.maxWord) (deep : x.depth ≤ Decimal.maxWord) :
    (listen clock x h).2 = some (.unbalancedExit c.level) ↔
      (c.level + 1) % (Decimal.maxWord + 1) ≠ x.depth ∨ x.depth = 0 := by
  rw [unbalanced_exit, and_iff_right ⟨c, exits, rfl⟩]
  rcases Nat.lt_or_eq_of_le word with below | largest
  · rw [Nat.mod_eq_of_lt (Nat.succ_lt_succ below)]
    omega
  · rw [largest, Nat.mod_self]
    omega

theorem refusal_untold (h : Hook) (e : TraceError) (refusal : e.IsRefusal) (failed : (listen clock x h).2 = some e) :
    (listen clock x h).1 = { x with readings := x.readings + 1 } := by
  cases h with
  | beforeParse c input => cases failed
  | beforeMatch c =>
      rcases enter_failed _ _ c e failed with ⟨-, -, same⟩ | ⟨-, -, same⟩ | ⟨-, ⟨_, rfl⟩ | rfl⟩
      · exact same
      · exact same
      · exact refusal.elim
      · exact refusal.elim
  | matchSuccess c =>
      rcases exit_failed _ _ true c e failed with ⟨-, -, same⟩ | rfl
      · exact same
      · exact refusal.elim
  | matchFailure c =>
      rcases exit_failed _ _ false c e failed with ⟨-, -, same⟩ | rfl
      · exact same
      · exact refusal.elim
  | afterParse result =>
      obtain rfl := finish_failed _ result e failed
      exact refusal.elim

end Listen

-- The events that were sent since the base was, and the enters among them that are not closed. While the recorder is
-- live, its open calls are these.
structure Since (base : List Message) (x : Recorder) (events : List Event) (left : List Event) : Prop where
  nests : ∃ count, Event.Nests 0 [] events count left ∧ (x.Live → x.nextNode = count)
  sent : x.sent = base ++ events.map .event ∨ x.closed = true ∧ x.sent = base ++ events.map .event ++ [.finish]
  calls : x.Live → Mirrors x.openCalls left

def Nesting (base : List Message) (x : Recorder) : Prop := ∃ events left, x.Since base events left

section Nesting

variable (base : List Message) (x t : Recorder)

theorem nesting_dead (nesting : x.Nesting base) (dead : ¬ t.Live) (sent : t.sent = x.sent)
    (closed : x.closed = true → t.closed = true) : t.Nesting base := by
  obtain ⟨events, left, since⟩ := nesting
  obtain ⟨count, nests, -⟩ := since.nests
  refine ⟨events, left, ⟨count, nests, fun live => absurd live dead⟩, ?_, fun live => absurd live dead⟩
  rw [sent]
  exact since.sent.imp_right fun ⟨ended, same⟩ => ⟨closed ended, same⟩

theorem nesting_event (nesting : x.Nesting base) (y : Recorder) (e : Event) (answer : Option TraceError)
    (outbox : y.outbox = x.outbox) (closed : y.closed = x.closed) (gone : y.writerGone = x.writerGone)
    (follows : ∀ left, Mirrors x.openCalls left → ∃ after,
      Event.Follows x.nextNode left e y.nextNode after ∧ Mirrors y.openCalls after)
    (step : y.send (.event e) = (t, answer)) : t.Nesting base := by
  rcases send_cases y t _ answer step with ⟨live, rfl, -⟩ | ⟨dead, rfl, -⟩
  · obtain ⟨events, left, since⟩ := nesting
    have before : x.Live := ⟨closed ▸ live.1, gone ▸ live.2⟩
    obtain ⟨count, nests, number⟩ := since.nests
    obtain ⟨after, next, mirrors⟩ := follows left (since.calls before)
    rw [number before] at next
    refine ⟨events ++ [e], after, ⟨y.nextNode, ?_, fun _ => rfl⟩, .inl ?_, fun _ => mirrors⟩
    · exact event_nests_append _ _ _ _ _ _ events [e] nests (event_nests_single _ _ _ _ e next)
    · rcases since.sent with told | ⟨ended, -⟩
      · rw [sent] at told ⊢
        rw [List.reverse_cons, outbox, told, List.map_append, List.append_assoc]
        rfl
      · rw [before.1] at ended
        cases ended
  · exact nesting_dead base x _ nesting dead (congrArg List.reverse outbox) fun ended => closed.trans ended

theorem nesting_start (calls : x.openCalls = []) (number : x.nextNode = 0) : x.Nesting x.sent :=
  ⟨[], [], ⟨0, .nil 0 [], fun _ => number⟩, .inl (List.append_nil _).symm, fun _ => calls ▸ .nil⟩

theorem nesting_enter (nesting : x.Nesting base) (now : Nat) (c : Call) : (x.enter now c).1.Nesting base := by
  rcases step : x.enter now c with ⟨t, answer⟩
  rcases enter_cases x t now c answer step with
    ⟨-, rfl, -⟩ | ⟨-, _, catalog, classifier, -, rfl, -⟩ | ⟨level, matcher, catalog, classifier, -, sent⟩
  · exact nesting
  · obtain ⟨events, left, since⟩ := nesting
    exact ⟨events, left, { since with }⟩
  · refine nesting_event base x t nesting (x.entered now c matcher catalog classifier) _ answer rfl rfl rfl
      (fun left mirrors => ?_) sent.symm
    exact ⟨_, entered_follows x now c matcher left level mirrors⟩

theorem nesting_exit (nesting : x.Nesting base) (now : Nat) (success : Bool) (c : Call) :
    (x.exit now success c).1.Nesting base := by
  rcases step : x.exit now success c with ⟨t, answer⟩
  rcases exit_cases x t now success c answer step with ⟨-, rfl, -⟩ | ⟨call, openCalls, calls, level, sent⟩
  · exact nesting
  · refine nesting_event base x t nesting { x with openCalls } _ answer rfl rfl rfl (fun left mirrors => ?_) sent.symm
    obtain ⟨top, rest, rfl, follows, below⟩ :=
      exited_follows x now success c call openCalls left calls level mirrors
    exact ⟨rest, follows, below⟩

theorem nesting_finish (nesting : x.Nesting base) (result : ParseResult) : (x.finish result).1.Nesting base := by
  rcases step : { x with result := some result }.send .finish with ⟨t, answer⟩
  have ended : (x.finish result).1 = { t with closed := true } := by rw [finish, step]
  have dead : ¬ Live { t with closed := true } := fun live => by cases live.1
  rw [ended]
  rcases send_cases _ t .finish answer step with ⟨live, rfl, -⟩ | ⟨-, rfl, -⟩
  · obtain ⟨events, left, since⟩ := nesting
    obtain ⟨count, nests, -⟩ := since.nests
    refine ⟨events, left, ⟨count, nests, fun live => absurd live dead⟩, .inr ⟨rfl, ?_⟩, fun live => absurd live dead⟩
    rcases since.sent with told | ⟨closed, -⟩
    · exact (List.reverse_cons).trans (congrArg (· ++ [Message.finish]) told)
    · cases live.1.symm.trans closed
  · exact nesting_dead base x _ nesting dead rfl fun _ => rfl

theorem nesting_listen (nesting : x.Nesting base) (clock : Nat → Clock) (h : Hook)
    (within : ∀ c input, h ≠ .beforeParse c input) : (listen clock x h).1.Nesting base := by
  have reading : Nesting base { x with readings := x.readings + 1 } := by
    obtain ⟨events, left, since⟩ := nesting
    exact ⟨events, left, { since with }⟩
  cases h with
  | beforeParse c input => exact absurd rfl (within c input)
  | beforeMatch c => exact nesting_enter base _ reading _ c
  | matchSuccess c => exact nesting_exit base _ reading _ true c
  | matchFailure c => exact nesting_exit base _ reading _ false c
  | afterParse result => exact nesting_finish base _ reading result

end Nesting

-- What can happen to a recorder. Its writer may end at any time, and then hears nothing any more.
inductive Turn where
  | hook (h : Hook)
  | writerEnds

def Turn.play (clock : Nat → Clock) (x : Recorder) : Turn → Recorder
  | .hook h => (listen clock x h).1
  | .writerEnds => { x with writerGone := true }

def Turn.Begins (a : Turn) : Prop := ∃ c input, a = .hook (.beforeParse c input)

def after (clock : Nat → Clock) (classifier : Classifier) (countsLines : Bool) (turns : List Turn) : Recorder :=
  turns.foldl (Turn.play clock) { classifier, countsLines }

section Turns

variable (clock : Nat → Clock)

theorem nesting_turn (base : List Message) (x : Recorder) (nesting : x.Nesting base) (a : Turn) (within : ¬ a.Begins) :
    (a.play clock x).Nesting base := by
  cases a with
  | hook h => exact nesting_listen base x nesting clock h fun c input same => within ⟨c, input, same ▸ rfl⟩
  | writerEnds => exact nesting_dead base x _ nesting nofun rfl id

theorem nesting_turns (base : List Message) (x : Recorder) (nesting : x.Nesting base) (turns : List Turn)
    (within : ∀ a ∈ turns, ¬ a.Begins) : (turns.foldl (Turn.play clock) x).Nesting base := by
  induction turns generalizing x with
  | nil => exact nesting
  | cons a turns ih =>
      exact ih _ (nesting_turn clock base x nesting a (within a List.mem_cons_self))
        fun b mem => within b (List.mem_cons_of_mem a mem)

variable (classifier : Classifier) (countsLines : Bool)

theorem nesting_after (front back : List Turn) (begun : front = [] ∨ ∃ before a, front = before ++ [a] ∧ a.Begins)
    (within : ∀ a ∈ back, ¬ a.Begins) :
    (after clock classifier countsLines (front ++ back)).Nesting (after clock classifier countsLines front).sent := by
  have told : after clock classifier countsLines (front ++ back) =
      back.foldl (Turn.play clock) (after clock classifier countsLines front) := List.foldl_append
  rw [told]
  refine nesting_turns clock _ _ ?_ back within
  rcases begun with rfl | ⟨before, _, rfl, c, input, rfl⟩
  · exact nesting_start _ rfl rfl
  · rw [after, List.foldl_append]
    exact nesting_start _ rfl rfl

/-- Whatever a recorder was told: it refuses a hook for its level just if the level is wrong, and a hook that is
refused for its level or for its class leaves no trace. What was sent since the last parse began, or from the start, is
the beginning of a sequence of nested events, with numbers from 0 on, and maybe the mark that no more will come.

A level is a word, and an exit is checked by its level and one. Where this sum wraps, the same exits are refused. Where
an overflow is an error, an exit at the largest level stops the program instead. -/
theorem events_nest_in_any_order (turns : List Turn) :
    let x := after clock classifier countsLines turns
    (∀ h level height, (listen clock x h).2 = some (.unbalancedEnter level height) ↔
      (∃ c, h = .beforeMatch c ∧ c.level = level) ∧ x.depth = height ∧ level ≠ height) ∧
    (∀ h level, (listen clock x h).2 = some (.unbalancedExit level) ↔
      (∃ c, (h = .matchSuccess c ∨ h = .matchFailure c) ∧ c.level = level) ∧ level + 1 ≠ x.depth) ∧
    (∀ h c, h = .matchSuccess c ∨ h = .matchFailure c → c.level ≤ Decimal.maxWord → x.depth ≤ Decimal.maxWord →
      ((listen clock x h).2 = some (.unbalancedExit c.level) ↔
        (c.level + 1) % (Decimal.maxWord + 1) ≠ x.depth ∨ x.depth = 0)) ∧
    (∀ h e, e.IsRefusal → (listen clock x h).2 = some e →
      (listen clock x h).1 = { x with readings := x.readings + 1 }) ∧
    ∀ front back, turns = front ++ back → (front = [] ∨ ∃ before a, front = before ++ [a] ∧ a.Begins) →
      (∀ a ∈ back, ¬ a.Begins) →
      ∃ (events more left : List Event) (count final : Nat),
        (x.sent = (after clock classifier countsLines front).sent ++ events.map .event ∨
          x.closed = true ∧
            x.sent = (after clock classifier countsLines front).sent ++ events.map .event ++ [.finish]) ∧
        Event.Nests 0 [] events count left ∧ Event.Nests 0 [] (events ++ more) final [] ∧
        (x.Live → x.nextNode = count ∧ Mirrors x.openCalls left) := by
  intro x
  refine ⟨unbalanced_enter clock x, unbalanced_exit clock x, unbalanced_exit_wrapped clock x, refusal_untold clock x, ?_⟩
  rintro front back rfl begun within
  obtain ⟨events, left, since⟩ := nesting_after clock classifier countsLines front back begun within
  obtain ⟨count, nests, number⟩ := since.nests
  obtain ⟨more, closes⟩ := nests_complete count left
  exact ⟨events, more, left, count, count, since.sent, nests, event_nests_append _ _ _ _ _ _ events more nests closes,
    fun live => ⟨number live, since.calls live⟩⟩

end Turns

example (clock : Nat → Clock) (r : Rule) :
    (listen clock { classifier := .builtIn } (.matchFailure ⟨r, 0, 0xFFFFFFFFFFFFFFFF⟩)).2 =
      some (.unbalancedExit 0xFFFFFFFFFFFFFFFF) := rfl

end Recorder

end MatchTrace
