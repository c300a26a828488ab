import Mathlib.Data.Nat.Find
import MatchTrace.Demo
import MatchTrace.Proofs.Match.Announce

/-!
Many listeners beside each other. All of them are told the hooks of the run, in order, up to the first one
that any of them fails at, and no run goes another way because it is listened to.
-/

namespace MatchTrace

set_option autoImplicit false

namespace Listener

variable {ε σ : Type} (l : Listener ε σ)

def noting : Listener ε (List Hook) := fun heard h => (heard ++ [h], none)

def after (s : σ) (hooks : List Hook) : σ := hooks.foldl (fun s h => (l s h).1) s

def failure? (s : σ) (hooks : List Hook) (place : Nat) : Option ε :=
  hooks[place]?.bind fun h => (l (l.after s (hooks.take place)) h).2

theorem each_step (states : List σ) (h : Hook) :
    each l states h = (states.map fun s => (l s h).1, states.findSome? fun s => (l s h).2) := by
  simp only [each, List.map_map, List.findSome?_map]
  rfl

end Listener

section Announce

variable {ε σ : Type} (l : Listener ε σ)

theorem announce_noting (heard hooks : List Hook) :
    announce (Listener.noting (ε := ε)) heard hooks = (heard ++ hooks, none) := by
  induction hooks generalizing heard with
  | nil => simp [announce]
  | cons h hs ih =>
      rw [announce_heard _ heard (heard ++ [h]) h hs rfl, ih]
      simp

theorem announce_willing (states : List σ) (hooks : List Hook)
    (willing : ∀ s ∈ states, ∀ place, l.failure? s hooks place = none) :
    announce (Listener.each l) states hooks = (states.map fun s => l.after s hooks, none) := by
  induction hooks generalizing states with
  | nil => simp [announce, Listener.after]
  | cons h hs ih =>
      have silent : (states.findSome? fun s => (l s h).2) = none :=
        List.findSome?_eq_none_iff.mpr fun s mem => willing s mem 0
      have later : ∀ s ∈ states.map fun s => (l s h).1, ∀ place, l.failure? s hs place = none := by
        intro t moved place
        obtain ⟨s, mem, rfl⟩ := List.mem_map.mp moved
        exact willing s mem (place + 1)
      rw [announce_heard _ states _ h hs (silent ▸ Listener.each_step l states h), ih _ later, List.map_map]
      rfl

theorem announce_failing (states : List σ) (hooks : List Hook) (place : Nat) (e : ε)
    (before : ∀ earlier < place, ∀ s ∈ states, l.failure? s hooks earlier = none)
    (first : (states.findSome? fun s => l.failure? s hooks place) = some e) :
    announce (Listener.each l) states hooks =
      (states.map fun s => l.after s (hooks.take (place + 1)), some e) := by
  induction hooks generalizing states place with
  | nil =>
      obtain ⟨s, -, fails⟩ := List.exists_of_findSome?_eq_some first
      cases fails
  | cons h hs ih =>
      cases place with
      | zero => exact announce_refused _ states _ h hs e (first ▸ Listener.each_step l states h)
      | succ place =>
          have silent : (states.findSome? fun s => (l s h).2) = none :=
            List.findSome?_eq_none_iff.mpr fun s mem => before 0 (Nat.zero_lt_succ place) s mem
          have earlier : ∀ earlier < place, ∀ s ∈ states.map fun s => (l s h).1, l.failure? s hs earlier = none := by
            intro earlier less t moved
            obtain ⟨s, mem, rfl⟩ := List.mem_map.mp moved
            exact before (earlier + 1) (Nat.succ_lt_succ less) s mem
          have later : ((states.map fun s => (l s h).1).findSome? fun s => l.failure? s hs place) = some e := by
            rw [List.findSome?_map]
            exact first
          rw [announce_heard _ states _ h hs (silent ▸ Listener.each_step l states h), ih _ place earlier later,
            List.map_map]
          rfl

end Announce

theorem noting_invoke {ε : Type} (s : Environment) (fuel level : Nat) (r : Rule) (i : Nat) (stream : List Hook) :
    invoke (.heard (Listener.noting (ε := ε))) s fuel level r i stream =
      (invoke .noted s fuel level r i).map fun trail => (stream ++ trail.hooks, trail.ending.mapError .rule) := by
  simp only [obliging_invoke Listener.noting (fun _ _ => rfl), announce_noting]

theorem noting_heard {ε : Type} (fuel : Nat) (g : Grammar) (input : Input) :
    g.heardWith (ε := ε) fuel input .noting [] =
      (g.runWith fuel input).map fun run => (run.hooks, run.outcome.mapError .rule) := by
  simp only [obliging_heard Listener.noting (fun _ _ => rfl), announce_noting, List.nil_append]

theorem noting_run {ε : Type} (fuel : Nat) (g : Grammar) (input : Input) (stream : List Hook)
    (outcome : Except (RunError ε) ParseResult)
    (delivered : g.heardWith fuel input .noting [] = some (stream, outcome)) :
    ∃ run, g.runWith fuel input = some run ∧ run.hooks = stream ∧ run.outcome.mapError .rule = outcome := by
  rw [noting_heard] at delivered
  obtain ⟨run, noted, same⟩ := Option.map_eq_some_iff.mp delivered
  cases same
  exact ⟨run, noted, rfl, rfl⟩

-- One of many listeners, with the state it is in and the hooks it has been told. Those of one audience may be
-- of several kinds, each with states of its own.
structure Hearer (ε : Type) {κ : Type} (σ : κ → Type) where
  kind : κ
  answer : Listener ε (σ kind)
  state : σ kind
  heard : List Hook := []

namespace Hearer

variable {ε κ : Type} {σ : κ → Type}

def listen : Listener ε (Hearer ε σ) := fun p h =>
  ({ p with state := (p.answer p.state h).1, heard := p.heard ++ [h] }, (p.answer p.state h).2)

def told (p : Hearer ε σ) (hooks : List Hook) : Hearer ε σ :=
  { p with state := p.answer.after p.state hooks, heard := p.heard ++ hooks }

def failure? (p : Hearer ε σ) (hooks : List Hook) (place : Nat) : Option ε := p.answer.failure? p.state hooks place

theorem listen_after (p : Hearer ε σ) (hooks : List Hook) : listen.after p hooks = p.told hooks := by
  induction hooks generalizing p with
  | nil => simp [Listener.after, told]
  | cons h hs ih =>
      rw [Listener.after, List.foldl_cons, ← Listener.after, ih]
      simp [listen, told, Listener.after]

theorem listen_failure (p : Hearer ε σ) (hooks : List Hook) (place : Nat) :
    listen.failure? p hooks place = p.failure? hooks place := by
  simp only [Listener.failure?, listen_after, failure?]
  rfl

end Hearer

theorem first_failure {ε κ : Type} {σ : κ → Type} (audience : List (Hearer ε σ)) (stream : List Hook)
    (failing : ∃ p ∈ audience, ∃ place, p.failure? stream place ≠ none) :
    ∃ place before p after e, audience = before ++ p :: after ∧ p.failure? stream place = some e ∧
      (∀ q ∈ before, q.failure? stream place = none) ∧
      ∀ earlier < place, ∀ q ∈ audience, q.failure? stream earlier = none := by
  classical
  obtain ⟨p, mem, place, fails⟩ := failing
  have somewhere : ∃ place, ∃ p ∈ audience, p.failure? stream place ≠ none := ⟨place, p, mem, fails⟩
  have least := Nat.find_spec somewhere
  have earlier := fun place less => Nat.find_min somewhere (m := place) less
  generalize Nat.find somewhere = first at least earlier
  obtain ⟨q, mem, fails⟩ := least
  cases found : audience.findSome? (·.failure? stream first) with
  | none => exact absurd (List.findSome?_eq_none_iff.mp found q mem) fails
  | some e =>
      obtain ⟨before, p, after, split, answer, silent⟩ := List.findSome?_eq_some_iff.mp found
      refine ⟨first, before, p, after, e, split, answer, silent, fun place less q mem => ?_⟩
      exact not_not.mp fun fails => earlier place less ⟨q, mem, fails⟩

/-- Let `stream` be what a run delivers to a listener that never fails. If none of an audience fails on it, the run
has the outcome it has without listeners, and all have been told the whole stream. Otherwise there is a first place
at which one fails, all have been told the stream up to and with that place, and the run ends with the error of the
first one to fail there. -/
theorem audience_hears_one_stream {ε κ : Type} {σ : κ → Type} (fuel : Nat) (g : Grammar) (input : Input)
    (stream : List Hook) (outcome : Except (RunError ε) ParseResult)
    (delivered : g.heardWith fuel input .noting [] = some (stream, outcome)) (audience : List (Hearer ε σ)) :
    g.heardWith fuel input (.each Hearer.listen) ([] : List (Hearer ε σ)) = some ([], outcome) ∧
    ((∀ p ∈ audience, ∀ place, p.failure? stream place = none) →
      g.heardWith fuel input (.each Hearer.listen) audience = some (audience.map (·.told stream), outcome)) ∧
    ((∃ p ∈ audience, ∃ place, p.failure? stream place ≠ none) →
      ∃ place before p after e, audience = before ++ p :: after ∧ p.failure? stream place = some e ∧
        (∀ q ∈ before, q.failure? stream place = none) ∧
        (∀ earlier < place, ∀ q ∈ audience, q.failure? stream earlier = none) ∧
        g.heardWith fuel input (.each Hearer.listen) audience =
          some (audience.map (·.told (stream.take (place + 1))), .error (.listener e))) := by
  obtain ⟨run, noted, rfl, rfl⟩ := noting_run fuel g input stream outcome delivered
  have whole (audience : List (Hearer ε σ)) (willing : ∀ p ∈ audience, ∀ place, p.failure? run.hooks place = none) :
      g.heardWith fuel input (.each Hearer.listen) audience =
        some (audience.map (·.told run.hooks), run.outcome.mapError .rule) := by
    rw [heard_of_noted fuel g input run noted, relay, announce_willing]
    · simp only [Hearer.listen_after]
    · intro p mem place
      rw [Hearer.listen_failure]
      exact willing p mem place
  refine ⟨whole [] (by simp), whole audience, fun failing => ?_⟩
  obtain ⟨place, before, p, after, e, split, fails, silent, earlier⟩ := first_failure audience run.hooks failing
  refine ⟨place, before, p, after, e, split, fails, silent, earlier, ?_⟩
  rw [heard_of_noted fuel g input run noted, relay, announce_failing Hearer.listen audience run.hooks place e]
  · simp only [Hearer.listen_after]
  · intro place less q mem
    rw [Hearer.listen_failure]
    exact earlier place less q mem
  · simp only [Hearer.listen_failure]
    exact List.findSome?_eq_some_iff.mpr ⟨before, p, after, split, fails, silent⟩

namespace Demo

def countdown (name : String) : Listener String Nat := fun left _ => (left - 1, if left = 0 then some name else none)

abbrev Counter : Bool → Type
  | true => Nat
  | false => Unit

def audience : List (Hearer String Counter) :=
  [⟨false, .deaf, (), []⟩, ⟨true, countdown "second", (3 : Nat), []⟩, ⟨true, countdown "third", (3 : Nat), []⟩]

end Demo

theorem lines_audience_hears_one_stream :
    ∃ stream outcome place, Demo.lines.heardWith (ε := String) 7 (.ofString "a\nb") .noting [] = some (stream, outcome) ∧
      (stream.take (place + 1)).length = 4 ∧
      Demo.lines.heardWith 7 (.ofString "a\nb") (.each Hearer.listen) Demo.audience =
        some (Demo.audience.map (·.told (stream.take (place + 1))), .error (.listener "second")) := by
  have evaluated : (Demo.lines.heardWith 7 (.ofString "a\nb") (.each Hearer.listen) Demo.audience).map
      (fun r => (r.1.map (·.heard.length), listenerFailure? r.2)) = some ([4, 4, 4], some "second") := by decide +kernel
  rcases delivered : Demo.lines.heardWith (ε := String) 7 (.ofString "a\nb") .noting [] with _ | ⟨stream, outcome⟩
  · exact absurd (congrArg Option.isSome delivered) (by decide +kernel)
  obtain ⟨-, willing, failing⟩ :=
    audience_hears_one_stream 7 Demo.lines (.ofString "a\nb") stream outcome delivered Demo.audience
  by_cases silent : ∀ p ∈ Demo.audience, ∀ place, p.failure? stream place = none
  · obtain ⟨run, -, -, rfl⟩ := noting_run 7 Demo.lines (.ofString "a\nb") stream outcome delivered
    rw [willing silent, Option.map_some, Option.some.injEq, Prod.mk.injEq] at evaluated
    obtain ⟨-, named⟩ := evaluated
    cases ended : run.outcome with
    | ok result =>
        rw [ended] at named
        cases named
    | error e =>
        rw [ended] at named
        cases named
  · obtain ⟨place, before, p, after, e, -, -, -, -, heard⟩ := failing (by simpa using silent)
    rw [heard, Option.map_some, Option.some.injEq, Prod.mk.injEq] at evaluated
    obtain ⟨told, named⟩ := evaluated
    cases named
    have length : (stream.take (place + 1)).length = 4 := (List.cons.inj told).1
    exact ⟨stream, outcome, place, rfl, length, heard⟩

end MatchTrace
