import MatchTrace.Proofs.Archive.Read
import MatchTrace.Proofs.Match.Words
import MatchTrace.Proofs.Text.LineTable
import MatchTrace.Proofs.Trace.Nesting
import MatchTrace.Text.Units

/-!
The numbers that a recorder tells. Every event has a number below the count of invocations, an earlier
one for its parent, and words for the rest, so what a table says of it can be read back.
-/

namespace MatchTrace

set_option autoImplicit false

theorem line_count_within (t : Input) : t.lineTable.lineCount ≤ t.length + 1 := by
  rw [line_feeds]
  exact Nat.succ_le_succ List.count_le_length

theorem unit_count_within (cs : List Char) : unitCount cs ≤ 2 * cs.length := by
  induction cs with
  | nil => exact Nat.le_refl 0
  | cons c cs ih =>
      have width : unitWidth c ≤ 2 := by
        rw [unitWidth]
        split
        · exact Nat.le_succ 1
        · exact Nat.le_refl 2
      simp only [unitCount, List.map_cons, List.foldr_cons, List.length_cons] at ih ⊢
      omega

structure OpenCall.Fits (count : Nat) (call : OpenCall) : Prop where
  number : call.nodeId < count
  parent_low : -1 ≤ call.parentId
  parent_high : call.parentId < count
  matcher : call.matcher.Fits
  start : call.startOffset ≤ Decimal.maxWord

structure Event.Fits (count : Nat) (e : Event) : Prop where
  number : e.nodeId < count
  parent_low : -1 ≤ e.parentId
  parent_high : e.parentId < count
  level : e.level < count
  matcher : e.matcher.Fits
  start : e.startOffset ≤ Decimal.maxWord
  stop : e.offset ≤ Decimal.maxWord
  timestamp : e.timestampNanos ≤ Decimal.maxWord
  elapsed : ∀ n, e.elapsedNanos = some n → n ≤ Decimal.maxWord

theorem call_fits_later (count later : Nat) (call : OpenCall) (fits : call.Fits count) (grown : count ≤ later) :
    call.Fits later :=
  { fits with
    number := Nat.lt_of_lt_of_le fits.number grown
    parent_high := Int.lt_of_lt_of_le fits.parent_high (Int.ofNat_le.mpr grown) }

theorem event_fits_later (count later : Nat) (e : Event) (fits : e.Fits count) (grown : count ≤ later) :
    e.Fits later :=
  { fits with
    number := Nat.lt_of_lt_of_le fits.number grown
    level := Nat.lt_of_lt_of_le fits.level grown
    parent_high := Int.lt_of_lt_of_le fits.parent_high (Int.ofNat_le.mpr grown) }

structure Catalog.Fits (x : Catalog) : Prop where
  size : x.size ≤ Decimal.maxHalf + 1
  ids : ∀ d ∈ x.descriptors, d.Fits

theorem resolve_fits (x : Catalog) (k : Classifier) (r : Rule) (d : Descriptor) (catalog : Catalog)
    (classifier : Classifier) (fits : x.Fits) (resolved : x.resolve k r = (.ok d, catalog, classifier)) :
    d.Fits ∧ catalog.Fits := by
  cases Catalog.resolves _ _ _ _ _ _ resolved with
  | known _ held => exact ⟨fits.ids d (Catalog.get_mem x r d held), fits⟩
  | fresh category _ _ _ room =>
      have size : (x.rows ++ [(r.id, x.describe r category)]).length ≤ Decimal.maxHalf + 1 := by
        rw [List.length_append]
        exact Nat.succ_le_succ room
      refine ⟨room, size, fun d mem => ?_⟩
      simp only [Catalog.descriptors, List.map_append, List.map_cons, List.map_nil, List.mem_append,
        List.mem_singleton] at mem
      rcases mem with mem | rfl
      · exact fits.ids d mem
      · exact room

namespace Recorder

-- What holds between two hooks of a parse: every number fits, and for every invocation there are
-- two events, sent or to come.
structure Sound (x : Recorder) : Prop where
  length : x.inputLength ≤ Decimal.maxWord
  time : x.startTimeMillis ≤ Decimal.maxWord
  lines : ∀ n, x.lineCount = some n → n ≤ Decimal.maxWord
  catalog : x.catalog.Fits
  calls : ∀ call ∈ x.openCalls, call.Fits x.nextNode
  depth : x.openCalls.length ≤ x.nextNode
  events : ∀ e, .event e ∈ x.outbox → e.Fits x.nextNode
  count : x.outbox.length + x.openCalls.length ≤ 2 * x.nextNode + if x.closed then 1 else 0

theorem parent_fits (count : Nat) (calls : List OpenCall) (fits : ∀ call ∈ calls, call.Fits count) :
    -1 ≤ parentOf calls ∧ parentOf calls < (count + 1 : Nat) := by
  cases calls with
  | nil => exact ⟨Int.le_refl (-1), by simp only [parentOf, rootParent]; omega⟩
  | cons call calls =>
      have number := (fits call List.mem_cons_self).number
      simp only [parentOf]
      omega

theorem nanos_word (earlier later : Nat) : nanosBetween earlier later ≤ Decimal.maxWord := Nat.min_le_right _ _

theorem enter_sound (x t : Recorder) (now : Nat) (c : Call) (sound : x.Sound) (step : x.enter now c = (t, none)) :
    t.Sound := by
  rcases enter_cases x t now c none step with
    ⟨-, -, refused⟩ | ⟨-, _, _, _, -, -, refused⟩ | ⟨level, matcher, catalog, classifier, resolved, sent⟩
  · cases refused
  · cases refused
  obtain rfl := send_sent _ t _ sent.symm
  obtain ⟨matcherFits, catalogFits⟩ := resolve_fits _ _ _ matcher catalog classifier sound.catalog resolved
  obtain ⟨low, high⟩ := parent_fits x.nextNode x.openCalls sound.calls
  have clamped : min c.index x.inputLength ≤ Decimal.maxWord := Nat.le_trans (Nat.min_le_right _ _) sound.length
  have grown : x.nextNode ≤ x.nextNode + 1 := Nat.le_succ _
  have fits : (x.enterEvent now c matcher).Fits (x.nextNode + 1) :=
    { number := Nat.lt_succ_self _
      parent_low := low
      parent_high := high
      level := Nat.lt_succ_of_le (Nat.le_trans (Nat.le_of_eq level) sound.depth)
      matcher := matcherFits
      start := clamped
      stop := clamped
      timestamp := nanos_word _ _
      elapsed := fun _ none => nomatch none }
  refine ⟨sound.length, sound.time, sound.lines, catalogFits, ?_, ?_, ?_, ?_⟩
  · intro call mem
    rcases List.mem_cons.mp mem with rfl | mem
    · exact ⟨Nat.lt_succ_self _, low, high, matcherFits, clamped⟩
    · exact call_fits_later _ _ call (sound.calls call mem) grown
  · exact Nat.succ_le_succ sound.depth
  · intro e mem
    rcases List.mem_cons.mp mem with same | mem
    · cases same
      exact fits
    · exact event_fits_later _ _ e (sound.events e mem) grown
  · have count := sound.count
    change x.outbox.length + 1 + (x.openCalls.length + 1) ≤ 2 * (x.nextNode + 1) + if x.closed then 1 else 0
    omega

theorem exit_sound (x t : Recorder) (now : Nat) (success : Bool) (c : Call) (sound : x.Sound)
    (word : c.index ≤ Decimal.maxWord) (step : x.exit now success c = (t, none)) : t.Sound := by
  rcases exit_cases x t now success c none step with ⟨-, -, refused⟩ | ⟨call, openCalls, calls, level, sent⟩
  · cases refused
  obtain rfl := send_sent _ t _ sent.symm
  have opened := sound.calls
  have depth := sound.depth
  have count := sound.count
  rw [calls] at opened depth count
  have callFits := opened call List.mem_cons_self
  have fits : (x.exitEvent now success c call).Fits x.nextNode :=
    { callFits with
      level := Nat.lt_of_lt_of_le (Nat.lt_succ_of_le (Nat.le_of_eq level)) depth
      stop := by
        cases success with
        | true => exact Nat.le_trans (Nat.min_le_left _ _) word
        | false => exact word
      timestamp := nanos_word _ _
      elapsed := by
        rintro n same
        cases same
        exact nanos_word _ _ }
  refine ⟨sound.length, sound.time, sound.lines, sound.catalog,
    fun call mem => opened call (List.mem_cons_of_mem _ mem), Nat.le_of_succ_le depth, ?_, ?_⟩
  · intro e mem
    rcases List.mem_cons.mp mem with same | mem
    · cases same
      exact fits
    · exact sound.events e mem
  · simp only [List.length_cons] at count ⊢
    omega

theorem finish_sound (x t : Recorder) (result : ParseResult) (sound : x.Sound)
    (step : x.finish result = (t, none)) : t.Sound := by
  rcases sent : { x with result := some result }.send .finish with ⟨y, answer⟩
  simp only [finish, sent, Prod.mk.injEq] at step
  obtain ⟨rfl, rfl⟩ := step
  have notClosed : x.closed = false := by
    cases closed : x.closed with
    | true => simp [send, closed] at sent
    | false => rfl
  obtain rfl := send_sent _ y _ sent
  have count := sound.count
  rw [notClosed] at count
  refine ⟨sound.length, sound.time, sound.lines, sound.catalog, sound.calls, sound.depth, ?_, ?_⟩
  · intro e mem
    rcases List.mem_cons.mp mem with same | mem
    · cases same
    · exact sound.events e mem
  · simp only [List.length_cons, if_true, Bool.false_eq_true, if_false] at count ⊢
    omega

theorem listen_sound (clock : Nat → Clock) (x t : Recorder) (h : Hook) (sound : x.Sound) (word : h.AtWord)
    (step : listen clock x h = (t, none)) : t.Sound := by
  have reading : { x with readings := x.readings + 1 }.Sound := { sound with }
  cases h with
  | beforeParse c input => exact word.elim
  | beforeMatch c => exact enter_sound _ t _ c reading step
  | matchSuccess c => exact exit_sound _ t _ true c reading word step
  | matchFailure c => exact exit_sound _ t _ false c reading word step
  | afterParse result => exact finish_sound _ t result reading step

theorem announce_sound (clock : Nat → Clock) (hooks : List Hook) (x t : Recorder) (sound : x.Sound)
    (words : ∀ h ∈ hooks, h.AtWord) (told : announce (listen clock) x hooks = (t, none)) : t.Sound := by
  induction hooks generalizing x with
  | nil =>
      cases told
      exact sound
  | cons h hs ih =>
      obtain ⟨y, step, told⟩ := announce_cons (listen clock) x t h hs told
      exact ih y (listen_sound clock x y h sound (words h List.mem_cons_self) step)
        (fun k mem => words k (List.mem_cons_of_mem h mem)) told

theorem parse_sound (fuel : Nat) (g : Grammar) (input : Input) (clock : Nat → Clock) (classifier : Classifier)
    (countsLines : Bool) (t : Recorder) (run : Run) (room : input.length < Decimal.maxWord)
    (noted : g.runWith fuel input = some run)
    (told : announce (listen clock) { classifier, countsLines } run.hooks = (t, none)) : t.Sound := by
  obtain ⟨hooks, same, words⟩ := run_words fuel g input run room noted
  rw [same] at told
  obtain ⟨y, start, told⟩ := announce_cons (listen clock) _ t _ _ told
  cases start
  refine announce_sound clock hooks _ t ?_ words told
  refine ⟨Nat.le_of_lt room, Nat.min_le_right _ _, ?_, ⟨Nat.zero_le _, by simp [start, Catalog.descriptors]⟩,
    by simp [start], Nat.le_refl 0, by simp [start], Nat.le_refl 0⟩
  rintro n counted
  cases countsLines with
  | false => cases counted
  | true =>
      cases counted
      exact Nat.le_trans (line_count_within input) room

end Recorder

theorem event_holds (count : Nat) (e : Event) (fits : e.Fits count) (bound : count < 2 ^ 63) :
    e.entry.Fits ∧ ∀ r, e.finishedCall? = some r → r.Fits := by
  have low := fits.parent_low
  have high := fits.parent_high
  have word (n : Nat) (below : n < count) : n ≤ Decimal.maxWord := by
    simp only [Decimal.maxWord]
    omega
  refine ⟨⟨fits.timestamp, fits.stop, fits.matcher, word _ fits.level, word _ fits.number, ?_, ?_, fits.elapsed⟩, ?_⟩
  · change -2 ^ 63 ≤ e.parentId
    omega
  · change e.parentId < 2 ^ 63
    omega
  · intro r finished
    rw [Event.finishedCall?] at finished
    split at finished
    · next elapsed same =>
        split at finished
        · cases finished
          refine ⟨?_, ?_, word _ fits.number, word _ fits.level, fits.matcher, fits.start, fits.stop,
            fits.elapsed elapsed same⟩
          · change -2 ^ 63 ≤ e.parentId
            omega
          · change e.parentId < 2 ^ 63
            omega
        · cases finished
    · cases finished

end MatchTrace
