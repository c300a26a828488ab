import MatchTrace.Proofs.Trace.Forest

/-!
What a recorder tells apart from times. Two recorders with different clocks that hear the same hooks tell the
same points of the same calls.
-/

namespace MatchTrace

set_option autoImplicit false

def Event.timeless (e : Event) : Event :=
  { e with timestampNanos := 0, elapsedNanos := e.elapsedNanos.map fun _ => 0 }

def Message.timeless : Message → Message
  | .event e => .event e.timeless
  | .finish => .finish

def OpenCall.timeless (call : OpenCall) : OpenCall := { call with opened := 0 }

namespace Recorder

def timeless (x : Recorder) : Recorder :=
  { x with
    openCalls := x.openCalls.map OpenCall.timeless, origin := 0, startTimeMillis := 0
    outbox := x.outbox.map Message.timeless }

def stopped : Nat → Clock := fun _ => ⟨0, 0⟩

theorem send_timeless (x : Recorder) (m : Message) :
    x.timeless.send m.timeless = ((x.send m).1.timeless, (x.send m).2) := by
  have same : (x.timeless.closed || x.timeless.writerGone) = (x.closed || x.writerGone) := rfl
  rw [send, send, same]
  by_cases refused : (x.closed || x.writerGone) = true
  · rw [if_pos refused, if_pos refused]
  · rw [if_neg refused, if_neg refused]
    rfl

theorem parent_timeless (calls : List OpenCall) : parentOf (calls.map OpenCall.timeless) = parentOf calls := by
  cases calls <;> rfl

theorem enter_timeless (x : Recorder) (now : Nat) (c : Call) :
    x.timeless.enter 0 c = ((x.enter now c).1.timeless, (x.enter now c).2) := by
  have depth : x.timeless.depth = x.depth := List.length_map _
  have parent : parentOf x.timeless.openCalls = parentOf x.openCalls := parent_timeless x.openCalls
  have catalog : x.timeless.catalog.resolve x.timeless.classifier c.rule = x.catalog.resolve x.classifier c.rule := rfl
  rw [enter, enter, depth, catalog]
  by_cases level : c.level ≠ x.depth
  · rw [if_pos level, if_pos level]
  · rw [if_neg level, if_neg level]
    rcases x.catalog.resolve x.classifier c.rule with ⟨e | matcher, catalog, classifier⟩
    · rfl
    · dsimp only
      rw [parent]
      exact send_timeless (x.entered now c matcher catalog classifier) (.event (x.enterEvent now c matcher))

theorem exit_timeless (x : Recorder) (now : Nat) (success : Bool) (c : Call) :
    x.timeless.exit 0 success c = ((x.exit now success c).1.timeless, (x.exit now success c).2) := by
  have calls : x.timeless.openCalls = x.openCalls.map OpenCall.timeless := rfl
  rw [exit, exit, calls]
  cases opened : x.openCalls with
  | nil => simp only [List.map_nil]
  | cons call openCalls =>
      simp only [List.map_cons, List.length_map]
      by_cases level : c.level = openCalls.length
      · rw [if_pos level, if_pos level]
        exact send_timeless { x with openCalls } (.event (x.exitEvent now success c call))
      · rw [if_neg level, if_neg level]

theorem finish_timeless (x : Recorder) (result : ParseResult) :
    x.timeless.finish result = ((x.finish result).1.timeless, (x.finish result).2) := by
  have sent := send_timeless { x with result := some result } .finish
  change { x.timeless with result := some result }.send .finish = _ at sent
  rw [finish, finish, sent]
  rfl

theorem listen_timeless (clock : Nat → Clock) (x : Recorder) (h : Hook) :
    listen stopped x.timeless h = ((listen clock x h).1.timeless, (listen clock x h).2) := by
  let y : Recorder := { x with readings := x.readings + 1 }
  cases h with
  | beforeParse c input => rfl
  | beforeMatch c => exact enter_timeless y (clock x.readings).nanos c
  | matchSuccess c => exact exit_timeless y (clock x.readings).nanos true c
  | matchFailure c => exact exit_timeless y (clock x.readings).nanos false c
  | afterParse result => exact finish_timeless y result

theorem announce_timeless (clock : Nat → Clock) (x : Recorder) (hooks : List Hook) :
    announce (listen stopped) x.timeless hooks =
      ((announce (listen clock) x hooks).1.timeless, (announce (listen clock) x hooks).2) := by
  induction hooks generalizing x with
  | nil => rfl
  | cons h hs ih =>
      have step := listen_timeless clock x h
      rcases heard : listen clock x h with ⟨t, _ | e⟩
      · rw [heard] at step
        rw [announce_heard _ _ _ h hs step, announce_heard _ _ _ h hs heard]
        exact ih t
      · rw [heard] at step
        rw [announce_refused _ _ _ h hs e step, announce_refused _ _ _ h hs e heard]

theorem same_points (first second : Nat → Clock) (x y t u : Recorder) (hooks : List Hook) (es fs : List Event)
    (alike : x.timeless = y.timeless) (told : announce (listen first) x hooks = (t, none))
    (retold : announce (listen second) y hooks = (u, none)) (sent : t.sent = es.map .event ++ [.finish])
    (resent : u.sent = fs.map .event ++ [.finish]) :
    es.map Event.point = fs.map Event.point ∧ t.nextNode = u.nextNode := by
  have left := announce_timeless first x hooks
  have right := announce_timeless second y hooks
  rw [told] at left
  rw [retold, ← alike, left] at right
  have same : t.timeless = u.timeless := congrArg Prod.fst right
  have messages : t.sent.map Message.timeless = u.sent.map Message.timeless := by
    have outboxes : t.outbox.map Message.timeless = u.outbox.map Message.timeless := congrArg outbox same
    rw [Recorder.sent, Recorder.sent, List.map_reverse, List.map_reverse, outboxes]
  have number : t.timeless.nextNode = u.timeless.nextNode := congrArg nextNode same
  refine ⟨?_, number⟩
  rw [sent, resent, List.map_append, List.map_append] at messages
  have events := List.append_cancel_right messages
  have point (e : Event) : e.timeless.point = e.point := rfl
  have points := congrArg (List.filterMap fun m => match m with
    | .event e => some (Event.point e)
    | .finish => none) events
  simp only [List.map_map, List.filterMap_map, Function.comp_def, Message.timeless, point] at points
  simpa only [List.filterMap_eq_map'] using points

end Recorder

end MatchTrace
