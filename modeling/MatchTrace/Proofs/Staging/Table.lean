import MatchTrace.Proofs.Json.Record
import MatchTrace.Proofs.Staging.Gather
import MatchTrace.Staging.Table

/-!
The text of a finished table: the pieces of its events between its first and its last ones, with
nothing lost in the buffer.
-/

namespace MatchTrace

set_option autoImplicit false

namespace TableDraft

def bodyPieces (layout : Layout) (isFirst : Bool) : List Event → List (List Char)
  | [] => []
  | e :: es => eventPieces layout isFirst e ++ bodyPieces layout false es

theorem put_at_ok (step : Step) (g h : Gather) (pieces : List (List Char)) (put : putAt step g pieces = .ok h) :
    g.putAll pieces = .ok h := by
  rw [putAt] at put
  split at put
  · next k put' =>
      cases put
      exact put'
  · cases put

theorem start_chars (faults : Faults) (layout : Layout) (limit : Option Nat) (w : TableDraft)
    (started : start faults layout limit = .ok w) :
    w.layout = layout ∧ w.eventCount = 0 ∧ w.nodeCount = 0 ∧ w.gather.chars = (openingPieces layout).flatten ∧
      w.gather.Counted := by
  obtain ⟨_, _, ran⟩ := bind_ok _ _ _ started
  obtain ⟨g, put, ran⟩ := bind_ok _ _ _ ran
  obtain ⟨chars, counted⟩ := Gather.put_all_chars { room := limit } g (openingPieces layout) rfl (put_at_ok _ _ _ _ put)
  cases ran
  exact ⟨rfl, rfl, rfl, chars, counted⟩

theorem add_chars (faults : Faults) (w x : TableDraft) (e : Event) (counted : w.gather.Counted)
    (added : w.add faults e = .ok x) :
    x.layout = w.layout ∧ x.eventCount = w.eventCount + 1 ∧
      x.nodeCount = w.nodeCount + (if e.phase = .enter then 1 else 0) ∧
      x.gather.chars = w.gather.chars ++ (eventPieces w.layout (w.eventCount == 0) e).flatten ∧ x.gather.Counted := by
  obtain ⟨_, _, ran⟩ := bind_ok _ _ _ added
  obtain ⟨g, put, ran⟩ := bind_ok _ _ _ ran
  obtain ⟨chars, counted⟩ := Gather.put_all_chars _ g _ counted (put_at_ok _ _ _ _ put)
  cases ran
  exact ⟨rfl, rfl, rfl, chars, counted⟩

theorem finish_chars (faults : Faults) (w : TableDraft) (t : Table) (counted : w.gather.Counted)
    (finished : w.finish faults = .ok t) :
    t.layout = w.layout ∧ t.eventCount = w.eventCount ∧ t.nodeCount = w.nodeCount ∧
      t.text.toList = w.gather.chars ++ (closingPieces w.layout).flatten := by
  obtain ⟨_, _, ran⟩ := bind_ok _ _ _ finished
  obtain ⟨g, put, ran⟩ := bind_ok _ _ _ ran
  obtain ⟨chars, _⟩ := Gather.put_all_chars _ g _ counted (put_at_ok _ _ _ _ put)
  obtain ⟨h, out, ran⟩ := bind_ok _ _ _ ran
  obtain ⟨_, _, ran⟩ := bind_ok _ _ _ ran
  obtain ⟨_, _, ran⟩ := bind_ok _ _ _ ran
  cases ran
  refine ⟨rfl, rfl, rfl, ?_⟩
  rw [flush] at out
  split at out
  · next k flushed =>
      cases out
      obtain ⟨same, empty, _⟩ := Gather.flush_chars g h flushed
      rw [Gather.text_chars h empty, same, chars]
  · cases out

end TableDraft

theorem take_all_stopped (faults : Faults) (p : Progress) (messages : List Message) (stopped : p.hasStopped = true) :
    p.takeAll faults messages = p := by
  induction messages with
  | nil => rfl
  | cons m ms ih =>
      cases p with
      | running w => cases stopped
      | finished t => exact ih
      | failed f => exact ih

theorem running_table (faults : Faults) (w : TableDraft) (events : List Event) (rest : List Message) (t : Table)
    (counted : w.gather.Counted)
    (closed : ((Progress.running w).takeAll faults (events.map .event ++ .finish :: rest)).close = .ok t) :
    t.layout = w.layout ∧ t.eventCount = w.eventCount + events.length ∧
      t.nodeCount = w.nodeCount + events.countP (·.phase = .enter) ∧
      t.text.toList = w.gather.chars ++ (TableDraft.bodyPieces w.layout (w.eventCount == 0) events ++
        TableDraft.closingPieces w.layout).flatten := by
  induction events generalizing w with
  | nil =>
      have last : (Progress.running w).takeAll faults (.finish :: rest) =
          (Progress.onward .finished (w.finish faults)).takeAll faults rest := rfl
      rw [List.map_nil, List.nil_append, last] at closed
      cases finished : w.finish faults with
      | error f =>
          rw [finished, Progress.onward, take_all_stopped faults _ rest rfl] at closed
          cases closed
      | ok u =>
          rw [finished, Progress.onward, take_all_stopped faults _ rest rfl] at closed
          cases closed
          exact TableDraft.finish_chars faults w t counted finished
  | cons e es ih =>
      have first : (Progress.running w).takeAll faults ((e :: es).map .event ++ .finish :: rest) =
          (Progress.onward .running (w.add faults e)).takeAll faults (es.map .event ++ .finish :: rest) := rfl
      rw [first] at closed
      cases added : w.add faults e with
      | error f =>
          rw [added, Progress.onward, take_all_stopped faults _ _ rfl] at closed
          cases closed
      | ok x =>
          rw [added, Progress.onward] at closed
          obtain ⟨layout, count, nodes, chars, counted⟩ := TableDraft.add_chars faults w x e counted added
          obtain ⟨same, events, calls, text⟩ := ih x counted closed
          have more : (x.eventCount == 0) = false := by
            rw [count]
            rfl
          refine ⟨same.trans layout, ?_, ?_, ?_⟩
          · rw [events, count, List.length_cons]
            omega
          · rw [calls, nodes, List.countP_cons]
            simp only [decide_eq_true_eq]
            omega
          · rw [text, chars, layout, more, TableDraft.bodyPieces]
            simp only [List.flatten_append, List.append_assoc]

theorem table_text (faults : Faults) (layout : Layout) (limit : Option Nat) (events : List Event) (rest : List Message)
    (t : Table) (written : Table.ofMessages faults layout limit (events.map .event ++ .finish :: rest) = .ok t) :
    t.layout = layout ∧ t.eventCount = events.length ∧ t.nodeCount = events.countP (·.phase = .enter) ∧
      t.text.toList = (TableDraft.openingPieces layout ++ (TableDraft.bodyPieces layout true events ++
        TableDraft.closingPieces layout)).flatten := by
  rw [Table.ofMessages, Progress.start] at written
  cases started : TableDraft.start faults layout limit with
  | error f =>
      rw [started, Progress.onward, take_all_stopped faults _ _ rfl] at written
      cases written
  | ok w =>
      rw [started, Progress.onward] at written
      obtain ⟨rfl, none, nobody, chars, counted⟩ := TableDraft.start_chars faults layout limit w started
      obtain ⟨same, count, nodes, text⟩ := running_table faults w events rest t counted written
      rw [none] at count text
      rw [nobody] at nodes
      refine ⟨same, by omega, by omega, ?_⟩
      rw [text, chars, List.flatten_append, List.flatten_append, List.flatten_append]
      rfl

theorem nodes_body (isFirst : Bool) (events : List Event) :
    (TableDraft.bodyPieces .nodes isFirst events).flatten =
      ((events.filterMap Event.finishedCall?).map fun r => r.toRow.toList).flatten := by
  induction events generalizing isFirst with
  | nil => rfl
  | cons e es ih =>
      rw [TableDraft.bodyPieces, List.flatten_append, ih, TableDraft.eventPieces, List.filterMap_cons]
      cases e.finishedCall? with
      | none => rfl
      | some r => simp

theorem later_events_body (events : List Event) :
    (TableDraft.bodyPieces .events false events).flatten =
      JsonValue.afterItems ['\n'] (events.map fun e => e.entry.toJson) := by
  induction events with
  | nil => rfl
  | cons e es ih =>
      rw [TableDraft.bodyPieces, List.flatten_append, ih]
      simp [TableDraft.eventPieces, JsonValue.afterItems, JsonValue.compactChars]

theorem events_body (events : List Event) :
    (TableDraft.bodyPieces .events true events).flatten =
      JsonValue.lineItems (events.map fun e => e.entry.toJson) := by
  cases events with
  | nil => rfl
  | cons e es =>
      rw [TableDraft.bodyPieces, List.flatten_append, later_events_body]
      simp [TableDraft.eventPieces, JsonValue.lineItems, JsonValue.compactChars]

end MatchTrace
