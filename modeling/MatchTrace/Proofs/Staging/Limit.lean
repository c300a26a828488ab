import MatchTrace.Proofs.Staging.Table

/-!
The bound of a staged table. Room is charged when the buffer is passed on and not when a piece is put,
and yet a table is refused exactly if it is longer than the bound, wherever the buffer cuts it.
-/

namespace MatchTrace

set_option autoImplicit false

theorem byte_count_size (cs : List Char) : byteCount cs = (String.ofList cs).utf8ByteSize := by
  induction cs with
  | nil => rfl
  | cons c cs ih =>
      rw [String.ofList_cons, String.utf8ByteSize_append, String.utf8ByteSize_singleton, ← ih]
      rfl

namespace Gather

def storedBytes (g : Gather) : Nat := byteCount (g.stored.reverse.map String.toList).flatten

-- What is stored has been charged to the bound; what waits has not.
structure Charged (limit : Option Nat) (g : Gather) : Prop where
  counted : g.Counted
  room : g.room = limit.map (· - g.storedBytes)
  spent : ∀ bound ∈ limit, g.storedBytes ≤ bound

def Over (limit : Option Nat) (chars : List Char) : Prop := ∃ bound ∈ limit, bound < byteCount chars

theorem over_append (limit : Option Nat) (a b : List Char) (exceeded : Over limit a) : Over limit (a ++ b) := by
  obtain ⟨bound, bounded, less⟩ := exceeded
  refine ⟨bound, bounded, ?_⟩
  rw [byte_count_append]
  omega

def Bounded (limit : Option Nat) (chars : List Char) : Except IoError Gather → Prop
  | .ok h => h.Charged limit
  | .error e => e = .overLimit ∧ Over limit chars

theorem chars_bytes (g : Gather) (counted : g.Counted) : byteCount g.chars = g.storedBytes + g.waitingBytes := by
  rw [chars, byte_count_append, storedBytes, counted]

theorem stored_bytes_cons (g h : Gather) (pieces : List (List Char))
    (stored : h.stored = String.ofList pieces.reverse.flatten :: g.stored) :
    h.storedBytes = g.storedBytes + byteCount pieces.reverse.flatten := by
  rw [storedBytes, stored, storedBytes, ← byte_count_append]
  simp

theorem store_bounded (limit : Option Nat) (g : Gather) (charged : g.Charged limit) (pieces : List (List Char)) :
    match g.store pieces (byteCount pieces.reverse.flatten) with
    | .ok h => h.room = limit.map (· - h.storedBytes) ∧ ∀ bound ∈ limit, h.storedBytes ≤ bound
    | .error e => e = .overLimit ∧ ∃ bound ∈ limit, bound < g.storedBytes + byteCount pieces.reverse.flatten := by
  have room := charged.room
  cases limit with
  | none =>
      rw [store, room]
      exact ⟨rfl, fun _ none => by cases none⟩
  | some bound =>
      have spent := charged.spent bound rfl
      rw [store, room]
      dsimp only [Option.map_some]
      split
      · next stored =>
          split at stored
          · next fits =>
              cases stored
              have bytes := stored_bytes_cons g { g with
                room := some (bound - g.storedBytes - byteCount pieces.reverse.flatten)
                stored := String.ofList pieces.reverse.flatten :: g.stored } pieces rfl
              rw [bytes]
              refine ⟨by rw [Nat.sub_sub], ?_⟩
              rintro _ ⟨⟩
              omega
          · cases stored
      · next stored =>
          split at stored
          · cases stored
          · cases stored
            exact ⟨rfl, bound, rfl, by omega⟩

theorem flush_bounded (limit : Option Nat) (g : Gather) (charged : g.Charged limit) : Bounded limit g.chars g.flush := by
  have bytes := chars_bytes g charged.counted
  have outcome := store_bounded limit g charged g.waiting
  rw [← charged.counted] at outcome
  rw [flush]
  cases stored : g.store g.waiting g.waitingBytes with
  | ok h =>
      rw [stored] at outcome
      exact ⟨rfl, outcome.1, outcome.2⟩
  | error e =>
      rw [stored] at outcome
      obtain ⟨rfl, bound, bounded, less⟩ := outcome
      exact ⟨rfl, bound, bounded, by omega⟩

theorem make_place_bounded (limit : Option Nat) (g : Gather) (charged : g.Charged limit) (bytes : Nat) :
    Bounded limit g.chars (g.makePlace bytes) := by
  rw [makePlace]
  split
  · exact flush_bounded limit g charged
  · exact charged

theorem put_bounded (limit : Option Nat) (g : Gather) (charged : g.Charged limit) (piece : List Char) :
    Bounded limit (g.chars ++ piece) (g.put piece) := by
  have placed := make_place_bounded limit g charged (byteCount piece)
  rw [Gather.put]
  cases made : g.makePlace (byteCount piece) with
  | error e =>
      rw [made] at placed
      exact ⟨placed.1, over_append limit g.chars piece placed.2⟩
  | ok k =>
      rw [made] at placed
      obtain ⟨same, counted, empty⟩ := make_place_chars g k _ charged.counted made
      dsimp only
      split
      · next large =>
          -- Nothing waits in front of a piece that goes to storage at once.
          have outcome := store_bounded limit k placed [piece]
          rw [List.reverse_singleton, List.flatten_singleton] at outcome
          cases stored : k.store [piece] (byteCount piece) with
          | ok h =>
              rw [stored] at outcome
              obtain ⟨chunks, waiting, bytes⟩ := store_cases k h [piece] _ stored
              exact ⟨by rw [Counted, waiting, bytes, counted], outcome.1, outcome.2⟩
          | error e =>
              rw [stored] at outcome
              obtain ⟨rfl, bound, bounded, less⟩ := outcome
              refine ⟨rfl, bound, bounded, ?_⟩
              rw [byte_count_append, ← same, chars_bytes k counted]
              omega
      · refine ⟨?_, placed.room, placed.spent⟩
        rw [Counted, counted, List.reverse_cons, List.flatten_append, byte_count_append, List.flatten_singleton]

theorem put_all_bounded (limit : Option Nat) (g : Gather) (charged : g.Charged limit) (pieces : List (List Char)) :
    Bounded limit (g.chars ++ pieces.flatten) (g.putAll pieces) := by
  induction pieces generalizing g with
  | nil => exact charged
  | cons piece pieces ih =>
      have first := put_bounded limit g charged piece
      rw [putAll]
      cases put : g.put piece with
      | error e =>
          rw [put] at first
          refine ⟨first.1, ?_⟩
          rw [List.flatten_cons, ← List.append_assoc]
          exact over_append limit _ _ first.2
      | ok k =>
          rw [put] at first
          have rest := ih k first
          rwa [(put_chars g k piece charged.counted put).1, List.append_assoc, ← List.flatten_cons] at rest

theorem stored_within (limit : Option Nat) (g : Gather) (charged : g.Charged limit) (empty : g.waiting = [])
    (bound : Nat) (bounded : bound ∈ limit) : byteCount g.chars ≤ bound := by
  rw [chars_bytes g charged.counted, charged.counted, empty]
  exact charged.spent bound bounded

end Gather

namespace TableDraft

def Bounded {α : Type} (limit : Option Nat) (step : Step) (chars : List Char) (gather : α → Gather) :
    Except Failure α → Prop
  | .ok w => (gather w).Charged limit
  | .error f => f = ⟨step, .overLimit, []⟩ ∧ Gather.Over limit chars

theorem put_at_bounded (limit : Option Nat) (step : Step) (g : Gather) (charged : g.Charged limit)
    (pieces : List (List Char)) : Bounded limit step (g.chars ++ pieces.flatten) id (putAt step g pieces) := by
  have outcome := Gather.put_all_bounded limit g charged pieces
  rw [putAt]
  cases put : g.putAll pieces with
  | ok h =>
      rw [put] at outcome
      exact outcome
  | error e =>
      rw [put] at outcome
      obtain ⟨rfl, exceeded⟩ := outcome
      exact ⟨rfl, exceeded⟩

-- The mark that opens a table waits in the buffer, so nothing can fail yet.
theorem start_runs (layout : Layout) (limit : Option Nat) :
    ∃ w, start .none layout limit = .ok w ∧ w.gather.Charged limit := by
  have fresh : ({ room := limit } : Gather).Charged limit :=
    ⟨rfl, by cases limit <;> rfl, fun _ _ => Nat.zero_le _⟩
  cases layout with
  | nodes => exact ⟨_, rfl, fresh⟩
  | events => exact ⟨_, rfl, rfl, fresh.room, fresh.spent⟩

theorem add_bounded (limit : Option Nat) (w : TableDraft) (charged : w.gather.Charged limit) (e : Event) :
    Bounded limit .writeEvent (w.gather.chars ++ (eventPieces w.layout (w.eventCount == 0) e).flatten) gather
      (w.add .none e) := by
  have outcome := put_at_bounded limit .writeEvent w.gather charged (eventPieces w.layout (w.eventCount == 0) e)
  rw [add]
  cases put : putAt .writeEvent w.gather (eventPieces w.layout (w.eventCount == 0) e) with
  | ok h =>
      rw [put] at outcome
      exact outcome
  | error f =>
      rw [put] at outcome
      exact outcome

theorem finish_bounded (limit : Option Nat) (w : TableDraft) (charged : w.gather.Charged limit) :
    match w.finish .none with
    | .ok t => ∀ bound ∈ limit, byteCount t.text.toList ≤ bound
    | .error f =>
        f = ⟨.finishTable, .overLimit, []⟩ ∧ Gather.Over limit (w.gather.chars ++ (closingPieces w.layout).flatten) := by
  have outcome := put_at_bounded limit .finishTable w.gather charged (closingPieces w.layout)
  rw [finish]
  cases put : putAt .finishTable w.gather (closingPieces w.layout) with
  | error f =>
      rw [put] at outcome
      exact outcome
  | ok g =>
      rw [put] at outcome
      have flushed := Gather.flush_bounded limit g outcome
      rw [(Gather.put_all_chars w.gather g _ charged.counted (put_at_ok _ _ _ _ put)).1] at flushed
      cases out : g.flush with
      | error e =>
          rw [out] at flushed
          obtain ⟨rfl, exceeded⟩ := flushed
          simp only [flush, out, bind, Except.bind, Faults.check, Faults.none]
          exact ⟨trivial, exceeded⟩
      | ok h =>
          rw [out] at flushed
          obtain ⟨-, empty, -⟩ := Gather.flush_chars g h out
          have within := Gather.stored_within limit h flushed empty
          rw [← Gather.text_chars h empty] at within
          simp only [flush, out, bind, Except.bind, Faults.check, Faults.none]
          exact within

end TableDraft

structure AtLimit (f : Failure) : Prop where
  cause : f.cause = .overLimit
  suppressed : f.suppressed = []
  step : f.step = .writeEvent ∨ f.step = .finishTable

theorem running_limit (limit : Option Nat) (w : TableDraft) (charged : w.gather.Charged limit) (events : List Event)
    (rest : List Message) :
    match ((Progress.running w).takeAll .none (events.map .event ++ .finish :: rest)).close with
    | .ok t => ∀ bound ∈ limit, byteCount t.text.toList ≤ bound
    | .error stop => ∃ f, stop = .failed f ∧ AtLimit f ∧
        Gather.Over limit (w.gather.chars ++ (TableDraft.bodyPieces w.layout (w.eventCount == 0) events ++
          TableDraft.closingPieces w.layout).flatten) := by
  induction events generalizing w with
  | nil =>
      have last : (Progress.running w).takeAll .none (.finish :: rest) =
          (Progress.onward .finished (w.finish .none)).takeAll .none rest := rfl
      have outcome := TableDraft.finish_bounded limit w charged
      rw [List.map_nil, List.nil_append, last]
      cases finished : w.finish .none with
      | error f =>
          rw [finished] at outcome
          obtain ⟨rfl, exceeded⟩ := outcome
          rw [Progress.onward, take_all_stopped .none _ rest rfl]
          exact ⟨_, rfl, ⟨rfl, rfl, .inr rfl⟩, exceeded⟩
      | ok t =>
          rw [finished] at outcome
          rw [Progress.onward, take_all_stopped .none _ rest rfl]
          exact outcome
  | cons e es ih =>
      have first : (Progress.running w).takeAll .none ((e :: es).map .event ++ .finish :: rest) =
          (Progress.onward .running (w.add .none e)).takeAll .none (es.map .event ++ .finish :: rest) := rfl
      have outcome := TableDraft.add_bounded limit w charged e
      rw [first]
      cases added : w.add .none e with
      | error f =>
          rw [added] at outcome
          obtain ⟨rfl, exceeded⟩ := outcome
          rw [Progress.onward, take_all_stopped .none _ _ rfl]
          refine ⟨_, rfl, ⟨rfl, rfl, .inl rfl⟩, ?_⟩
          rw [TableDraft.bodyPieces, List.append_assoc, List.flatten_append, ← List.append_assoc]
          exact Gather.over_append limit _ _ exceeded
      | ok x =>
          rw [added] at outcome
          obtain ⟨layout, count, -, chars, -⟩ := TableDraft.add_chars .none w x e charged.counted added
          have more : (x.eventCount == 0) = false := by
            rw [count]
            rfl
          have rest := ih x outcome
          rw [Progress.onward]
          rw [chars, layout, more, List.append_assoc, ← List.flatten_append, ← List.append_assoc] at rest
          exact rest

def Layout.tableText : Layout → List Event → String
  | .nodes, es =>
      String.join ((es.filter fun e => e.phase.isExit && e.elapsedNanos.isSome).map fun e =>
        FinishedCall.toRow ⟨e.parentId, e.nodeId, e.level, e.phase == .success, e.matcher.id, e.startOffset, e.offset,
          e.elapsedNanos.getD 0⟩)
  | .events, es => "[" ++ ",".intercalate (es.map fun e => "\n" ++ e.entry.toJson.compact) ++ "\n]\n"

theorem finished_rows (es : List Event) :
    (es.filterMap Event.finishedCall?).map FinishedCall.toRow =
      (es.filter fun e => e.phase.isExit && e.elapsedNanos.isSome).map fun e =>
        FinishedCall.toRow ⟨e.parentId, e.nodeId, e.level, e.phase == .success, e.matcher.id, e.startOffset, e.offset,
          e.elapsedNanos.getD 0⟩ := by
  induction es with
  | nil => rfl
  | cons e es ih =>
      rcases e with ⟨phase, _, _, _, _, _, _, _, _ | elapsed⟩
      · simpa [Event.finishedCall?, List.filterMap_cons] using ih
      · cases phase <;> simpa [Event.finishedCall?, Phase.isExit, List.filterMap_cons] using ih

theorem line_items_intercalate (items : List JsonValue) :
    JsonValue.lineItems items = [','].intercalate (items.map fun v => '\n' :: v.compactChars) := by
  cases items with
  | nil => rfl
  | cons x xs =>
      rw [JsonValue.lineItems, List.map_cons]
      induction xs generalizing x with
      | nil => simp [JsonValue.afterItems]
      | cons y ys ih =>
          rw [List.map_cons, List.intercalate_cons_cons, ← ih y]
          simp [JsonValue.afterItems]

theorem table_chars (layout : Layout) (es : List Event) :
    (layout.tableText es).toList = (TableDraft.openingPieces layout ++ (TableDraft.bodyPieces layout true es ++
      TableDraft.closingPieces layout)).flatten := by
  rw [List.flatten_append, List.flatten_append]
  cases layout with
  | nodes =>
      rw [nodes_body, Layout.tableText, ← finished_rows]
      simp [TableDraft.openingPieces, TableDraft.closingPieces, String.toList_join, List.flatMap_def, Function.comp_def]
  | events =>
      rw [events_body, line_items_intercalate, Layout.tableText]
      simp [TableDraft.openingPieces, TableDraft.closingPieces, String.toList_intercalate, Function.comp_def,
        JsonValue.compact]

example : Layout.events.tableText [] = "[\n]\n" := by decide +kernel

theorem table_limit (layout : Layout) (limit : Option Nat) (events : List Event) (rest : List Message) :
    match Table.ofMessages .none layout limit (events.map .event ++ .finish :: rest) with
    | .ok t =>
        t = ⟨layout, layout.tableText events, events.length, events.countP (·.phase = .enter)⟩ ∧
          ∀ bound ∈ limit, (layout.tableText events).utf8ByteSize ≤ bound
    | .error stop => ∃ f, stop = .failed f ∧ AtLimit f ∧ ∃ bound ∈ limit, bound < (layout.tableText events).utf8ByteSize := by
  have size : (layout.tableText events).utf8ByteSize = byteCount (layout.tableText events).toList := by
    rw [byte_count_size, String.ofList_toList]
  obtain ⟨w, started, charged⟩ := TableDraft.start_runs layout limit
  obtain ⟨same, fresh, -, opening, -⟩ := TableDraft.start_chars .none layout limit w started
  have outcome := running_limit limit w charged events rest
  rw [same, fresh, opening, ← List.flatten_append] at outcome
  have shape : Table.ofMessages .none layout limit (events.map .event ++ .finish :: rest) =
      ((Progress.running w).takeAll .none (events.map .event ++ .finish :: rest)).close := by
    rw [Table.ofMessages, Progress.start, started, Progress.onward]
  rw [← shape] at outcome
  cases written : Table.ofMessages .none layout limit (events.map .event ++ .finish :: rest) with
  | ok t =>
      rw [written] at outcome
      obtain ⟨rfl, count, nodes, text⟩ := table_text .none layout limit events rest t written
      rw [← table_chars, String.toList_inj] at text
      refine ⟨?_, ?_⟩
      · rw [← text, ← count, ← nodes]
      · rw [size, ← text]
        exact outcome
  | error stop =>
      rw [written] at outcome
      obtain ⟨f, failed, stopped, bound, bounded, less⟩ := outcome
      refine ⟨f, failed, stopped, bound, bounded, ?_⟩
      rw [size, table_chars]
      exact less

end MatchTrace
