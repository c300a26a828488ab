import MatchTrace.Proofs.Staging.Table

/-!
Operations that storage may refuse, one after the other. The first that fails ends them, and its step and the cause
are what is told. A table is written so: its beginning, its events in order, its end.
-/

namespace MatchTrace

set_option autoImplicit false

structure Operation (α : Type) where
  step : Step
  act : α → Except IoError α

namespace Operation

section Run

variable {α : Type} (xs ys : List (Operation α)) (a : α) (f : Failure) (step : Step) (cause : IoError)

def run : List (Operation α) → α → Except Failure α
  | [], a => .ok a
  | x :: xs, a =>
    match x.act a with
    | .ok b => run xs b
    | .error cause => .error ⟨x.step, cause, []⟩

def FailsAt : Prop :=
  ∃ before x after b, xs = before ++ x :: after ∧ run before a = .ok b ∧ x.act b = .error cause ∧ x.step = step

theorem run_append : run (xs ++ ys) a = run xs a >>= run ys := by
  induction xs generalizing a with
  | nil => rfl
  | cons x xs ih =>
      rw [List.cons_append, run, run]
      cases x.act a with
      | ok b => exact ih b
      | error cause => rfl

theorem fails_run (failed : FailsAt xs a step cause) : run xs a = .error ⟨step, cause, []⟩ := by
  obtain ⟨before, x, after, b, rfl, passed, refused, rfl⟩ := failed
  rw [run_append, passed]
  change run (x :: after) b = _
  rw [run, refused]

theorem run_fails (ran : run xs a = .error f) : ∃ step cause, FailsAt xs a step cause ∧ f = ⟨step, cause, []⟩ := by
  induction xs generalizing a with
  | nil => cases ran
  | cons x xs ih =>
      rw [run] at ran
      cases act : x.act a with
      | error cause =>
          rw [act] at ran
          cases ran
          exact ⟨x.step, cause, ⟨[], x, xs, a, rfl, rfl, act, rfl⟩, rfl⟩
      | ok b =>
          rw [act] at ran
          obtain ⟨step, cause, ⟨before, y, after, c, rfl, passed, failed⟩, told⟩ := ih b ran
          refine ⟨step, cause, ⟨x :: before, y, after, c, rfl, ?_, failed⟩, told⟩
          rw [run, act]
          exact passed

theorem run_error_iff : run xs a = .error f ↔ ∃ step cause, FailsAt xs a step cause ∧ f = ⟨step, cause, []⟩ := by
  constructor
  · exact run_fails xs a f
  · rintro ⟨step, cause, failed, rfl⟩
    exact fails_run xs a step cause failed

end Run

def asking {α : Type} (faults : Faults) (step : Step) (n : Nat) (act : α → Except IoError α) : Operation α where
  step
  act a :=
    match faults step n with
    | some cause => .error cause
    | none => act a

theorem asked (faults : Faults) (step : Step) (n : Nat) {α : Type} (act : α → Except IoError α) (a : α) :
    (faults.check step n >>= fun _ => (act a).mapError (⟨step, ·, []⟩)) =
      ((asking faults step n act).act a).mapError (⟨step, ·, []⟩) := by
  simp only [asking, Faults.check]
  cases faults step n <;> rfl

end Operation

open Operation

namespace TableDraft

def opening (faults : Faults) (layout : Layout) : Operation Gather :=
  asking faults .startTable 0 (·.putAll (openingPieces layout))

def writing (faults : Faults) (layout : Layout) (n : Nat) (e : Event) : Operation Gather :=
  asking faults .writeEvent n (·.putAll (eventPieces layout (n == 0) e))

def closing (faults : Faults) (layout : Layout) : List (Operation Gather) :=
  [asking faults .finishTable 0 fun g => g.putAll (closingPieces layout) >>= Gather.flush,
    asking faults .flushTable 0 .ok, asking faults .syncTable 0 .ok]

-- What a writer does that has written so many events. After the end mark it does nothing.
def operations (faults : Faults) (layout : Layout) : Nat → List Message → List (Operation Gather)
  | _, [] => []
  | n, .event e :: messages => writing faults layout n e :: operations faults layout (n + 1) messages
  | _, .finish :: _ => closing faults layout

theorem failed_stays (faults : Faults) (messages : List Message) (f g : Failure) :
    (Progress.takeAll faults (.failed f) messages).close = .error (.failed g) ↔ Except.error (α := Gather) f = .error g := by
  rw [take_all_stopped faults _ messages rfl]
  simp [Progress.close]

theorem put_at_eq (step : Step) (g : Gather) (pieces : List (List Char)) :
    putAt step g pieces = (g.putAll pieces).mapError (⟨step, ·, []⟩) := by
  rw [putAt]
  cases g.putAll pieces <;> rfl

theorem start_operations (faults : Faults) (layout : Layout) (limit : Option Nat) :
    start faults layout limit =
      (((opening faults layout).act { room := limit }).mapError (⟨.startTable, ·, []⟩)).map fun gather =>
        { layout, gather } := by
  rw [opening, ← asked, start, put_at_eq]
  cases faults.check .startTable 0 with
  | error f => rfl
  | ok _ => cases Gather.putAll { room := limit } (openingPieces layout) <;> rfl

theorem add_operation (faults : Faults) (w : TableDraft) (e : Event) :
    w.add faults e =
      (((writing faults w.layout w.eventCount e).act w.gather).mapError (⟨.writeEvent, ·, []⟩)).map fun gather =>
        { w with
          gather
          eventCount := w.eventCount + 1
          nodeCount := w.nodeCount + if e.phase = .enter then 1 else 0 } := by
  rw [writing, ← asked, add, put_at_eq]
  cases faults.check .writeEvent w.eventCount with
  | error f => rfl
  | ok _ => cases w.gather.putAll (eventPieces w.layout (w.eventCount == 0) e) <;> rfl

theorem finish_operations (faults : Faults) (w : TableDraft) :
    w.finish faults =
      (run (closing faults w.layout) w.gather).map fun gather =>
        ⟨w.layout, gather.text, w.eventCount, w.nodeCount⟩ := by
  simp only [closing, run, asking, finish, putAt, flush, Faults.check]
  cases faults .finishTable 0 with
  | some cause => rfl
  | none =>
      cases w.gather.putAll (closingPieces w.layout) with
      | error cause => rfl
      | ok g =>
          simp only [bind, Except.bind]
          cases g.flush with
          | error cause => rfl
          | ok h =>
              cases faults .flushTable 0 with
              | some cause => rfl
              | none => cases faults .syncTable 0 <;> rfl

theorem running_failed (faults : Faults) (w : TableDraft) (messages : List Message) (f : Failure) :
    ((Progress.running w).takeAll faults messages).close = .error (.failed f) ↔
      run (operations faults w.layout w.eventCount messages) w.gather = .error f := by
  induction messages generalizing w with
  | nil =>
      constructor
      · rintro ⟨⟩
      · rintro ⟨⟩
  | cons m messages ih =>
      cases m with
      | event e =>
          have first : (Progress.running w).takeAll faults (.event e :: messages) =
              (Progress.onward .running (w.add faults e)).takeAll faults messages := rfl
          rw [first, add_operation, operations, run]
          cases (writing faults w.layout w.eventCount e).act w.gather with
          | error cause => exact failed_stays faults messages _ f
          | ok g => exact ih _
      | finish =>
          have last : (Progress.running w).takeAll faults (.finish :: messages) =
              (Progress.onward .finished (w.finish faults)).takeAll faults messages := rfl
          rw [last, finish_operations, operations]
          cases run (closing faults w.layout) w.gather with
          | error g => exact failed_stays faults messages g f
          | ok g =>
              change (Progress.takeAll faults (.finished _) messages).close = _ ↔ _
              rw [take_all_stopped faults _ messages rfl]
              simp [Progress.close]

end TableDraft

namespace Table

def operations (faults : Faults) (layout : Layout) (messages : List Message) : List (Operation Gather) :=
  TableDraft.opening faults layout :: TableDraft.operations faults layout 0 messages

theorem of_messages_failed (faults : Faults) (layout : Layout) (limit : Option Nat) (messages : List Message)
    (f : Failure) :
    ofMessages faults layout limit messages = .error (.failed f) ↔
      ∃ step cause, FailsAt (operations faults layout messages) { room := limit } step cause ∧ f = ⟨step, cause, []⟩ := by
  rw [← run_error_iff, ofMessages, Progress.start, TableDraft.start_operations, operations, run]
  cases (TableDraft.opening faults layout).act { room := limit } with
  | error cause => exact TableDraft.failed_stays faults messages _ f
  | ok g => exact TableDraft.running_failed faults _ messages f

end Table

end MatchTrace
