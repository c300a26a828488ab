import MatchTrace.Json.Record
import MatchTrace.Staging.Gather
import MatchTrace.Table.Layout
import MatchTrace.Trace.Recorder

/-!
The writer of a trace table. It takes messages in the order they were sent and stops at the first
end mark. If the messages run out before one, the run was given up.
-/

namespace MatchTrace

set_option autoImplicit false

-- What storage answers at a step done for the `n`-th time, where it fails.
abbrev Faults := Step → Nat → Option IoError

def Faults.none : Faults := fun _ _ => Option.none

def Faults.check (faults : Faults) (step : Step) (n : Nat) : Except Failure Unit :=
  match faults step n with
  | some cause => .error ⟨step, cause, []⟩
  | Option.none => .ok ()

structure TableDraft where
  layout : Layout
  gather : Gather
  eventCount : Nat := 0
  nodeCount : Nat := 0
deriving DecidableEq

structure Table where
  layout : Layout
  text : String
  eventCount : Nat
  nodeCount : Nat
deriving DecidableEq

inductive Stop where
  | abandoned
  | failed (failure : Failure)
deriving DecidableEq

namespace TableDraft

def openingPieces : Layout → List (List Char)
  | .nodes => []
  | .events => [['[']]

def closingPieces : Layout → List (List Char)
  | .nodes => []
  | .events => [['\n', ']', '\n']]

def eventPieces (layout : Layout) (isFirst : Bool) (e : Event) : List (List Char) :=
  match layout with
  | .nodes =>
    match e.finishedCall? with
    | some r => [r.toRow.toList]
    | none => []
  | .events =>
    (if isFirst then [] else [[',']]) ++ ['\n'] :: e.entry.toJson.pieces

def putAt (step : Step) (g : Gather) (pieces : List (List Char)) : Except Failure Gather :=
  match g.putAll pieces with
  | .ok g => .ok g
  | .error cause => .error ⟨step, cause, []⟩

def start (faults : Faults) (layout : Layout) (limit : Option Nat) :
    Except Failure TableDraft := do
  faults.check .startTable 0
  let gather ← putAt .startTable { room := limit } (openingPieces layout)
  return { layout, gather }

def add (faults : Faults) (w : TableDraft) (e : Event) : Except Failure TableDraft := do
  faults.check .writeEvent w.eventCount
  let gather ← putAt .writeEvent w.gather (eventPieces w.layout (w.eventCount == 0) e)
  return { w with
    gather
    eventCount := w.eventCount + 1
    nodeCount := w.nodeCount + if e.phase = .enter then 1 else 0 }

def flush (w : TableDraft) : Except Failure Gather :=
  match w.gather.flush with
  | .ok g => .ok g
  | .error cause => .error ⟨.finishTable, cause, []⟩

def finish (faults : Faults) (w : TableDraft) : Except Failure Table := do
  faults.check .finishTable 0
  let gather ← putAt .finishTable w.gather (closingPieces w.layout)
  let gather ← flush { w with gather }
  faults.check .flushTable 0
  faults.check .syncTable 0
  return ⟨w.layout, gather.text, w.eventCount, w.nodeCount⟩

end TableDraft

-- How far the writer is. After the end mark or a failure it has stopped.
inductive Progress where
  | running (writer : TableDraft)
  | finished (table : Table)
  | failed (failure : Failure)
deriving DecidableEq

namespace Progress

def onward {α : Type} (next : α → Progress) : Except Failure α → Progress
  | .ok x => next x
  | .error failure => .failed failure

def start (faults : Faults) (layout : Layout) (limit : Option Nat) : Progress :=
  onward .running (TableDraft.start faults layout limit)

def take (faults : Faults) : Progress → Message → Progress
  | .running w, .event e => onward .running (w.add faults e)
  | .running w, .finish => onward .finished (w.finish faults)
  | p, _ => p

def takeAll (faults : Faults) (p : Progress) (messages : List Message) : Progress :=
  messages.foldl (take faults) p

def hasStopped : Progress → Bool
  | .running _ => false
  | .finished _ | .failed _ => true

def close : Progress → Except Stop Table
  | .running _ => .error .abandoned
  | .finished table => .ok table
  | .failed failure => .error (.failed failure)

end Progress

def Table.ofMessages (faults : Faults) (layout : Layout) (limit : Option Nat)
    (messages : List Message) : Except Stop Table :=
  ((Progress.start faults layout limit).takeAll faults messages).close

end MatchTrace
