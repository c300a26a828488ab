import MatchTrace.Text.LineTable
import MatchTrace.Trace.Event

/-!
The listener that turns hooks into trace events. The open invocations lie in a stack whose
height is the level of the next invocation to open, so a hook at any other level is refused.
-/

namespace MatchTrace

set_option autoImplicit false

inductive Message where
  | event (event : Event)
  | finish
deriving DecidableEq

structure OpenCall where
  nodeId : Nat
  parentId : Int
  matcher : Descriptor
  startOffset : Nat
  opened : Nat
deriving DecidableEq

-- Open calls and the outbox are kept latest first. Nothing can be sent once the recorder is `closed`,
-- which it is when it has announced the end, and nothing arrives once `writerGone`.
structure Recorder where
  classifier : Classifier
  countsLines : Bool := false
  catalog : Catalog := {}
  openCalls : List OpenCall := []
  nextNode : Nat := 0
  inputLength : Nat := 0
  origin : Nat := 0
  startTimeMillis : Nat := 0
  lineCount : Option Nat := none
  result : Option ParseResult := none
  closed : Bool := false
  writerGone : Bool := false
  outbox : List Message := []
  readings : Nat := 0
deriving DecidableEq

namespace Recorder

def depth (x : Recorder) : Nat := x.openCalls.length

def sent (x : Recorder) : List Message := x.outbox.reverse

def nanosBetween (earlier later : Nat) : Nat := min (later - earlier) 0xFFFFFFFFFFFFFFFF

def send (x : Recorder) (m : Message) : Recorder × Option TraceError :=
  if x.closed || x.writerGone then (x, some .writerClosed)
  else ({ x with outbox := m :: x.outbox }, none)

def start (x : Recorder) (now today : Nat) (input : Input) : Recorder :=
  { x with
    openCalls := [], nextNode := 0, result := none, inputLength := input.length
    origin := now, startTimeMillis := min today 0xFFFFFFFFFFFFFFFF
    lineCount := if x.countsLines then some input.lineTable.lineCount else x.lineCount }

def parentOf : List OpenCall → Int
  | [] => rootParent
  | call :: _ => call.nodeId

def enter (x : Recorder) (now : Nat) (c : Call) : Recorder × Option TraceError :=
  if c.level ≠ x.depth then (x, some (.unbalancedEnter c.level x.depth))
  else
    match x.catalog.resolve x.classifier c.rule with
    | (.error e, catalog, classifier) => ({ x with catalog, classifier }, some e)
    | (.ok matcher, catalog, classifier) =>
      let offset := min c.index x.inputLength
      let call : OpenCall := ⟨x.nextNode, parentOf x.openCalls, matcher, offset, now⟩
      let event : Event :=
        ⟨.enter, call.nodeId, call.parentId, c.level, matcher, offset, offset,
         nanosBetween x.origin now, none⟩
      let x := { x with
        catalog, classifier, nextNode := x.nextNode + 1, openCalls := call :: x.openCalls }
      x.send (.event event)

-- A success ends inside the text, even if it matched the end of input; a failure is reported where
-- it stopped.
def exitOffset (inputLength index : Nat) (success : Bool) : Nat :=
  if success then min index inputLength else index

def exit (x : Recorder) (now : Nat) (success : Bool) (c : Call) : Recorder × Option TraceError :=
  match x.openCalls with
  | call :: openCalls =>
    if c.level = openCalls.length then
      let event : Event :=
        ⟨if success then .success else .failure, call.nodeId, call.parentId, c.level, call.matcher,
         call.startOffset, exitOffset x.inputLength c.index success, nanosBetween x.origin now,
         some (nanosBetween call.opened now)⟩
      { x with openCalls }.send (.event event)
    else (x, some (.unbalancedExit c.level))
  | [] => (x, some (.unbalancedExit c.level))

def finish (x : Recorder) (result : ParseResult) : Recorder × Option TraceError :=
  let (x, e) := { x with result := some result }.send .finish
  ({ x with closed := true }, e)

end Recorder

structure Clock where
  nanos : Nat
  millis : Nat
deriving DecidableEq

namespace Recorder

def react (clock : Clock) (x : Recorder) : Hook → Recorder × Option TraceError
  | .beforeParse _ input => (x.start clock.nanos clock.millis input, none)
  | .beforeMatch c => x.enter clock.nanos c
  | .matchSuccess c => x.exit clock.nanos true c
  | .matchFailure c => x.exit clock.nanos false c
  | .afterParse result => x.finish result

-- The recorder as a listener, which reads the clock once a hook; `clock n` is the `n`-th reading.
def listen (clock : Nat → Clock) : Listener TraceError Recorder := fun x h =>
  { x with readings := x.readings + 1 }.react (clock x.readings) h

end Recorder

end MatchTrace
