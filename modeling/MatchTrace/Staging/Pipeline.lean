import MatchTrace.Staging.Table

/-!
The recorder and the writer of a traced run, with a queue between them. The recorder sends while the
parse runs; the writer takes messages in order, at a pace of its own, and may stop before the parse
does.
-/

namespace MatchTrace

set_option autoImplicit false

structure Pipeline where
  recorder : Recorder
  writer : Progress
  taken : Nat := 0
deriving DecidableEq

namespace Pipeline

def queue (p : Pipeline) : List Message := p.recorder.sent.drop p.taken

def take (faults : Faults) (p : Pipeline) : Nat → Pipeline
  | 0 => p
  | count =>
    let batch := p.queue.take count
    { p with writer := p.writer.takeAll faults batch, taken := p.taken + batch.length }

-- The recorder hears a hook. Before that the writer takes as many messages as it has found time
-- for; if it has stopped, sending fails.
def listen (clock : Nat → Clock) (faults : Faults) (pace : Nat → Nat) :
    Listener TraceError Pipeline := fun p h =>
  let p := p.take faults (pace p.recorder.readings)
  let (recorder, e) :=
    Recorder.listen clock { p.recorder with writerGone := p.writer.hasStopped } h
  ({ p with recorder }, e)

def close (faults : Faults) (p : Pipeline) : Except Stop Table :=
  (p.writer.takeAll faults p.queue).close

end Pipeline

end MatchTrace
