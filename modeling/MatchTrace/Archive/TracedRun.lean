import MatchTrace.Archive.Publish
import MatchTrace.Settings.Basic
import MatchTrace.Staging.Pipeline
import MatchTrace.Text.Units

/-!
A traced parse: the trace is staged while the rules run, and published with the text, the matchers
and the totals when the run has come to its end. Whatever fails, nothing is left behind.
-/

namespace MatchTrace

set_option autoImplicit false

-- What a traced run depends on beside its grammar and text: `pace` is how many messages the writer
-- takes before each hook, and `meanwhile` what other processes do to the store while the archive is
-- put together.
structure World where
  clock : Nat → Clock
  faults : Faults := .none
  pace : Nat → Nat := fun _ => 0
  meanwhile : Store → Store := id

structure Report where
  result : ParseResult
  totals : Totals
  archivePath : String
deriving DecidableEq

namespace TracedRun

def accept (settings : Settings) (s : Store) : Except TraceError Unit :=
  match settings.validate with
  | .error e => .error (.invalidConfig e.message)
  | .ok _ =>
    if s.isThere settings.archivePath then .error (.archiveExists settings.archivePath) else .ok ()

structure Listened (σ : Type) where
  pipeline : Pipeline
  extras : σ
  outcome : Except (RunError ListenerError) ParseResult

def listener {σ : Type} (world : World) (extras : Listener ListenerError σ) :
    Listener ListenerError (Pipeline × σ) :=
  Listener.both
    (fun p h =>
      let (p, e) := p.listen world.clock world.faults world.pace h
      (p, e.map .trace))
    extras

def pipeline (world : World) (settings : Settings) (classifier : Classifier) : Pipeline :=
  { recorder := { classifier, countsLines := true }
    writer := Progress.start world.faults settings.layout settings.maxStagingBytes }

def listenWith {σ : Type} (fuel : Nat) (world : World) (g : Grammar) (input : Input)
    (p : Pipeline) (extras : Listener ListenerError σ) (states : σ) : Option (Listened σ) :=
  (g.heardWith fuel input (listener world extras) (p, states)).map
    fun ((pipeline, extras), outcome) => ⟨pipeline, extras, outcome⟩

-- The error of a run that failed: a recorder that found the writer gone only saw a symptom.
def reported (cause : TraceError) : Option TraceError → TraceError
  | some own => if cause = .writerClosed then own else cause
  | none => cause

def totalsOf (input : Input) (recorder : Recorder) (table : Table) : Totals :=
  let counts := textSize input.chars.toList
  { startTimeMillis := recorder.startTimeMillis
    eventCount := table.eventCount
    matcherCount := recorder.catalog.size
    lineCount := recorder.lineCount.getD input.lineTable.lineCount
    charCount := counts.units
    codePointCount := counts.scalars
    nodeCount := recorder.nextNode }

def draftOf (settings : Settings) (input : Input) (recorder : Recorder) (staged : StagedTable) :
    ArchiveDraft :=
  { target := settings.archivePath, archiveDir := settings.archiveDir
    compression := settings.compression, input := input.text
    matchers := recorder.catalog.descriptors, staged
    totals := totalsOf input recorder staged.table }

def settle {σ : Type} (world : World) (settings : Settings) (input : Input) (staging : Location)
    (listened : Listened σ) (s : Store) : Except TraceError Report × Store :=
  let table := listened.pipeline.close world.faults
  match listened.outcome with
  | .error e =>
    let (own, s) := StagedTable.abort s staging table
    (.error (reported (.ofRun e) own), s)
  | .ok result =>
    match StagedTable.finish s staging table with
    | (.error e, s) => (.error e, s)
    | (.ok staged, s) =>
      let draft := draftOf settings input listened.pipeline.recorder staged
      match draft.publish world.faults world.meanwhile s with
      | (.ok archivePath, s) => (.ok ⟨result, draft.totals, archivePath⟩, s)
      | (.error e, s) => (.error e, s)

def createStaging (faults : Faults) (settings : Settings) (s : Store) :
    Except Failure (Location × Store) := do
  faults.check .createStaging 0
  StagedTable.create s settings.layout settings.resolvedStagingDir
    (Path.fileName? settings.archivePath)

-- A traced parse with more listeners, if `fuel` is enough for it. `touch` is what they did to the
-- store, told by the states they ended in.
def runWith {σ : Type} (fuel : Nat) (world : World) (settings : Settings)
    (classifier : Classifier) (g : Grammar) (input : Input) (extras : Listener ListenerError σ)
    (states : σ) (touch : σ → Store → Store) (s : Store) :
    Option ((Except TraceError Report × Store) × σ) :=
  match createStaging world.faults settings s with
  | .error failure => some ((.error (.io failure), s), states)
  | .ok (staging, s) =>
    (listenWith fuel world g input (pipeline world settings classifier) extras states).map
      fun listened =>
        (settle world settings input staging listened (touch listened.extras s), listened.extras)

def run? (world : World) (settings : Settings) (classifier : Classifier) (g : Grammar)
    (input : Input) (s : Store) : Option (Except TraceError Report × Store) :=
  (runWith Grammar.fuelLimit world settings classifier g input .deaf () (fun _ s => s) s).map (·.1)

end TracedRun

end MatchTrace
