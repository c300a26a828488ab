import MatchTrace.Archive.TracedRun
import MatchTrace.Cli.Args
import MatchTrace.Cli.Inspect
import MatchTrace.Demo
import MatchTrace.Settings.Document

/-!
The two commands: tracing a demo grammar over a file, and looking into an archive.
-/

namespace MatchTrace.Cli

set_option autoImplicit false

inductive Outcome where
  | usage (usage : Usage)
  | failed (messages : List String)
  | printed (text : String)
deriving DecidableEq

def readFile (s : Store) (what path : String) : Except (List String) String :=
  match s.readText path with
  | .ok text => .ok text
  | .error e => .error [s!"Failed to read {what} {path}", e.message]

def baseSettings (g : Given) (s : Store) : Except (List String) Settings :=
  match g.value? .config, g.value? .output with
  | some path, output => do
    let text ← readFile s "config" path
    match Settings.ofDocument text with
    | .ok settings => return { settings with archivePath := output.getD settings.archivePath }
    | .error e => throw (s!"Invalid config {path}" :: e.message :: e.sources)
  | none, some output => .ok { archivePath := output }
  | none, none => .error ["--output is required without --config"]

def readSettings (g : Given) (s : Store) : Except (List String) Settings := do
  let settings ← baseSettings g s
  let settings := match (g.value? .format).bind Layout.ofName? with
    | some layout => { settings with layout }
    | none => settings
  let settings := if g.has .stored then { settings with compression := .stored } else settings
  match settings.validate with
  | .ok _ => return settings
  | .error e => throw [s!"Invalid configuration: {e.message}"]

def reportLine (r : Report) : String :=
  let status := if r.result.matched then "matched" else "no match"
  s!"{status}: {min r.result.endIndex r.result.inputLength} of {r.result.inputLength} chars, " ++
  s!"{r.totals.nodeCount} nodes, {r.totals.matcherCount} matchers -> {r.archivePath}\n"

structure TraceJob where
  settings : Settings
  grammar : Grammar
  input : Input

def prepare (g : Given) (s : Store) : Except (List String) TraceJob := do
  let settings ← readSettings g s
  let text ← readFile s "input" ((g.value? .input).getD "")
  match TracedRun.accept settings s with
  | .error e => throw (e.message :: e.sources)
  | .ok _ =>
    match Demo.ofName? ((g.value? .grammar).getD "") with
    | some grammar => return ⟨settings, grammar, .ofString text⟩
    | none => throw ["unknown grammar"]

def trace (world : World) (g : Given) (s : Store) : Outcome × Store :=
  match prepare g s with
  | .error messages => (.failed messages, s)
  | .ok job =>
    match TracedRun.run? world job.settings .builtIn job.grammar job.input s with
    | none => (.failed ["the run takes too long"], s)
    | some (.ok report, s) => (.printed (reportLine report), s)
    | some (.error e, s) => (.failed ("Trace run failed" :: e.message :: e.sources), s)

def inspect (g : Given) (s : Store) : Outcome :=
  let path := (g.value? .archive).getD ""
  match Archive.ofPath s path with
  | .error e => .failed (s!"Failed to open archive {path}" :: e.message :: e.sources)
  | .ok archive =>
    if g.has .json then .printed ((toJson (g.has .matchers) archive).pretty ++ "\n")
    else .printed (describe path (g.has .matchers) archive)

def run (world : World) (args : List String) (s : Store) : Outcome × Store :=
  match readCommand {} args with
  | .error usage => (.usage usage, s)
  | .ok (.trace g) => trace world g s
  | .ok (.inspect g) => (inspect g s, s)

end MatchTrace.Cli
