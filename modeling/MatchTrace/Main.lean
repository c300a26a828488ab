import MatchTrace.Cli.Help
import MatchTrace.Cli.Run
import Std.Time.DateTime.Timestamp

/-!
The program. What a command may look at is read from disk into a store, the command runs on the
store, and the files it made there are written to disk.
-/

namespace MatchTrace.Cli

set_option autoImplicit false

def walk (start : Location) (names : List (List Char)) : Location :=
  names.foldl (fun loc name =>
    if Path.isIdle name then loc
    else if name = ['.', '.'] then loc.dropLast
    else loc ++ [String.ofList name]) start

def stations (s : Store) (path : String) : List Location :=
  let names := Store.steps path
  (List.range (names.length + 1)).map fun n => walk (s.origin path) (names.take n)

def diskPath (loc : Location) : String := "/" ++ "/".intercalate loc

def probe (loc : Location) : IO (Option Node) := do
  try
    return some (.file (.bytes (← IO.FS.readBinFile (diskPath loc))))
  catch _ =>
    try
      discard <| IO.FS.realPath (diskPath loc)
      return some .dir
    catch _ => return none

def loadAt (s : Store) (loc : Location) : IO Store := do
  if (s.node? loc).isSome then return s
  match ← probe loc with
  | some node => return s.put loc node
  | none => return s

def load (s : Store) (path : String) : IO Store := (stations s path).foldlM loadAt s

def here : IO Store := do
  let path := (← IO.currentDir).toString
  let current := walk [] (Store.steps path)
  ((List.range current.length).map fun n => current.take (n + 1)).foldlM loadAt { current }

def loadFor (args : List String) : IO Store := do
  let s ← here
  match readCommand {} args with
  | .error _ => return s
  | .ok (.inspect g) => (g.args.map (·.2)).foldlM load s
  | .ok (.trace g) =>
    let s ← (g.args.map (·.2)).foldlM load s
    match readSettings g s with
    | .error _ => return s
    | .ok c => [c.archivePath, c.archiveDir, c.resolvedStagingDir].foldlM load s

-- Writes a file under a name of its own and then gives it the name it is meant to have, which must
-- not be taken.
def publishFile (loc : Location) (content : Content) : IO Unit := do
  let temp := diskPath loc ++ ".part"
  let handle ← IO.FS.Handle.mk temp .writeNew
  try
    handle.write content.toBytes
    handle.flush
    IO.FS.hardLink temp (diskPath loc)
  finally
    IO.FS.removeFile temp

def save (before after : Store) : IO Unit :=
  after.nodes.forM fun (loc, node) => do
    match before.node? loc, node with
    | none, .file content => publishFile loc content
    | _, _ => pure ()

-- Readings of the clock are one nanosecond apart, which tells the order of events.
def now : IO World := do
  let nanos ← IO.monoNanosNow
  let today ← Std.Time.Timestamp.now
  return { clock := fun n => ⟨nanos + n, today.toMillisecondsSinceUnixEpoch.toInt.toNat⟩ }

def tell : Outcome → IO UInt32
  | .printed text => do
    IO.print text
    return 0
  | .failed messages => do
    IO.eprint (failureText messages)
    return 1
  | .usage u => do
    match u with
    | .help => IO.print helpText
    | .version => IO.print versionText
    | _ => IO.eprint (u.complaint ++ helpText)
    return u.exitCode.toUInt32

end MatchTrace.Cli

open MatchTrace Cli in
def main (args : List String) : IO UInt32 := do
  let before ← loadFor args
  let (outcome, after) := Cli.run (← now) args before
  try
    save before after
    tell outcome
  catch e => tell (.failed ["Trace run failed", s!"failed to publish archive: {e}"])
