import MatchTrace.Settings.Basic
import MatchTrace.Toml.Reader
import MatchTrace.Trace.Error

/-!
Settings from a TOML document. Only the archive path has to be there, and keys nobody knows are
skipped.
-/

namespace MatchTrace

set_option autoImplicit false

namespace Toml

def text? : Toml → Option String
  | .string s => some s
  | _ => none

def nat? : Toml → Option Nat
  | .integer n => if 0 ≤ n then some n.toNat else none
  | _ => none

def isVoid : Toml → Bool
  | .array [] | .inline [] | .table _ [] | .tables [] => true
  | _ => false

def tag? : Toml → Option String
  | .string s => some s
  | .inline [(name, v)] | .table _ [(name, v)] => if v.isVoid then some name else none
  | _ => none

def optional? {α : Type} (read : Toml → Option α) : Option Toml → Option (Option α)
  | none => some none
  | some v => (read v).map some

end Toml

namespace Settings

def ofTable? (root : List (String × Toml)) : Option Settings := do
  let archivePath ← (← root.lookup "archive_path").text?
  let layout ← Toml.optional? (fun v => v.tag?.bind Layout.ofName?) (root.lookup "format")
  let compression ←
    Toml.optional? (fun v => v.tag?.bind Compression.ofName?) (root.lookup "compression")
  let stagingDir ← Toml.optional? Toml.text? (root.lookup "staging_dir")
  let maxStagingBytes ← Toml.optional? Toml.nat? (root.lookup "max_staging_bytes")
  return { archivePath, stagingDir, maxStagingBytes
           layout := layout.getD .nodes, compression := compression.getD .deflated }

def ofDocument (text : String) : Except TraceError Settings :=
  match (Toml.ofString? text).bind ofTable? with
  | none => .error (.invalidConfig "failed to parse config: no settings for a traced run")
  | some settings =>
    match settings.validate with
    | .ok _ => .ok settings
    | .error e => .error (.invalidConfig e.message)

end Settings

end MatchTrace
