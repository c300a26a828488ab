import MatchTrace.Archive.Compression
import MatchTrace.Store.Path
import MatchTrace.Table.Layout

/-!
The settings of a traced run, and which of them make sense.
-/

namespace MatchTrace

set_option autoImplicit false

structure Settings where
  archivePath : String
  layout : Layout := .nodes
  compression : Compression := .deflated
  stagingDir : Option String := none
  maxStagingBytes : Option Nat := none
deriving DecidableEq

inductive SettingsError where
  | noFileName (path : String)
  | emptyStagingDir
  | zeroBound
deriving DecidableEq

def SettingsError.message : SettingsError → String
  | noFileName path => s!"archive_path ({path}) must name a file"
  | emptyStagingDir => "staging_dir must not be empty"
  | zeroBound => "max_staging_bytes must be greater than 0"

namespace Settings

def validate (c : Settings) : Except SettingsError Unit :=
  if Path.fileName? c.archivePath = none then .error (.noFileName c.archivePath)
  else if c.stagingDir = some "" then .error .emptyStagingDir
  else if c.maxStagingBytes = some 0 then .error .zeroBound
  else .ok ()

-- The directory of the archive; for a bare file name, the current one.
def archiveDir (c : Settings) : String :=
  match Path.parent? c.archivePath with
  | some parent => if parent = "" then "." else parent
  | none => "."

def resolvedStagingDir (c : Settings) : String := c.stagingDir.getD c.archiveDir

end Settings

end MatchTrace
