import MatchTrace.Staging.File
import MatchTrace.Table.Totals

/-!
Publishing. An archive is put together in a temporary file beside its target and then moved there,
so the target name never stands for anything but a whole archive, and nothing is ever replaced.
-/

namespace MatchTrace

set_option autoImplicit false

def inputEntry : String := "input.txt"
def matchersEntry : String := "matchers.csv"
def infoEntry : String := "info.csv"

structure ArchiveDraft where
  target : String
  archiveDir : String
  compression : Compression
  input : String
  matchers : List Descriptor
  staged : StagedTable
  totals : Totals

namespace ArchiveDraft

def archiveSuffix : String := ".zip.part"

def matchersText (matchers : List Descriptor) : String :=
  String.join (matchers.map Descriptor.toRow)

def container (d : ArchiveDraft) : Container :=
  { compression := d.compression
    entries := [(inputEntry, d.input), (matchersEntry, matchersText d.matchers),
      (d.staged.table.layout.entryName, d.staged.table.text),
      (infoEntry, d.totals.toRow)] }

def assemble (faults : Faults) (d : ArchiveDraft) : Except Failure Container := do
  faults.check .writeInput 0
  (List.range d.matchers.length).forM (faults.check .writeMatchers)
  faults.check .copyTable 0
  faults.check .writeSummary 0
  faults.check .finishArchive 0
  faults.check .syncArchive 0
  return d.container

def createTemp (faults : Faults) (d : ArchiveDraft) (s : Store) : Except IoError (Location × Store) :=
  match faults .createArchive 0 with
  | some cause => .error cause
  | none => s.createTemp d.archiveDir archiveSuffix (Path.fileName? d.target)

def moveIntoPlace (faults : Faults) (d : ArchiveDraft) (temp : Location) (s : Store) :
    Except IoError Store :=
  match faults .publish 0 with
  | some cause => .error cause
  | none => s.moveFresh temp d.target

-- Publishes the archive. `meanwhile` is what other processes do to the store while it is put
-- together.
def publish (faults : Faults) (meanwhile : Store → Store) (d : ArchiveDraft) (s : Store) :
    Except TraceError String × Store :=
  match d.createTemp faults s with
  | .error cause =>
    let (failure, s) := StagedTable.discard s d.staged.location ⟨.createArchive, cause, []⟩
    (.error (.io failure), s)
  | .ok (temp, s) =>
    let s := meanwhile s
    match d.assemble faults with
    | .error failure =>
      let (stagedRemoved, s) := s.remove d.staged.location
      let (failure, s) := StagedTable.discard s temp failure
      (.error (.io (failure.withRemoval stagedRemoved)), s)
    | .ok container =>
      let s := s.refill temp (.archive container)
      let (stagedRemoved, s) := s.remove d.staged.location
      match d.moveIntoPlace faults temp s with
      | .ok s => (.ok d.target, s)
      | .error .exists => (.error (.archiveExists d.target), (s.remove temp).2)
      | .error cause =>
        let (failure, s) := StagedTable.discard s temp ⟨.publish, cause, []⟩
        (.error (.io (failure.withRemoval stagedRemoved)), s)

end ArchiveDraft

end MatchTrace
