import MatchTrace.Staging.Table
import MatchTrace.Store.Basic

/-!
The staging file that a table is written to. Unless the table is finished, the file is removed; that
it is gone already is no error of its own.
-/

namespace MatchTrace

set_option autoImplicit false

-- A finished table and the file that holds it. The table is still at hand when the file's name is
-- gone.
structure StagedTable where
  location : Location
  table : Table

namespace StagedTable

def create (s : Store) (layout : Layout) (dir : String) (spokenFor : Option String) :
    Except Failure (Location × Store) :=
  match s.createTemp dir layout.stagingSuffix spokenFor with
  | .ok r => .ok r
  | .error cause => .error ⟨.createStaging, cause, []⟩

def discard (s : Store) (loc : Location) (f : Failure) : Failure × Store :=
  let (removed, s) := s.remove loc
  (f.withRemoval removed, s)

-- Waits for the table; what other processes did meanwhile is already in the store.
def finish (s : Store) (loc : Location) (r : Except Stop Table) :
    Except TraceError StagedTable × Store :=
  match r with
  | .ok table => (.ok ⟨loc, table⟩, s.refill loc (.ofText table.text))
  | .error .abandoned => (.error .writerClosed, (s.remove loc).2)
  | .error (.failed failure) =>
    let (failure, s) := discard s loc failure
    (.error (.io failure), s)

def abort (s : Store) (loc : Location) (r : Except Stop Table) : Option TraceError × Store :=
  match finish s loc r with
  | (.ok staged, s) => (none, (s.remove staged.location).2)
  | (.error .writerClosed, s) => (none, s)
  | (.error e, s) => (some e, s)

end StagedTable

end MatchTrace
