/-!
What storage can answer to an operation that fails, and the steps of a traced run at which it may.
-/

namespace MatchTrace

set_option autoImplicit false

inductive IoError where
  | notFound
  | exists
  | notDirectory
  | isDirectory
  | nameTooLong
  | invalidPath
  | invalidText
  | overLimit
  | other (message : String)
deriving DecidableEq

namespace IoError

def message : IoError → String
  | notFound => "No such file or directory (os error 2)"
  | .exists => "File exists (os error 17)"
  | notDirectory => "Not a directory (os error 20)"
  | isDirectory => "Is a directory (os error 21)"
  | nameTooLong => "File name too long (os error 36)"
  | invalidPath => "file name contained an unexpected NUL byte"
  | invalidText => "stream did not contain valid UTF-8"
  | overLimit => "staged trace table exceeds max_staging_bytes"
  | other message => message

def kind : IoError → String
  | notFound => "NotFound"
  | .exists => "AlreadyExists"
  | notDirectory => "NotADirectory"
  | isDirectory => "IsADirectory"
  | nameTooLong => "InvalidFilename"
  | invalidPath => "InvalidInput"
  | invalidText => "InvalidData"
  | overLimit => "Other"
  | other _ => "Other"

end IoError

inductive Step where
  | createStaging
  | startTable
  | writeEvent
  | finishTable
  | flushTable
  | syncTable
  | createArchive
  | writeInput
  | writeMatchers
  | copyTable
  | writeSummary
  | finishArchive
  | syncArchive
  | publish
  | openArchive
  | readDirectory
  | openEntry (name : String)
  | readEntry (name : String)
  | other (context : String)
deriving DecidableEq

def Step.context : Step → String
  | createStaging => "create staging file"
  | startTable => "start trace table"
  | writeEvent => "write trace event"
  | finishTable => "finish trace table"
  | flushTable => "flush trace table"
  | syncTable => "sync trace table"
  | createArchive => "create archive temp file"
  | writeInput => "write input text"
  | writeMatchers => "write matcher table"
  | copyTable => "copy trace table"
  | writeSummary => "write run summary"
  | finishArchive => "finish archive"
  | syncArchive => "sync archive"
  | publish => "publish archive"
  | openArchive => "open archive"
  | readDirectory => "read archive directory"
  | openEntry name => "open entry " ++ name
  | readEntry name => "read entry " ++ name
  | other context => context

structure Failure where
  step : Step
  cause : IoError
  suppressed : List IoError := []
deriving DecidableEq

namespace Failure

def withRemoval (f : Failure) : Except IoError Unit → Failure
  | .ok _ => f
  | .error e => { f with suppressed := f.suppressed ++ [e] }

def message (f : Failure) : String :=
  let what := s!"failed to {f.step.context}: {f.cause.message}"
  match f.suppressed with
  | [] => what
  | es => what ++ s!" ({es.length} cleanup error(s) suppressed)"

end Failure

end MatchTrace
