import MatchTrace.Store.Content
import MatchTrace.Store.Path

/-!
A tree of directories and files, and the operations that a traced run needs. A path is followed name
by name from the root or from the current directory.
-/

namespace MatchTrace

set_option autoImplicit false

abbrev Location := List String

inductive Node where
  | dir
  | file (content : Content)

-- The root stands for itself: it is a directory, and no node is kept for it.
structure Store where
  nodes : List (Location × Node) := []
  current : Location := []

namespace Store

def node? (s : Store) : Location → Option Node
  | [] => some .dir
  | loc => (s.nodes.find? (·.1 == loc)).map (·.2)

def maxName : Nat := 255
def maxPath : Nat := 4096

def byteLength (s : List Char) : Nat := (s.map Char.utf8Size).foldr (· + ·) 0

def isDir (s : Store) (loc : Location) : Except IoError Unit :=
  match s.node? loc with
  | some .dir => .ok ()
  | some (.file _) => .error .notDirectory
  | none => .error .notFound

def enter (s : Store) (loc : Location) (name : List Char) : Except IoError Location := do
  s.isDir loc
  if Path.isIdle name then return loc
  else if name = ['.', '.'] then return loc.dropLast
  else if maxName < byteLength name then throw .nameTooLong
  else
    let next := loc ++ [String.ofList name]
    match s.node? next with
    | some _ => return next
    | none => throw .notFound

def follow (s : Store) : Location → List (List Char) → Except IoError Location
  | loc, [] => .ok loc
  | loc, name :: names => do s.follow (← s.enter loc name) names

-- A path that is too long, or is none at all, is refused before anything is looked up.
def checkPath (path : String) : Except IoError Unit :=
  if path == "" then .error .notFound
  else if path.toList.contains '\x00' then .error .invalidPath
  else if maxPath ≤ byteLength path.toList then .error .nameTooLong
  else .ok ()

def origin (s : Store) (path : String) : Location := if Path.isAbsolute path then [] else s.current

def steps (path : String) : List (List Char) :=
  let names := Path.splitSlashes path.toList
  if Path.isAbsolute path then names.drop 1 else names

def locate (s : Store) (path : String) : Except IoError Location := do
  checkPath path
  s.follow (s.origin path) (steps path)

def isThere (s : Store) (path : String) : Bool :=
  match s.locate path with
  | .ok _ => true
  | .error _ => false

def read (s : Store) (path : String) : Except IoError Node := do
  let loc ← s.locate path
  match s.node? loc with
  | some node => return node
  | none => throw .notFound

def readText (s : Store) (path : String) : Except IoError String := do
  match ← s.read path with
  | .file content => content.text?
  | .dir => throw .isDirectory

def put (s : Store) (loc : Location) (node : Node) : Store :=
  { s with nodes := s.nodes.filter (·.1 != loc) ++ [(loc, node)] }

def refill (s : Store) (loc : Location) (content : Content) : Store :=
  { s with nodes := s.nodes.map fun e => if e.1 == loc then (e.1, .file content) else e }

def remove (s : Store) (loc : Location) : Except IoError Unit × Store :=
  match s.node? loc with
  | some (.file _) => (.ok (), { s with nodes := s.nodes.filter (·.1 != loc) })
  | some .dir => (.error .isDirectory, s)
  | none => (.error .notFound, s)

def tempName (number : Nat) (suffix : String) : String :=
  let digits := toString number
  ".rule-trace-" ++ "".pushn '0' (6 - digits.length) ++ digits ++ suffix

-- A name that is not taken in a directory and not spoken for. Of two candidates more than there are
-- nodes, one will do.
def freshName (s : Store) (dir : Location) (suffix : String) (spokenFor : Option String) :
    String :=
  let candidates := (List.range (s.nodes.length + 2)).map (tempName · suffix)
  (candidates.find? fun name => (s.node? (dir ++ [name])).isNone && spokenFor != some name).getD
    (tempName s.nodes.length suffix)

def absolute (s : Store) (path : String) : String :=
  Path.join ("/" ++ "/".intercalate s.current) path

-- An empty file under a fresh name in a directory. Its absolute path must not be too long, and all
-- fresh names have the same length.
def createTemp (s : Store) (dir suffix : String) (spokenFor : Option String) :
    Except IoError (Location × Store) := do
  let dir := s.absolute dir
  checkPath (Path.join dir (tempName 0 suffix))
  let dir ← s.locate dir
  s.isDir dir
  let loc := dir ++ [s.freshName dir suffix spokenFor]
  return (loc, s.put loc (.file (.bytes ByteArray.empty)))

-- The location that a path names, though nothing need be there: the last name is only looked up in
-- its directory.
def target (s : Store) (path : String) : Except IoError Location := do
  checkPath path
  let names := (steps path).reverse
  let isClosed := names.head? == some []
  match names.dropWhile (· == []) with
  | [] => throw .exists
  | last :: before =>
    let dir ← s.follow (s.origin path) before.reverse
    s.isDir dir
    if last = ['.'] ∨ last = ['.', '.'] then throw .exists
    else if maxName < byteLength last then throw .nameTooLong
    else
      let loc := dir ++ [String.ofList last]
      if (s.node? loc).isSome then throw .exists
      else if isClosed then throw .notDirectory
      else return loc

def moveFresh (s : Store) (source : Location) (path : String) : Except IoError Store := do
  match s.node? source with
  | none => throw .notFound
  | some node =>
    let loc ← s.target path
    return { s with nodes := s.nodes.filter (·.1 != source) }.put loc node

def namesIn (s : Store) (dir : Location) : List String :=
  s.nodes.filterMap fun e =>
    match e.1.getLast? with
    | some name => if e.1.dropLast == dir then some name else none
    | none => none

end Store

end MatchTrace
