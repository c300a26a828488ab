/-!
Paths as texts: names between slashes. A slash in front makes a path absolute; empty names and
single dots between slashes mean nothing.
-/

namespace MatchTrace.Path

set_option autoImplicit false

def splitSlashes : List Char → List (List Char)
  | [] => [[]]
  | c :: cs =>
    if c = '/' then [] :: splitSlashes cs
    else
      match splitSlashes cs with
      | [] => [[c]]
      | name :: names => (c :: name) :: names

def joinSlashes (names : List (List Char)) : List Char := ['/'].intercalate names

def isAbsolute (path : String) : Bool := path.toList.head? == some '/'

def isIdle (name : List Char) : Bool := name == [] || name == ['.']

-- Names without the idle ones at the end. Where a path is relative, a dot in front is kept.
def dropIdle (keep : Nat) (names : List (List Char)) : List (List Char) :=
  names.take keep ++ ((names.drop keep).reverse.dropWhile isIdle).reverse

-- The names of a path after its root, and how many of them at the front are kept though idle.
def body (path : String) : List (List Char) × Nat :=
  if isAbsolute path then (splitSlashes (path.toList.drop 1), 0)
  else
    let names := splitSlashes path.toList
    (names, if names.head? == some ['.'] then 1 else 0)

def names (path : String) : List (List Char) :=
  let (names, keep) := body path
  dropIdle keep names

def parent? (path : String) : Option String :=
  let (_, keep) := body path
  match names path with
  | [] => none
  | all =>
    let rest := joinSlashes (dropIdle (min keep (all.length - 1)) all.dropLast)
    some (String.ofList (if isAbsolute path then '/' :: rest else rest))

def fileName? (path : String) : Option String :=
  match (names path).getLast? with
  | some name =>
    if name == ['.', '.'] || isIdle name then none else some (String.ofList name)
  | none => none

-- A path seen from a directory: an absolute one does not depend on it.
def join (dir path : String) : String :=
  if isAbsolute path || dir == "" then path
  else if dir.toList.getLast? == some '/' then dir ++ path
  else dir ++ "/" ++ path

end MatchTrace.Path
