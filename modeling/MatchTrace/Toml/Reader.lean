import MatchTrace.Toml.Scalar
import MatchTrace.Toml.Value

/-!
TOML documents: lines with keys and values, and headers that open tables.
-/

namespace MatchTrace.Toml

set_option autoImplicit false

def literal (cs rest : List Char) : String := String.ofList (cs.take (cs.length - rest.length))

def readPlain (cs : List Char) : Option (Toml × List Char) :=
  match readDate cs with
  | some ((), rest) => some (.date (literal cs rest), rest)
  | none =>
    match readFloat cs <|> readSpecial cs with
    | some ((), rest) => some (.float (literal cs rest), rest)
    | none =>
      match readInteger cs with
      | some (n, rest) => some (.integer n, rest)
      | none =>
        match dropWord ['t', 'r', 'u', 'e'] cs with
        | some rest => some (.boolean true, rest)
        | none =>
          (dropWord ['f', 'a', 'l', 's', 'e'] cs).map fun rest => (.boolean false, rest)

def keyPath (names : List String) : List String × String := (names.dropLast, names.getLastD "")

mutual
def readValue : Nat → Nat → List Char → Option (Toml × List Char)
  | 0, _, _ => none
  | _ + 1, _, [] => none
  | fuel + 1, depth, c :: rest =>
    if c = '"' ∨ c = '\'' then (readString (c :: rest)).map fun (s, rest) => (.string s, rest)
    else if c = '[' then
      if depth + 1 < maxDepth then
        (readItems fuel (depth + 1) rest).map fun (xs, rest) => (.array xs, rest)
      else none
    else if c = '\x7b' then
      if depth + 1 < maxDepth then
        match skipBlanks rest with
        | '\x7d' :: rest => some (.inline [], rest)
        | rest =>
          (readPairs fuel (depth + 1) [] rest).map fun (es, rest) => (.inline es, rest)
      else none
    else readPlain (c :: rest)
def readItems : Nat → Nat → List Char → Option (List Toml × List Char)
  | 0, _, _ => none
  | fuel + 1, depth, cs =>
    match skipLines (cs.length + 1) cs with
    | ']' :: rest => some ([], rest)
    | cs =>
      match readValue fuel depth cs with
      | none => none
      | some (x, rest) =>
        match skipLines (rest.length + 1) rest with
        | ',' :: rest => (readItems fuel depth rest).map fun (xs, rest) => (x :: xs, rest)
        | ']' :: rest => some ([x], rest)
        | _ => none
def readPairs :
    Nat → Nat → List (String × Toml) → List Char → Option (List (String × Toml) × List Char)
  | 0, _, _, _ => none
  | fuel + 1, depth, entries, cs =>
    match readKey cs with
    | none => none
    | some (names, rest) =>
      match skipBlanks rest with
      | '=' :: rest =>
        match readValue fuel depth (skipBlanks rest) with
        | none => none
        | some (v, rest) =>
          match addDotted (keyPath names).2 v (keyPath names).1 entries with
          | none => none
          | some entries =>
            match skipBlanks rest with
            | ',' :: rest => readPairs fuel depth entries rest
            | '\x7d' :: rest => some (entries, rest)
            | _ => none
      | _ => none
end

inductive Line where
  | pair (names : List String) (value : Toml)
  | header (names : List String)
  | itemHeader (names : List String)

def readHeader (closing cs : List Char) : Option (List String × List Char) := do
  let (names, rest) ← readKey cs
  return (names, ← dropWord closing (skipBlanks rest))

def readLine (cs : List Char) : Option (Line × List Char) :=
  match cs with
  | '[' :: '[' :: rest =>
    (readHeader [']', ']'] rest).map fun (names, rest) => (.itemHeader names, rest)
  | '[' :: rest => (readHeader [']'] rest).map fun (names, rest) => (.header names, rest)
  | _ => do
    let (names, rest) ← readKey cs
    let rest ← readMark '=' (skipBlanks rest)
    let (value, rest) ← readValue (2 * rest.length + 1) 0 (skipBlanks rest)
    return (.pair names value, rest)

def readDocument : Nat → List Char → Option (List Line)
  | 0, _ => none
  | fuel + 1, cs =>
    match skipLines (cs.length + 1) cs with
    | [] => some []
    | cs =>
      match readLine cs with
      | none => none
      | some (line, rest) =>
        match lineRest? rest with
        | some rest => (readDocument fuel rest).map (line :: ·)
        | none => none

def takePairs (entries : List (String × Toml)) :
    List Line → Option (List (String × Toml) × List Line)
  | .pair names v :: rest =>
    match addDotted (keyPath names).2 v (keyPath names).1 entries with
    | some entries => takePairs entries rest
    | none => none
  | rest => some (entries, rest)

def openTable (lines : List Line) : Option Toml → Option Toml
  | none => (takePairs [] lines).map fun r => .table .header r.1
  | some (.table .implied entries) => (takePairs entries lines).map fun r => .table .header r.1
  | some _ => none

def openItem (lines : List Line) : Option Toml → Option Toml
  | none => (takePairs [] lines).map fun r => .tables [r.1]
  | some (.tables items) => (takePairs [] lines).map fun r => .tables (items ++ [r.1])
  | some _ => none

def addTables : List (String × Toml) → List Line → Option (List (String × Toml))
  | root, [] => some root
  | root, .pair _ _ :: rest => addTables root rest
  | root, .header names :: rest =>
    match updateAt (openTable rest) names root with
    | some root => addTables root rest
    | none => none
  | root, .itemHeader names :: rest =>
    match updateAt (openItem rest) names root with
    | some root => addTables root rest
    | none => none

def ofString? (s : String) : Option (List (String × Toml)) := do
  let cs := match s.toList with
    | '\uFEFF' :: cs => cs
    | cs => cs
  let lines ← readDocument (cs.length + 1) cs
  let (root, rest) ← takePairs [] lines
  addTables root rest

end MatchTrace.Toml
