/-!
TOML values and tables. How a table came about decides what may still be added to it.
-/

namespace MatchTrace

set_option autoImplicit false

inductive TableOrigin where
  | implied
  | dotted
  | header
deriving DecidableEq

inductive Toml where
  | string (text : String)
  | integer (value : Int)
  | float (literal : String)
  | boolean (value : Bool)
  | date (literal : String)
  | array (items : List Toml)
  | inline (entries : List (String × Toml))
  | table (origin : TableOrigin) (entries : List (String × Toml))
  | tables (items : List (List (String × Toml)))

namespace Toml

def put (key : String) (v : Toml) : List (String × Toml) → List (String × Toml)
  | [] => [(key, v)]
  | (k, w) :: rest => if k = key then (k, v) :: rest else (k, w) :: put key v rest

def addKey (key : String) (v : Toml) (entries : List (String × Toml)) :
    Option (List (String × Toml)) :=
  match entries.lookup key with
  | some _ => none
  | none => some (entries ++ [(key, v)])

def onLast {α : Type} (f : α → Option α) : List α → Option (List α)
  | [] => none
  | [x] => (f x).map fun y => [y]
  | x :: xs => (onLast f xs).map (x :: ·)

-- A value under a dotted key. Only tables that dots made may be added to, though the path may lead
-- through tables that headers implied.
def addDotted (key : String) (v : Toml) :
    List String → List (String × Toml) → Option (List (String × Toml))
  | [], entries => addKey key v entries
  | name :: path, entries =>
    match entries.lookup name with
    | none => (addDotted key v path []).map fun sub => put name (.table .dotted sub) entries
    | some (.table .dotted sub) =>
      (addDotted key v path sub).map fun sub => put name (.table .dotted sub) entries
    | some (.table .implied sub) =>
      if path.isEmpty then none
      else (addDotted key v path sub).map fun sub => put name (.table .implied sub) entries
    | some (.tables items) =>
      if path.isEmpty then none
      else (onLast (addDotted key v path) items).map fun items => put name (.tables items) entries
    | some _ => none

-- Changes what lies at a path of headers. An array of tables stands for its last table.
def updateAt (f : Option Toml → Option Toml) :
    List String → List (String × Toml) → Option (List (String × Toml))
  | [], _ => none
  | [name], entries => (f (entries.lookup name)).map fun v => put name v entries
  | name :: path, entries =>
    match entries.lookup name with
    | none => (updateAt f path []).map fun sub => put name (.table .implied sub) entries
    | some (.table origin sub) =>
      (updateAt f path sub).map fun sub => put name (.table origin sub) entries
    | some (.tables items) =>
      (onLast (updateAt f path) items).map fun items => put name (.tables items) entries
    | some _ => none

end Toml

end MatchTrace
