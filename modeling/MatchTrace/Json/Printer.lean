import MatchTrace.Json.Basic

/-!
JSON text without blanks, and laid out over lines. The compact text is made of pieces, as a writer
with a buffer takes them.
-/

namespace MatchTrace.JsonValue

set_option autoImplicit false

-- A string literal cut at its escapes: runs of characters that stand for themselves, and escapes.
-- `run` is the run so far, latest first.
def literalPieces (run : List Char) : List Char → List (List Char)
  | [] => [run.reverse]
  | '\\' :: 'u' :: a :: b :: c :: d :: rest =>
    run.reverse :: ['\\', 'u', a, b, c, d] :: literalPieces [] rest
  | '\\' :: c :: rest => run.reverse :: ['\\', c] :: literalPieces [] rest
  | c :: rest => literalPieces (c :: run) rest

def quotedPieces (literal : List Char) : List (List Char) :=
  ['"'] :: (literalPieces [] literal ++ [['"']])

mutual
def pieces : JsonValue → List (List Char)
  | .null => [['n', 'u', 'l', 'l']]
  | .bool true => [['t', 'r', 'u', 'e']]
  | .bool false => [['f', 'a', 'l', 's', 'e']]
  | .number literal => [literal]
  | .string literal => quotedPieces literal
  | .array items => ['['] :: (itemPieces false items ++ [[']']])
  | .object members => ['\x7b'] :: (memberPieces false members ++ [['\x7d']])
def itemPieces (after : Bool) : List JsonValue → List (List Char)
  | [] => []
  | x :: xs => (if after then [[',']] else []) ++ (pieces x ++ itemPieces true xs)
def memberPieces (after : Bool) : List (List Char × JsonValue) → List (List Char)
  | [] => []
  | (key, x) :: ms =>
    (if after then [[',']] else []) ++
      (quotedPieces key ++ ([':'] :: (pieces x ++ memberPieces true ms)))
end

def compactChars (v : JsonValue) : List Char := v.pieces.flatten

def compact (v : JsonValue) : String := String.ofList v.compactChars

def newLine (level : Nat) : List Char := '\n' :: List.replicate (2 * level) ' '

def quoted (literal : List Char) : List Char := '"' :: (literal ++ ['"'])

mutual
def prettyChars (level : Nat) : JsonValue → List Char
  | .array (x :: xs) =>
    '[' :: (newLine (level + 1) ++ prettyChars (level + 1) x ++ prettyItems (level + 1) xs ++
      newLine level ++ [']'])
  | .object ((key, x) :: ms) =>
    '\x7b' :: (newLine (level + 1) ++ quoted key ++ [':', ' '] ++ prettyChars (level + 1) x ++
      prettyMembers (level + 1) ms ++ newLine level ++ ['\x7d'])
  | .null => ['n', 'u', 'l', 'l']
  | .bool true => ['t', 'r', 'u', 'e']
  | .bool false => ['f', 'a', 'l', 's', 'e']
  | .number literal => literal
  | .string literal => quoted literal
  | .array [] => ['[', ']']
  | .object [] => ['\x7b', '\x7d']
def prettyItems (level : Nat) : List JsonValue → List Char
  | [] => []
  | x :: xs => ',' :: (newLine level ++ prettyChars level x ++ prettyItems level xs)
def prettyMembers (level : Nat) : List (List Char × JsonValue) → List Char
  | [] => []
  | (key, x) :: ms =>
    ',' :: (newLine level ++ quoted key ++ [':', ' '] ++ prettyChars level x ++
      prettyMembers level ms)
end

def pretty (v : JsonValue) : String := String.ofList (prettyChars 0 v)

end MatchTrace.JsonValue
