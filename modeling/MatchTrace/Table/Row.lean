/-!
Rows of text fields. A separator stands between two fields; inside a field, backslashes, separators
and line breaks are escaped, so that a row is always one line and splits back into its fields.
-/

namespace MatchTrace.Row

set_option autoImplicit false

def separator : Char := ';'

def escapeChar (c : Char) : List Char :=
  if c = '\\' then ['\\', '\\']
  else if c = separator then ['\\', separator]
  else if c = '\n' then ['\\', 'n']
  else if c = '\r' then ['\\', 'r']
  else [c]

def escape (field : List Char) : List Char := field.flatMap escapeChar

def unescapeChar (c : Char) : Char :=
  if c = 'n' then '\n' else if c = 'r' then '\r' else c

-- A backslash that nothing follows stands for itself.
def unescape : List Char → List Char
  | [] => []
  | ['\\'] => ['\\']
  | '\\' :: c :: rest => unescapeChar c :: unescape rest
  | c :: rest => c :: unescape rest

def onFirst (cs : List Char) : List (List Char) → List (List Char)
  | [] => [cs]
  | p :: ps => (cs ++ p) :: ps

def pieces : List Char → List (List Char)
  | [] => [[]]
  | '\\' :: c :: rest => onFirst ['\\', c] (pieces rest)
  | c :: rest => if c = separator then [] :: pieces rest else onFirst [c] (pieces rest)

def split (row : List Char) : List (List Char) := (pieces row).map unescape

def join (fields : List (List Char)) : List Char :=
  [separator].intercalate (fields.map escape)

end MatchTrace.Row
