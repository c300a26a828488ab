import MatchTrace.Text.Decimal
import MatchTrace.Text.Hex

/-!
Blanks, strings, keys, numbers and dates of TOML. Every reader takes a front part of the text and
leaves the rest, or finds nothing.
-/

namespace MatchTrace.Toml

set_option autoImplicit false

abbrev Reads (α : Type) := List Char → Option (α × List Char)

def isBlank (c : Char) : Bool := c = ' ' || c = '\t'

def skipBlanks (cs : List Char) : List Char := cs.dropWhile isBlank

def isPlain (c : Char) : Bool := c = '\t' || (0x20 ≤ c.toNat && c.toNat ≠ 0x7F)

def lineEnd? : List Char → Option (List Char)
  | '\n' :: rest => some rest
  | '\r' :: '\n' :: rest => some rest
  | _ => none

def skipComment : List Char → List Char
  | '#' :: rest => rest.dropWhile isPlain
  | cs => cs

def lineRest? (cs : List Char) : Option (List Char) :=
  match skipComment (skipBlanks cs) with
  | [] => some []
  | cs => lineEnd? cs

def skipLines : Nat → List Char → List Char
  | 0, cs => cs
  | fuel + 1, cs =>
    let rest := skipComment (skipBlanks cs)
    match lineEnd? rest with
    | some rest => skipLines fuel rest
    | none => rest

def scalar? (n : Nat) : Option Char := if n.isValidChar then some (Char.ofNat n) else none

def hexNumber? (cs : List Char) : Option Nat :=
  cs.foldl (fun n c => do return (← n) * 16 + (← hexDigit? c)) (some 0)

def hexScalar? (width : Nat) (cs : List Char) : Option (Char × List Char) := do
  let digits := cs.take width
  guard (digits.length = width)
  return (← scalar? (← hexNumber? digits), cs.drop width)

def readEscape : Reads Char
  | '"' :: rest => some ('"', rest)
  | '\\' :: rest => some ('\\', rest)
  | 'b' :: rest => some ('\x08', rest)
  | 'f' :: rest => some ('\x0c', rest)
  | 'n' :: rest => some ('\n', rest)
  | 'r' :: rest => some ('\r', rest)
  | 't' :: rest => some ('\t', rest)
  | 'u' :: rest => hexScalar? 4 rest
  | 'U' :: rest => hexScalar? 8 rest
  | _ => none

def readBasic : Nat → List Char → Reads String
  | 0, _, _ => none
  | _ + 1, _, [] => none
  | fuel + 1, done, c :: rest =>
    if c = '"' then some (String.ofList done.reverse, rest)
    else if c = '\\' then
      match readEscape rest with
      | some (e, rest) => readBasic fuel (e :: done) rest
      | none => none
    else if isPlain c then readBasic fuel (c :: done) rest
    else none

def readLiteral (done : List Char) : Reads String
  | [] => none
  | c :: rest =>
    if c = '\'' then some (String.ofList done.reverse, rest)
    else if isPlain c then readLiteral (c :: done) rest
    else none

-- After three quotes that may end a string: up to two more belong to it.
def closingQuotes (quote : Char) (done : List Char) (rest : List Char) : String × List Char :=
  match rest with
  | c :: d :: more =>
    if c = quote ∧ d = quote then (String.ofList (quote :: quote :: done).reverse, more)
    else if c = quote then (String.ofList (quote :: done).reverse, d :: more)
    else (String.ofList done.reverse, rest)
  | [c] =>
    if c = quote then (String.ofList (quote :: done).reverse, [])
    else (String.ofList done.reverse, rest)
  | [] => (String.ofList done.reverse, [])

def skipBlankLines : List Char → List Char
  | '\r' :: '\n' :: rest => skipBlankLines rest
  | c :: rest => if isBlank c || c == '\n' then skipBlankLines rest else c :: rest
  | [] => []

def foldedLine? (cs : List Char) : Option (List Char) :=
  (lineEnd? (skipBlanks cs)).map skipBlankLines

def readLong (quote : Char) : Nat → List Char → Reads String
  | 0, _, _ => none
  | _ + 1, _, [] => none
  | fuel + 1, done, c :: rest =>
    if c = quote then
      match rest with
      | d :: e :: rest' =>
        if d = quote ∧ e = quote then some (closingQuotes quote done rest')
        else readLong quote fuel (c :: done) rest
      | _ => none
    else if c = '\\' ∧ quote = '"' then
      match foldedLine? rest with
      | some rest => readLong quote fuel done rest
      | none =>
        match readEscape rest with
        | some (e, rest) => readLong quote fuel (e :: done) rest
        | none => none
    else
      match lineEnd? (c :: rest) with
      | some rest => readLong quote fuel ('\n' :: done) rest
      | none => if isPlain c then readLong quote fuel (c :: done) rest else none

def afterOpening (cs : List Char) : List Char := (lineEnd? cs).getD cs

def readString (cs : List Char) : Option (String × List Char) :=
  match cs with
  | '"' :: '"' :: '"' :: rest => readLong '"' (cs.length + 1) [] (afterOpening rest)
  | '\'' :: '\'' :: '\'' :: rest => readLong '\'' (cs.length + 1) [] (afterOpening rest)
  | '"' :: rest => readBasic (cs.length + 1) [] rest
  | '\'' :: rest => readLiteral [] rest
  | _ => none

def isBareKey (c : Char) : Bool := c.isAlphanum || c = '_' || c = '-'

def readSimpleKey (cs : List Char) : Option (String × List Char) :=
  match cs with
  | '"' :: rest => readBasic (cs.length + 1) [] rest
  | '\'' :: rest => readLiteral [] rest
  | _ =>
    match cs.takeWhile isBareKey with
    | [] => none
    | name => some (String.ofList name, cs.dropWhile isBareKey)

def readDotted : Nat → Reads (List String)
  | 0, _ => none
  | fuel + 1, cs =>
    match readSimpleKey (skipBlanks cs) with
    | none => none
    | some (name, rest) =>
      match skipBlanks rest with
      | '.' :: more => (readDotted fuel more).map fun (names, rest) => (name :: names, rest)
      | rest => some ([name], rest)

def maxDepth : Nat := 80

def readKey (cs : List Char) : Option (List String × List Char) :=
  match readDotted (cs.length + 1) cs with
  | some (names, rest) => if names.length < maxDepth then some (names, rest) else none
  | none => none

def moreDigits (isDigit : Char → Bool) : List Char → List Char × List Char
  | '_' :: d :: rest =>
    if isDigit d then
      let (ds, rest) := moreDigits isDigit rest
      (d :: ds, rest)
    else ([], '_' :: d :: rest)
  | d :: rest =>
    if isDigit d then
      let (ds, rest) := moreDigits isDigit rest
      (d :: ds, rest)
    else ([], d :: rest)
  | [] => ([], [])

def readDigits (isDigit : Char → Bool) : Reads (List Char)
  | [] => none
  | d :: rest =>
    if isDigit d then
      let (ds, rest) := moreDigits isDigit rest
      some (d :: ds, rest)
    else none

def isDecimal (c : Char) : Bool := '0' ≤ c && c ≤ '9'

def readWhole (cs : List Char) : Option (List Char × List Char) :=
  match cs with
  | '0' :: rest => some (['0'], rest)
  | _ => readDigits isDecimal cs

def readSign : List Char → Bool × List Char
  | '+' :: rest => (false, rest)
  | '-' :: rest => (true, rest)
  | rest => (false, rest)

def signed? (isNegative : Bool) (n : Nat) : Option Int :=
  if isNegative then if n ≤ Decimal.maxSigned + 1 then some (-(n : Int)) else none
  else if n ≤ Decimal.maxSigned then some n else none

def radixValue? (radix : Nat) (digits : List Char) : Option Nat :=
  digits.foldl (fun n c => do return (← n) * radix + (← hexDigit? c)) (some 0)

def readInteger (cs : List Char) : Option (Int × List Char) :=
  let based (radix : Nat) (isDigit : Char → Bool) (cs : List Char) := do
    let (digits, rest) ← readDigits isDigit cs
    return (← signed? false (← radixValue? radix digits), rest)
  match cs with
  | '0' :: 'x' :: rest => based 16 (fun c => (hexDigit? c).isSome) rest
  | '0' :: 'o' :: rest => based 8 (fun c => '0' ≤ c && c ≤ '7') rest
  | '0' :: 'b' :: rest => based 2 (fun c => c = '0' || c = '1') rest
  | _ => do
    let (isNegative, rest) := readSign cs
    let (digits, rest) ← readWhole rest
    return (← signed? isNegative (← Decimal.digits? digits), rest)

def readFraction : Reads (List Char)
  | '.' :: rest => readDigits isDecimal rest
  | cs => some ([], cs)

def readExponent (cs : List Char) : Option ((Bool × List Char) × List Char) :=
  match cs with
  | c :: rest =>
    if c = 'e' ∨ c = 'E' then
      let (isNegative, rest) := readSign rest
      (readDigits isDecimal rest).map fun (ds, rest) => ((isNegative, ds), rest)
    else some ((false, []), cs)
  | [] => some ((false, []), [])

def isHuge (whole fraction : List Char) (exponent : Int) : Bool :=
  let digits := (whole ++ fraction).dropWhile (· == '0')
  let scale := exponent - fraction.length
  let size := digits.length + scale
  if digits.isEmpty || size < 300 then false
  else if 400 < size then true
  else
    let mantissa := (Decimal.digits? digits).getD 0
    -- halfway between the largest double and the next power of two
    let bound := 1 <<< 1024 - 1 <<< 970
    if 0 ≤ scale then bound ≤ mantissa * Nat.pow 10 scale.toNat
    else bound * Nat.pow 10 (-scale).toNat ≤ mantissa

-- A number with a fraction, an exponent, or both. A number too large is none, unless it is
-- negative.
def readFloat (cs : List Char) : Option (Unit × List Char) := do
  let (isNegative, rest) := readSign cs
  let (whole, rest) ← readWhole rest
  let (fraction, rest) ← readFraction rest
  let ((downward, exponent), rest) ← readExponent rest
  guard (fraction != [] || exponent != [])
  let size : Int := ((Decimal.digits? exponent).getD 0 : Nat)
  guard (isNegative || !isHuge whole fraction (if downward then -size else size))
  return ((), rest)

def dropWord : List Char → List Char → Option (List Char)
  | [], rest => some rest
  | w :: ws, c :: cs => if w = c then dropWord ws cs else none
  | _ :: _, [] => none

def readSpecial (cs : List Char) : Option (Unit × List Char) :=
  let rest := (readSign cs).2
  (dropWord ['i', 'n', 'f'] rest <|> dropWord ['n', 'a', 'n'] rest).map fun rest => ((), rest)

def readPart (width least most : Nat) (cs : List Char) : Option (Nat × List Char) := do
  let digits := cs.take width
  guard (digits.length = width)
  let n ← Decimal.digits? digits
  guard (least ≤ n ∧ n ≤ most)
  return (n, cs.drop width)

def readMark (c : Char) (cs : List Char) : Option (List Char) :=
  match cs with
  | d :: rest => if d = c then some rest else none
  | [] => none

def isLeapYear (year : Nat) : Bool := year % 4 == 0 && (year % 100 != 0 || year % 400 == 0)

def daysIn (year month : Nat) : Nat :=
  if month = 2 then if isLeapYear year then 29 else 28
  else if month = 4 ∨ month = 6 ∨ month = 9 ∨ month = 11 then 30
  else 31

def readDay (cs : List Char) : Option (List Char) := do
  let (year, rest) ← readPart 4 0 9999 cs
  let (month, rest) ← readPart 2 1 12 (← readMark '-' rest)
  let (_, rest) ← readPart 2 1 (daysIn year month) (← readMark '-' rest)
  return rest

def readTime (cs : List Char) : Option (List Char) := do
  let (_, rest) ← readPart 2 0 23 cs
  let (_, rest) ← readPart 2 0 59 (← readMark ':' rest)
  let (_, rest) ← readPart 2 0 60 (← readMark ':' rest)
  match rest with
  | '.' :: more =>
    if (more.takeWhile isDecimal).isEmpty then none else return more.dropWhile isDecimal
  | _ => return rest

def readOffset : List Char → Option (List Char)
  | 'Z' :: rest => some rest
  | 'z' :: rest => some rest
  | c :: rest =>
    if c = '+' ∨ c = '-' then do
      let (_, rest) ← readPart 2 0 23 rest
      let (_, rest) ← readPart 2 0 59 (← readMark ':' rest)
      return rest
    else none
  | [] => none

def readTimeOfDay : List Char → List Char
  | c :: rest =>
    if c = 'T' ∨ c = 't' ∨ c = ' ' then
      match readTime rest with
      | some rest => (readOffset rest).getD rest
      | none => c :: rest
    else c :: rest
  | [] => []

def readDate (cs : List Char) : Option (Unit × List Char) :=
  match readDay cs with
  | some rest => some ((), readTimeOfDay rest)
  | none => (readTime cs).map fun rest => ((), rest)

end MatchTrace.Toml
