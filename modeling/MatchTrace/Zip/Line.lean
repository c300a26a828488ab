import MatchTrace.Zip.Bytes
import MatchTrace.Zip.Checksum
import MatchTrace.Zip.Names

/-!
Lines of the directory of an archive. A line may bring extra fields, and some of them replace what
it says. A field that is no good spoils its line; one that breaks off is the last, and what was read
of it counts.
-/

namespace MatchTrace.Zip

set_option autoImplicit false

def directoryMark : Nat := 0x02014b50

structure Line where
  isEncrypted : Bool
  method : Nat
  checksum : Nat
  packedSize : Nat
  size : Nat
  headerStart : Nat
  nameBytes : ByteArray
  name : String
  comment : String
  hasCipher : Bool := false

inductive ExtraEnd where
  | refused
  | brokenOff (line : Line)

def demand (holds : Bool) : Except ExtraEnd Unit := if holds then .ok () else .error .refused

namespace Line

def need {α : Type} (line : Line) : Option α → Except ExtraEnd α
  | some x => .ok x
  | none => .error (.brokenOff line)

def wide : Nat := 0xFFFFFFFF

def putWide (b : ByteArray) : List (Line → Nat → Line) → Nat → Line → Except ExtraEnd Line
  | [], _, line => .ok line
  | put :: puts, i, line => do
    let n ← line.need (word64? b i)
    putWide b puts (i + 8) (put line n)

def withWide (line : Line) (b : ByteArray) (i length : Nat) : Except ExtraEnd Line := do
  let isThere (n : Nat) : Bool := 24 ≤ length || n = wide
  let puts :=
    (if isThere line.size then [fun (l : Line) n => { l with size := n }] else []) ++
    (if isThere line.packedSize then [fun (l : Line) n => { l with packedSize := n }] else []) ++
    (if isThere line.headerStart then [fun (l : Line) n => { l with headerStart := n }] else [])
  let line ← putWide b puts i line
  demand (8 * puts.length ≤ length)
  let _ ← line.need (slice? b i length)
  return line

def withLongTimes (line : Line) (b : ByteArray) (i length : Nat) : Except ExtraEnd Line := do
  demand (length = 32)
  let _ ← line.need (word32? b i)
  demand ((← line.need (word16? b (i + 4))) = 1)
  demand ((← line.need (word16? b (i + 6))) = 24)
  let _ ← line.need (slice? b i length)
  return line

-- A field of up to three times. Three flags say which there are, but one may be there anyway.
def withTimes (line : Line) (b : ByteArray) (i length : Nat) : Except ExtraEnd Line := do
  let flags ← line.need (byteAt? b i)
  let count := flags % 2 + flags / 2 % 2 + flags / 4 % 2
  demand (flags < 8 && (length = 5 || length = 1 + 4 * count))
  let _ ← line.need (slice? b i length)
  return line

def withCipher (line : Line) (b : ByteArray) (i length : Nat) : Except ExtraEnd Line := do
  demand (length = 7)
  let version ← line.need (word16? b i)
  let vendor ← line.need (word16? b (i + 2))
  let strength ← line.need (byteAt? b (i + 4))
  let method ← line.need (word16? b (i + 5))
  demand (vendor = 0x4541 && (version = 1 || version = 2) && 1 ≤ strength && strength ≤ 3)
  return { line with method := method, hasCipher := true }

def unicodeText (line : Line) (replaced b : ByteArray) (i length : Nat) :
    Except ExtraEnd (ByteArray × String) := do
  let _ ← line.need (byteAt? b i)
  let checksum ← line.need (word32? b (i + 1))
  demand (5 ≤ length)
  let bytes ← line.need (slice? b (i + 5) (length - 5))
  demand (checksum = (Zip.checksum replaced).toNat)
  match String.fromUTF8? bytes with
  | some text => return (bytes, text)
  | none => throw .refused

def withUnicodeName (line : Line) (b : ByteArray) (i length : Nat) : Except ExtraEnd Line := do
  let (bytes, text) ← line.unicodeText line.nameBytes b i length
  return { line with nameBytes := bytes, name := text }

def withUnicodeComment (line : Line) (b : ByteArray) (i length : Nat) : Except ExtraEnd Line := do
  let (_, text) ← line.unicodeText line.comment.toUTF8 b i length
  return { line with comment := text }

def withField (line : Line) (b : ByteArray) (kind i length : Nat) : Except ExtraEnd Line :=
  if kind = 0x0001 then line.withWide b i length
  else if kind = 0x000A then line.withLongTimes b i length
  else if kind = 0x5455 then line.withTimes b i length
  else if kind = 0x6375 then line.withUnicodeComment b i length
  else if kind = 0x7075 then line.withUnicodeName b i length
  else if kind = 0x9901 then line.withCipher b i length
  else do
    let _ ← line.need (slice? b i length)
    return line

-- The line after all its extra fields, the first of them at `i`, unless one spoils it. A field
-- takes four bytes and more, so the number of bytes is fuel enough.
def withFields? (b : ByteArray) : Nat → Nat → Line → Option Line
  | 0, _, line => some line
  | fuel + 1, i, line =>
    match word16? b i, word16? b (i + 2) with
    | some kind, some length =>
      match line.withField b kind (i + 4) length with
      | .ok line => withFields? b fuel (i + 4 + length) line
      | .error .refused => none
      | .error (.brokenOff line) => some line
    | _, _ => some line

def cipherMethod : Nat := 99

def at? (b : ByteArray) (i : Nat) : Option (Line × Nat) := do
  guard ((← word32? b i) = directoryMark)
  let flags ← word16? b (i + 8)
  let nameSize ← word16? b (i + 28)
  let extraSize ← word16? b (i + 30)
  let commentSize ← word16? b (i + 32)
  let nameBytes ← slice? b (i + 46) nameSize
  let extra ← slice? b (i + 46 + nameSize) extraSize
  let comment ← slice? b (i + 46 + nameSize + extraSize) commentSize
  let isUtf8 := flags / 0x800 % 2 == 1
  let line ← withFields? extra extra.size 0 {
    isEncrypted := flags % 2 == 1
    method := ← word16? b (i + 10)
    checksum := ← word32? b (i + 16)
    packedSize := ← word32? b (i + 20)
    size := ← word32? b (i + 24)
    headerStart := ← word32? b (i + 42)
    nameBytes := nameBytes
    name := textOf isUtf8 nameBytes
    comment := textOf isUtf8 comment }
  guard (line.method ≠ cipherMethod ∨ line.hasCipher)
  return (line, i + 46 + nameSize + extraSize + commentSize)

def listAt? (b : ByteArray) : Nat → Nat → Option (List Line)
  | 0, _ => some []
  | count + 1, i => do
    let (line, next) ← at? b i
    return line :: (← listAt? b count next)

end Line

end MatchTrace.Zip
