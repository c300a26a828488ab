import MatchTrace.Zip.Line

/-!
Directories of zip archives. A record at the end of the file tells where the directory begins and
how many lines it has; if its numbers are too wide for it, they stand in a wide record, and a
locator in front of the end record leads there. Bytes in front of the archive do no harm: by how
much they shift all places shows where the directory, or the wide record, is found.
-/

namespace MatchTrace.Zip

set_option autoImplicit false

def endMark : Nat := 0x06054b50
def wideEndMark : Nat := 0x06064b50
def locatorMark : Nat := 0x07064b50

structure Directory where
  start : Nat
  count : Nat
  shift : Nat

namespace Directory

-- By the end record at `i`. If there are no entries at all, nothing is looked for.
def ofEnd? (b : ByteArray) (i : Nat) : Option Directory := do
  let disk ← word16? b (i + 4)
  let directoryDisk ← word16? b (i + 6)
  let count ← word16? b (i + 8)
  let total ← word16? b (i + 10)
  let listed ← word32? b (i + 16)
  let start ←
    if total = 0 then some (max listed i) else markedBetween? b directoryMark listed i some
  guard (disk = directoryDisk)
  return ⟨start, count, start - listed⟩

-- The place of a wide record that reaches right up to the locator, agrees with it on the disk, and
-- leaves room for the directory in front of it.
def wideEnd? (b : ByteArray) (locator i : Nat) : Option Nat := do
  let size ← word64? b (i + 4)
  guard (44 ≤ size ∧ i + 12 + size = locator)
  guard ((← word32? b (i + 20)) = (← word32? b (locator + 4)))
  guard ((← word64? b (i + 48)) + 46 * (← word64? b (i + 32)) ≤ i)
  return i

def ofLocator? (b : ByteArray) (locator : Nat) : Option Directory := do
  let listed ← word64? b (locator + 8)
  guard ((← word32? b (locator + 16)) ≤ 1)
  let i ← markedBetween? b wideEndMark listed locator (wideEnd? b locator)
  let count ← word64? b (i + 32)
  guard ((← word16? b (i + 14)) ≤ (← word16? b (i + 12)))
  guard ((← word32? b (i + 16)) = (← word32? b (i + 20)))
  guard ((← word64? b (i + 24)) ≤ count)
  return ⟨(← word64? b (i + 48)) + (i - listed), count, i - listed⟩

def at? (b : ByteArray) (i : Nat) : Option Directory := do
  guard ((← word32? b i) = endMark)
  guard (i + 22 + (← word16? b (i + 20)) ≤ b.size)
  let isWide := (← word16? b (i + 10)) = 0xFFFF ∨ (← word32? b (i + 16)) = 0xFFFFFFFF
  if isWide ∧ 20 ≤ i ∧ word32? b (i - 20) = some locatorMark then ofLocator? b (i - 20)
  else ofEnd? b i

def lines? (b : ByteArray) (d : Directory) : Option (List Line) := do
  (← Line.listAt? b d.count d.start).mapM fun line => do
    let header := line.headerStart + d.shift
    guard (header < d.start)
    return { line with headerStart := header }

end Directory

def directoryLines? (b : ByteArray) : Option (List Line) :=
  (List.range (b.size - 21)).reverse.findSome? fun i => do
    (← Directory.at? b i).lines? b

end MatchTrace.Zip
