/-!
Inflating: blocks of bytes stored as they are, or of literals and back references under Huffman
codes, read from a stream of bits. The least significant bit of a byte comes first. A stream that is
corrupt, or that ends before its last block does, gives nothing.
-/

namespace MatchTrace.Zip

set_option autoImplicit false

structure Bits where
  bytes : ByteArray
  read : Nat := 0

namespace Bits

def next? (s : Bits) : Option (Nat × Bits) :=
  (s.bytes[s.read / 8]?).map fun b =>
    ((b.toNat >>> (s.read % 8)) % 2, { s with read := s.read + 1 })

def number? (s : Bits) : Nat → Option (Nat × Bits)
  | 0 => some (0, s)
  | count + 1 => do
    let (low, s) ← s.next?
    let (high, s) ← s.number? count
    return (low + 2 * high, s)

def align (s : Bits) : Bits := { s with read := (s.read + 7) / 8 * 8 }

end Bits

structure PrefixCode where
  counts : List Nat
  symbols : Array Nat

namespace PrefixCode

def maxLength : Nat := 15

def ofLengths (lengths : List Nat) : PrefixCode :=
  let widths := (List.range maxLength).map (· + 1)
  { counts := widths.map lengths.count
    symbols := (widths.flatMap fun w =>
      (lengths.zipIdx.filter fun p => p.1 == w).map (·.2)).toArray }

def unused : Int → List Nat → Option Int
  | free, [] => some free
  | free, n :: ns =>
    let free := 2 * free - n
    if free < 0 then none else unused free ns

def isComplete (c : PrefixCode) : Bool := unused 1 c.counts == some 0

-- Words do not overlap. A code may leave words unused if it has no word of two bits or more.
def isSound (c : PrefixCode) : Bool :=
  match unused 1 c.counts with
  | some free => free == 0 || c.counts.tail.all (· == 0)
  | none => false

-- Reads a word bit by bit: `code` is what was read, `first` the first word of its length, and
-- `index` the place of that word's symbol.
def symbolFrom? (c : PrefixCode) (code first index : Nat) :
    List Nat → Bits → Option (Nat × Bits)
  | [], _ => none
  | count :: counts, s => do
    let (bit, s) ← s.next?
    let code := code + bit
    if code < first + count then
      return (← c.symbols[index + (code - first)]?, s)
    else c.symbolFrom? (2 * code) (2 * (first + count)) (index + count) counts s

def symbol? (c : PrefixCode) (s : Bits) : Option (Nat × Bits) :=
  c.symbolFrom? 0 0 0 c.counts s

end PrefixCode

def lengthCodes : Array (Nat × Nat) := #[
  (3, 0), (4, 0), (5, 0), (6, 0), (7, 0), (8, 0), (9, 0), (10, 0), (11, 1), (13, 1), (15, 1),
  (17, 1), (19, 2), (23, 2), (27, 2), (31, 2), (35, 3), (43, 3), (51, 3), (59, 3), (67, 4),
  (83, 4), (99, 4), (115, 4), (131, 5), (163, 5), (195, 5), (227, 5), (258, 0)]

def distanceCodes : Array (Nat × Nat) := #[
  (1, 0), (2, 0), (3, 0), (4, 0), (5, 1), (7, 1), (9, 2), (13, 2), (17, 3), (25, 3), (33, 4),
  (49, 4), (65, 5), (97, 5), (129, 6), (193, 6), (257, 7), (385, 7), (513, 8), (769, 8),
  (1025, 9), (1537, 9), (2049, 10), (3073, 10), (4097, 11), (6145, 11), (8193, 12), (12289, 12),
  (16385, 13), (24577, 13)]

def extended? (codes : Array (Nat × Nat)) (code : Nat) (s : Bits) : Option (Nat × Bits) := do
  let (least, extra) ← codes[code]?
  let (more, s) ← s.number? extra
  return (least + more, s)

-- The byte that lies `distance` bytes back. In front of the first byte there are zeros.
def byteBack (out : ByteArray) (distance : Nat) : UInt8 :=
  if distance ≤ out.size then (out[out.size - distance]?).getD 0 else 0

def copyBack (distance : Nat) : Nat → ByteArray → ByteArray
  | 0, out => out
  | count + 1, out => copyBack distance count (out.push (byteBack out distance))

def reference? (distances : PrefixCode) (code : Nat) (s : Bits) : Option (Nat × Nat × Bits) := do
  let (count, s) ← extended? lengthCodes (code - 257) s
  let (place, s) ← distances.symbol? s
  let (distance, s) ← extended? distanceCodes place s
  return (count, distance, s)

def endOfBlock : Nat := 256

-- Literals and references up to the mark that ends a block. Every symbol takes a bit, so the number
-- of bits is fuel enough.
def symbols? (literals distances : PrefixCode) : Nat → Bits → ByteArray → Option (ByteArray × Bits)
  | 0, _, _ => none
  | fuel + 1, s, out =>
    match literals.symbol? s with
    | none => none
    | some (code, s) =>
      if code < endOfBlock then symbols? literals distances fuel s (out.push code.toUInt8)
      else if code = endOfBlock then some (out, s)
      else
        match reference? distances code s with
        | none => none
        | some (count, distance, s) =>
          symbols? literals distances fuel s (copyBack distance count out)

def fixedLiterals : PrefixCode :=
  .ofLengths (List.replicate 144 8 ++ List.replicate 112 9 ++ List.replicate 24 7 ++
    List.replicate 8 8)

def fixedDistances : PrefixCode := .ofLengths (List.replicate 32 5)

def lengthOrder : List Nat := [16, 17, 18, 0, 8, 7, 9, 6, 10, 5, 11, 4, 12, 3, 13, 2, 14, 1, 15]

def numbers? (width : Nat) : Nat → Bits → Option (List Nat × Bits)
  | 0, s => some ([], s)
  | count + 1, s => do
    let (n, s) ← s.number? width
    let (ns, s) ← numbers? width count s
    return (n :: ns, s)

def repetition? (symbol : Nat) (done : List Nat) : Option (Nat × Nat × Nat) :=
  if symbol = 16 then done.head?.map (·, 2, 3)
  else if symbol = 17 then some (0, 3, 3)
  else some (0, 7, 11)

-- Code lengths, latest first, until there are `total` of them; three symbols repeat a length.
def codeLengths? (code : PrefixCode) (total : Nat) :
    Nat → Bits → List Nat → Option (List Nat × Bits)
  | 0, _, _ => none
  | fuel + 1, s, done => do
    if done.length = total then return (done.reverse, s)
    else if total < done.length then none
    else
      let (symbol, s) ← code.symbol? s
      if symbol < 16 then codeLengths? code total fuel s (symbol :: done)
      else
        let (length, width, least) ← repetition? symbol done
        let (n, s) ← s.number? width
        codeLengths? code total fuel s (List.replicate (least + n) length ++ done)

def readCodes? (s : Bits) : Option (PrefixCode × PrefixCode × Bits) := do
  let (more, s) ← s.number? 5
  let (distances, s) ← s.number? 5
  let (lengths, s) ← s.number? 4
  let literals := more + 257
  guard (literals ≤ 286 ∧ distances < 30)
  let (widths, s) ← numbers? 3 (lengths + 4) s
  let order := lengthOrder.zip widths
  let code := PrefixCode.ofLengths ((List.range 19).map fun i => (order.lookup i).getD 0)
  guard code.isComplete
  let total := literals + (distances + 1)
  let (all, s) ← codeLengths? code total (total + 1) s []
  guard (all[endOfBlock]? ≠ some 0)
  let first := PrefixCode.ofLengths (all.take literals)
  let second := PrefixCode.ofLengths (all.drop literals)
  guard (first.isSound ∧ second.isSound)
  return (first, second, s)

def storedSize? (s : Bits) : Option (Nat × Bits) := do
  let (count, s) ← s.align.number? 16
  let (complement, s) ← s.number? 16
  guard (count + complement = 0xFFFF)
  return (count, s)

def storedBytes? : Nat → Bits → ByteArray → Option (ByteArray × Bits)
  | 0, s, out => some (out, s)
  | count + 1, s, out =>
    match s.bytes[s.read / 8]? with
    | some b => storedBytes? count { s with read := s.read + 8 } (out.push b)
    | none => none

def block? (kind : Nat) (s : Bits) (out : ByteArray) : Option (ByteArray × Bits) := do
  let fuel := 8 * s.bytes.size + 1
  if kind = 0 then
    let (count, s) ← storedSize? s
    storedBytes? count s out
  else if kind = 1 then symbols? fixedLiterals fixedDistances fuel s out
  else if kind = 2 then
    let (literals, distances, s) ← readCodes? s
    symbols? literals distances fuel s out
  else none

def blocks? : Nat → Bits → ByteArray → Option ByteArray
  | 0, _, _ => none
  | fuel + 1, s, out => do
    let (header, s) ← s.number? 3
    let (out, s) ← block? (header / 2) s out
    if header % 2 = 1 then return out else blocks? fuel s out

def inflate? (bytes : ByteArray) : Option ByteArray :=
  blocks? (8 * bytes.size + 1) ⟨bytes, 0⟩ ByteArray.empty

end MatchTrace.Zip
