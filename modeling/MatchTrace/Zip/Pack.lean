import MatchTrace.Archive.Compression
import MatchTrace.Zip.Checksum

/-!
Writing zip archives. Deflated entries are written in blocks that store their bytes as they are.
-/

namespace MatchTrace.Zip

set_option autoImplicit false

def byteList (bytes : List Nat) : ByteArray := ⟨(bytes.map Nat.toUInt8).toArray⟩

def word16 (n : Nat) : List Nat := [n % 0x100, n / 0x100 % 0x100]

def word32 (n : Nat) : List Nat := word16 n ++ word16 (n / 0x10000)

def maxBlock : Nat := 0xFFFF

def storedBlockBytes (isLast : Bool) (bytes : ByteArray) : ByteArray :=
  byteList ((if isLast then 1 else 0) :: (word16 bytes.size ++ word16 (0xFFFF - bytes.size))) ++
    bytes

def storedBlocks (bytes : ByteArray) : Nat → Nat → ByteArray
  | 0, _ => ByteArray.empty
  | fuel + 1, start =>
    let stop := start + maxBlock
    if bytes.size ≤ stop then storedBlockBytes true (bytes.extract start bytes.size)
    else storedBlockBytes false (bytes.extract start stop) ++ storedBlocks bytes fuel stop

def pack (compression : Compression) (bytes : ByteArray) : ByteArray :=
  match compression with
  | .stored => bytes
  | .deflated => storedBlocks bytes (bytes.size / maxBlock + 1) 0

def methodOf : Compression → Nat
  | .stored => 0
  | .deflated => 8

-- Version, flags (names are UTF-8), method, time and date, check, both sizes, and name and extra
-- lengths: what an entry's own header and its directory line share.
def commonFields (compression : Compression) (name bytes packed : ByteArray) : List Nat :=
  word16 20 ++ word16 0x800 ++ word16 (methodOf compression) ++ word16 0 ++ word16 0x21 ++
    word32 (checksum bytes).toNat ++ word32 packed.size ++ word32 bytes.size ++
    word16 name.size ++ word16 0

def localEntry (compression : Compression) (name bytes packed : ByteArray) : ByteArray :=
  byteList (word32 0x04034b50 ++ commonFields compression name bytes packed) ++ name ++ packed

def directoryLine (compression : Compression) (name bytes packed : ByteArray) (start : Nat) :
    ByteArray :=
  byteList (word32 0x02014b50 ++ word16 20 ++ commonFields compression name bytes packed ++
    word16 0 ++ word16 0 ++ word16 0 ++ word32 0 ++ word32 start) ++ name

structure Written where
  body : ByteArray := ByteArray.empty
  directory : ByteArray := ByteArray.empty

def Written.add (compression : Compression) (w : Written) (entry : String × ByteArray) :
    Written :=
  let (name, bytes) := (entry.1.toUTF8, entry.2)
  let packed := pack compression bytes
  { body := w.body ++ localEntry compression name bytes packed
    directory := w.directory ++ directoryLine compression name bytes packed w.body.size }

def write (compression : Compression) (entries : List (String × ByteArray)) : ByteArray :=
  let w := entries.foldl (Written.add compression) ⟨ByteArray.empty, ByteArray.empty⟩
  let count := entries.length
  w.body ++ w.directory ++
    byteList (word32 0x06054b50 ++ word16 0 ++ word16 0 ++ word16 count ++ word16 count ++
      word32 w.directory.size ++ word32 w.body.size ++ word16 0)

end MatchTrace.Zip
