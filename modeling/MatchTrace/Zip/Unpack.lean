import MatchTrace.Trace.Step
import MatchTrace.Zip.Directory
import MatchTrace.Zip.Inflate

/-!
Reading zip archives. Each line of the directory leads to an entry, and only the opening of the
entry looks at the header in front of its data.
-/

namespace MatchTrace.Zip

set_option autoImplicit false

inductive Body where
  | text (text : String)
  | unopenable (cause : IoError)
  | unreadable (cause : IoError)
deriving DecidableEq

structure Entry where
  name : String
  body : Body
deriving DecidableEq

def localMark : Nat := 0x04034b50

def dataStart? (b : ByteArray) (header : Nat) : Option Nat := do
  guard ((← word32? b header) = localMark)
  return header + 30 + (← word16? b (header + 26)) + (← word16? b (header + 28))

def checkedText (checksum : Nat) (bytes : ByteArray) : Body :=
  if (Zip.checksum bytes).toNat ≠ checksum then .unreadable (.other "Invalid checksum")
  else
    match String.fromUTF8? bytes with
    | some s => .text s
    | none => .unreadable .invalidText

def stored : Nat := 0
def deflated : Nat := 8

def bodyAt (b : ByteArray) (line : Line) (start : Nat) : Body :=
  let packed := b.extract start (min (start + line.packedSize) b.size)
  if line.hasCipher then .unopenable (.other "Password required to decrypt file")
  else if line.method = stored then checkedText line.checksum packed
  else if line.method = deflated then
    match inflate? packed with
    | some bytes => checkedText line.checksum bytes
    | none => .unreadable (.other "corrupt deflate stream")
  else .unopenable (.other "Compression method not supported")

def body (b : ByteArray) (line : Line) : Body :=
  if line.isEncrypted then .unopenable (.other "Password required to decrypt file")
  else
    match dataStart? b line.headerStart with
    | some start => bodyAt b line start
    | none => .unopenable (.other "Invalid local file header")

-- An entry that comes later under the same name takes the place of the earlier one.
def putEntry (e : Entry) : List Entry → List Entry
  | [] => [e]
  | f :: rest => if f.name = e.name then e :: rest else f :: putEntry e rest

def read? (b : ByteArray) : Option (List Entry) :=
  (directoryLines? b).map fun lines =>
    lines.foldl (fun entries line => putEntry ⟨line.name, body b line⟩ entries) []

end MatchTrace.Zip
