/-!
The 32-bit cyclic redundancy check of zip archives.
-/

namespace MatchTrace.Zip

set_option autoImplicit false

def polynomial : UInt32 := 0xEDB88320

def checksumBit (c : UInt32) : UInt32 :=
  if c &&& 1 = 1 then (c >>> 1) ^^^ polynomial else c >>> 1

def checksumByte (c : UInt32) (b : UInt8) : UInt32 :=
  Nat.repeat checksumBit 8 (c ^^^ b.toUInt32)

def checksum (bytes : ByteArray) : UInt32 :=
  bytes.foldl checksumByte 0xFFFFFFFF ^^^ 0xFFFFFFFF

end MatchTrace.Zip
