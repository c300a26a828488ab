import MatchTrace.Archive.Container
import MatchTrace.Zip.Pack
import MatchTrace.Zip.Unpack

/-!
Contents of files. An archive that was written here is kept unpacked; its bytes are made when
somebody asks for them. `Zip.read_texts` shows that they read back as the same entries if the archive
is shorter than 4 GiB. That a longer one reads back is assumed of whatever wrote it.
-/

namespace MatchTrace

set_option autoImplicit false

inductive Content where
  | bytes (bytes : ByteArray)
  | archive (container : Container)

namespace Content

def ofText (s : String) : Content := .bytes s.toUTF8

def toBytes : Content → ByteArray
  | bytes b => b
  | archive c => Zip.write c.compression (c.entries.map fun (name, text) => (name, text.toUTF8))

def text? (c : Content) : Except IoError String :=
  match String.fromUTF8? c.toBytes with
  | some s => .ok s
  | none => .error .invalidText

def entries? : Content → Except IoError (List Zip.Entry)
  | bytes b =>
    match Zip.read? b with
    | some entries => .ok entries
    | none => .error (.other "invalid Zip archive")
  | archive c => .ok (c.entries.map fun (name, text) => ⟨name, .text text⟩)

end Content

end MatchTrace
