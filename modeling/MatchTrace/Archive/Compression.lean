/-!
How the entries of an archive are packed.
-/

namespace MatchTrace

set_option autoImplicit false

inductive Compression where
  | deflated
  | stored
deriving DecidableEq

namespace Compression

def name : Compression → String
  | deflated => "deflated"
  | stored => "stored"

def ofName? (s : String) : Option Compression := [deflated, stored].find? (·.name == s)

end Compression

end MatchTrace
