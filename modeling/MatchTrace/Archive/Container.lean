import MatchTrace.Archive.Compression

/-!
A packed archive: texts under names, in order.
-/

namespace MatchTrace

set_option autoImplicit false

structure Container where
  compression : Compression
  entries : List (String × String)
deriving DecidableEq

end MatchTrace
