/-!
The two layouts of a trace table.
-/

namespace MatchTrace

set_option autoImplicit false

inductive Layout where
  | nodes
  | events
deriving DecidableEq

namespace Layout

def name : Layout → String
  | nodes => "nodes"
  | events => "events"

def ofName? (s : String) : Option Layout := [nodes, events].find? (·.name == s)

def entryName : Layout → String
  | nodes => "nodes.csv"
  | events => "events.json"

def stagingSuffix : Layout → String
  | nodes => ".nodes.part"
  | events => ".events.part"

def unknownMessage (s : String) : String :=
  s!"unknown trace format: {s} (expected nodes|events)"

end Layout

end MatchTrace
