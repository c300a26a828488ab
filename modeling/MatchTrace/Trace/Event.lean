import MatchTrace.Trace.Catalog

/-!
Trace events, and what a table says of them: a row for a finished invocation, or an entry for every
event.
-/

namespace MatchTrace

set_option autoImplicit false

inductive Phase where
  | enter
  | success
  | failure
deriving DecidableEq

namespace Phase

def all : List Phase := [enter, success, failure]

def name : Phase → String
  | enter => "ENTER"
  | success => "SUCCESS"
  | failure => "FAILURE"

def ofName? (s : String) : Option Phase := all.find? (·.name == s)

def isExit : Phase → Bool
  | enter => false
  | success | failure => true

end Phase

def rootParent : Int := -1

structure Event where
  phase : Phase
  nodeId : Nat
  parentId : Int
  level : Nat
  matcher : Descriptor
  startOffset : Nat
  offset : Nat
  timestampNanos : Nat
  elapsedNanos : Option Nat
deriving DecidableEq

structure FinishedCall where
  parentId : Int
  id : Nat
  level : Nat
  success : Bool
  matcherId : Nat
  startOffset : Nat
  endOffset : Nat
  elapsedNanos : Nat
deriving DecidableEq

structure EventEntry where
  phase : Phase
  timestamp : Nat
  offset : Nat
  matcherId : Nat
  matcherClass : String
  category : Category
  level : Nat
  nodeId : Nat
  parentId : Int
  elapsedNanos : Option Nat
deriving DecidableEq

namespace Event

def finishedCall? (e : Event) : Option FinishedCall :=
  match e.elapsedNanos with
  | some elapsed =>
    if e.phase.isExit then
      some ⟨e.parentId, e.nodeId, e.level, e.phase == .success, e.matcher.id, e.startOffset,
        e.offset, elapsed⟩
    else none
  | none => none

def entry (e : Event) : EventEntry :=
  ⟨e.phase, e.timestampNanos, e.offset, e.matcher.id, e.matcher.className, e.matcher.category,
   e.level, e.nodeId, e.parentId, e.elapsedNanos⟩

end Event

end MatchTrace
