import MatchTrace.Rule.Basic
import MatchTrace.Trace.Classifier

/-!
Descriptors of the rule nodes that a run meets, numbered in the order of first sight.
-/

namespace MatchTrace

set_option autoImplicit false

structure Descriptor where
  id : Nat
  className : String
  category : Category
  label : String
deriving DecidableEq

-- Row `i` belongs to the node that was seen `i`-th; a node is known by its number.
structure Catalog where
  rows : List (Nat × Descriptor) := []
deriving DecidableEq

namespace Catalog

def size (x : Catalog) : Nat := x.rows.length

def get? (x : Catalog) (r : Rule) : Option Descriptor :=
  (x.rows.find? (·.1 == r.id)).map (·.2)

def descriptors (x : Catalog) : List Descriptor := x.rows.map (·.2)

def maxId : Nat := 0xFFFFFFFF

def nextId (count : Nat) : Except TraceError Nat :=
  if count ≤ maxId then .ok count else .error (.tooManyMatchers count)

def resolve (x : Catalog) (k : Classifier) (r : Rule) :
    Except TraceError Descriptor × Catalog × Classifier :=
  match x.get? r with
  | some d => (.ok d, x, k)
  | none =>
    match k.classify r.ruleClass with
    | (.error e, k) => (.error e, x, k)
    | (.ok category, k) =>
      match nextId x.size with
      | .error e => (.error e, x, k)
      | .ok id =>
        let d : Descriptor := ⟨id, r.ruleClass.name, category, r.label⟩
        (.ok d, ⟨x.rows ++ [(r.id, d)]⟩, k)

end Catalog

end MatchTrace
