import MatchTrace.Rule.Error
import MatchTrace.Rule.Terminal

/-!
Grammar rules. Every rule node carries a number of its own: two nodes built alike are still two
nodes. A proxy stands for a rule that is bound to it later, so grammars may be recursive.
-/

namespace MatchTrace

set_option autoImplicit false

structure View where
  input : Input
  index : Nat
  level : Nat
  label : String
  ruleClass : RuleClass

-- What the body of a custom rule may do next. Children are named by their place in the child list.
inductive Move where
  | finish (matched : Bool)
  | advance (count : Nat)
  | moveTo (index : Nat)
  | call (child : Nat)
  | abort (error : RuleError)
  | look

inductive Answer where
  | done
  | verdict (matched : Bool)
  | seen (view : View)

namespace Answer

def isMatch : Answer → Bool
  | verdict matched => matched
  | _ => false

end Answer

-- The body of a custom rule: its next move, told by all answers so far, the earliest first. It may
-- go on for as long as it likes. An error of a child is passed on.
def Script := List Answer → Move

namespace Script

def next (s : Script) : Move := s []

def after (s : Script) (a : Answer) : Script := fun later => s (a :: later)

def andThen (move : Move) (rest : Answer → Script) : Script
  | [] => move
  | a :: later => rest a later

def finish (matched : Bool) : Script := fun _ => .finish matched

def abort (error : RuleError) : Script := fun _ => .abort error

def advance (count : Nat) (rest : Script) : Script := andThen (.advance count) fun _ => rest

def moveTo (index : Nat) (rest : Script) : Script := andThen (.moveTo index) fun _ => rest

def call (child : Nat) (rest : Bool → Script) : Script :=
  andThen (.call child) fun a => rest a.isMatch

end Script

inductive Rule where
  | terminal (id : Nat) (terminal : Terminal)
  | sequence (id : Nat) (children : List Rule)
  | firstOf (id : Nat) (children : List Rule)
  | optional (id : Nat) (child : Rule)
  | zeroOrMore (id : Nat) (child : Rule)
  | oneOrMore (id : Nat) (child : Rule)
  | test (id : Nat) (child : Rule)
  | testNot (id : Nat) (child : Rule)
  | action (id : Nat) (label : String) (verdict : View → Except Cause Bool)
  | proxy (id : Nat) (label : String)
  | labelled (id : Nat) (label : String) (inner : Rule)
  | custom (id : Nat) (ruleClass : RuleClass) (label : String) (children : List Rule)
      (script : Script)

namespace Rule

def id : Rule → Nat
  | terminal id _ | sequence id _ | firstOf id _ | optional id _ | zeroOrMore id _
  | oneOrMore id _ | test id _ | testNot id _ | action id _ _ | proxy id _ | labelled id _ _
  | custom id _ _ _ _ => id

def ruleClass : Rule → RuleClass
  | terminal _ t => t.ruleClass
  | sequence _ _ => .sequence
  | firstOf _ _ => .firstOf
  | optional _ _ => .optional
  | zeroOrMore _ _ => .zeroOrMore
  | oneOrMore _ _ => .oneOrMore
  | test _ _ => .test
  | testNot _ _ => .testNot
  | action _ _ _ => .action
  | proxy _ _ => .proxy
  | labelled _ _ inner => inner.ruleClass
  | custom _ c _ _ _ => c

def label : Rule → String
  | terminal _ t => t.label
  | sequence _ _ => "Sequence"
  | firstOf _ _ => "FirstOf"
  | optional _ _ => "Optional"
  | zeroOrMore _ _ => "ZeroOrMore"
  | oneOrMore _ _ => "OneOrMore"
  | test _ _ => "Test"
  | testNot _ _ => "TestNot"
  | action _ label _ => label
  | proxy _ label => label
  | labelled _ label _ => label
  | custom _ _ label _ _ => label

def describe (r : Rule) : String := r.ruleClass.name ++ "(" ++ r.label ++ ")"

def children : Rule → List Rule
  | terminal _ _ | action _ _ _ | proxy _ _ => []
  | sequence _ rs | firstOf _ rs | custom _ _ _ rs _ => rs
  | optional _ r | zeroOrMore _ r | oneOrMore _ r | test _ r | testNot _ r | labelled _ _ r => [r]

mutual
-- The numbers of a rule and of all that it holds, directly or further down, with those already
-- `seen`. A node may be held in many places, and is looked into once; it counts as seen when all
-- below it is.
def gather (seen : List Nat) : Rule → List Nat
  | terminal id _ | action id _ _ | proxy id _ => seen.insert id
  | sequence id rs | firstOf id rs | custom id _ _ rs _ =>
    if seen.contains id then seen else id :: gatherAll seen rs
  | optional id r | zeroOrMore id r | oneOrMore id r | test id r | testNot id r
  | labelled id _ r =>
    if seen.contains id then seen else id :: gather seen r
def gatherAll (seen : List Nat) : List Rule → List Nat
  | [] => seen
  | r :: rs => gatherAll (gather seen r) rs
end

end Rule

end MatchTrace
