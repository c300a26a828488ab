import MatchTrace.Trace.Step

/-!
Pieces of text on their way to storage. They are gathered in a buffer, which is passed on when the
next piece does not fit; a piece as large as the buffer is passed on at once. Storage may have room
for so many bytes only, and what does not fit as a whole is refused.
-/

namespace MatchTrace

set_option autoImplicit false

def byteCount (piece : List Char) : Nat := (piece.map Char.utf8Size).foldr (· + ·) 0

structure Gather where
  room : Option Nat
  waiting : List (List Char) := []
  waitingBytes : Nat := 0
  stored : List String := []
deriving DecidableEq

namespace Gather

def capacity : Nat := 8192

def store (g : Gather) (pieces : List (List Char)) (bytes : Nat) : Except IoError Gather :=
  let stored := String.ofList pieces.reverse.flatten :: g.stored
  match g.room with
  | none => .ok { g with stored }
  | some room =>
    if bytes ≤ room then .ok { g with room := some (room - bytes), stored }
    else .error .overLimit

def flush (g : Gather) : Except IoError Gather :=
  match g.store g.waiting g.waitingBytes with
  | .ok g => .ok { g with waiting := [], waitingBytes := 0 }
  | .error e => .error e

def makePlace (g : Gather) (bytes : Nat) : Except IoError Gather :=
  if capacity < g.waitingBytes + bytes then g.flush else .ok g

def put (g : Gather) (piece : List Char) : Except IoError Gather :=
  let bytes := byteCount piece
  match g.makePlace bytes with
  | .error e => .error e
  | .ok g =>
    if capacity ≤ bytes then g.store [piece] bytes
    else .ok { g with waiting := piece :: g.waiting, waitingBytes := g.waitingBytes + bytes }

def putAll (g : Gather) : List (List Char) → Except IoError Gather
  | [] => .ok g
  | piece :: pieces =>
    match g.put piece with
    | .ok g => g.putAll pieces
    | .error e => .error e

def text (g : Gather) : String := String.join g.stored.reverse

end Gather

end MatchTrace
