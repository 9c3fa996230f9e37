import Std.Data.TreeMap
import IsoTransport.Bytes

/-!
Fragments of messages that are not complete, and the messages rebuilt from them. Fragments may come
in any order; a message is rebuilt once its last fragment is known and none before it is missing.
-/

namespace IsoTransport

abbrev MessageId := UInt32

abbrev FrameIndex := Nat

/-- The fragments of one message by their number, and the number of its last one if it is known. -/
structure Pending where
  pieces : Std.TreeMap Nat Bytes := ∅
  last : Option Nat := none

namespace Pending

def missingUpTo (p : Pending) (n : Nat) : List Nat :=
  (List.range (n + 1)).filter (!p.pieces.contains ·)

/-- The numbers that are not there up to the last fragment, or up to the highest one. -/
def missing (p : Pending) : List Nat :=
  p.missingUpTo ((p.last.or p.pieces.maxKey?).getD 0)

def isComplete (p : Pending) : Bool :=
  match p.last with
  | some n => (List.range (n + 1)).all p.pieces.contains
  | none => false

def payload (p : Pending) : Bytes := p.pieces.values.flatten

/-- Stores a fragment; a number that is already there keeps its first bytes. -/
def insert (p : Pending) (number : Nat) (data : Bytes) (more : Bool) : Pending where
  pieces := p.pieces.insertIfNew number data
  last := if more then p.last else some number

end Pending

structure Rebuilt where
  payload : Bytes
  /-- The frame whose fragment completed the message. -/
  frame : FrameIndex
  count : Nat
  deriving DecidableEq

structure FragmentStore where
  pending : Std.TreeMap MessageId Pending := ∅
  rebuilt : Std.TreeMap MessageId Rebuilt := ∅

namespace FragmentStore

def rebuilt? (s : FragmentStore) (id : MessageId) : Option Rebuilt := s.rebuilt[id]?

/-- Stores a fragment, where `more` tells that it is not the last one. The answer is the message, if
this fragment completes it; after that nothing is stored for it any more. -/
def add (s : FragmentStore) (id : MessageId) (number : Nat) (frame : FrameIndex) (data : Bytes)
    (more : Bool) : Option Rebuilt × FragmentStore :=
  if s.rebuilt.contains id then (none, s)
  else
    let p := (s.pending.getD id {}).insert number data more
    if p.isComplete then
      let message : Rebuilt := { payload := p.payload, frame, count := p.pieces.size }
      (some message,
        { pending := s.pending.erase id, rebuilt := s.rebuilt.insert id message })
    else (none, { s with pending := s.pending.insert id p })

def buffered (s : FragmentStore) (id : MessageId) : Nat :=
  (s.pending[id]?.map (·.pieces.size)).getD 0

def missing (s : FragmentStore) (id : MessageId) : List Nat :=
  (s.pending[id]?.map (·.missing)).getD []

/-- Drops the fragments of a message that is not complete; the answer is how many there were. -/
def drop (s : FragmentStore) (id : MessageId) : Nat × FragmentStore :=
  (s.buffered id, { s with pending := s.pending.erase id })

def discard (s : FragmentStore) (id : MessageId) : FragmentStore := (s.drop id).2

def clear (s : FragmentStore) : FragmentStore := { s with pending := ∅, rebuilt := ∅ }

end FragmentStore

end IsoTransport
