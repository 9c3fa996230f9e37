import IsoTransport.Assembly.FragmentStore
import IsoTransport.Mealy

/-!
Runs of a fragment store: what it answers to a list of operations, and the store they leave behind.
-/

namespace IsoTransport.FragmentStore

structure Addition where
  id : MessageId
  number : Nat
  frame : FrameIndex
  data : Bytes
  /-- It is not the last fragment of its message. -/
  more : Bool
  deriving DecidableEq

inductive Op where
  | add (a : Addition)
  | discard (id : MessageId)
  | clear
  deriving DecidableEq

/-- Only an addition has an answer: the message, if it completes one. -/
def step (s : FragmentStore) : Op → Option Rebuilt × FragmentStore
  | .add a => s.add a.id a.number a.frame a.data a.more
  | .discard id => (none, s.discard id)
  | .clear => (none, s.clear)

def run (s : FragmentStore) (ops : List Op) : FragmentStore := Mealy.run step s ops

theorem run_append (s : FragmentStore) (before after : List Op) :
    s.run (before ++ after) = (s.run before).run after :=
  Mealy.run_append step s before after

end IsoTransport.FragmentStore
