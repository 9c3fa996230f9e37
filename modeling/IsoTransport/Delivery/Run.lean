import IsoTransport.Delivery
import IsoTransport.Mealy

/-!
Runs of a router: what it answers to a list of operations, and the router they leave behind.
-/

namespace IsoTransport.Router

variable {σ : Type}

inductive Op (σ : Type) where
  | insert (route : Route) (decoder : Decoder σ)
  | erase (route : Route)
  | deliver (message : Message)
  | takeUnclaimed

inductive Answer (σ : Type) where
  /-- The decoder that was registered before. -/
  | decoder (earlier : Option (Decoder σ))
  | destination (destination : Destination)
  | unclaimed (messages : List Message)

def step (r : Router σ) : Op σ → Answer σ × Router σ
  | .insert route decoder =>
    let (earlier, r) := r.insert route decoder
    (.decoder earlier, r)
  | .erase route =>
    let (earlier, r) := r.erase route
    (.decoder earlier, r)
  | .deliver message =>
    let (destination, r) := r.deliver message
    (.destination destination, r)
  | .takeUnclaimed =>
    let (messages, r) := r.takeUnclaimed
    (.unclaimed messages, r)

def answers (r : Router σ) (ops : List (Op σ)) : List (Answer σ) := Mealy.answers step r ops

def run (r : Router σ) (ops : List (Op σ)) : Router σ := Mealy.run step r ops

theorem answers_cons (r : Router σ) (op : Op σ) (ops : List (Op σ)) :
    r.answers (op :: ops) = (r.step op).1 :: (r.step op).2.answers ops := rfl

end IsoTransport.Router
