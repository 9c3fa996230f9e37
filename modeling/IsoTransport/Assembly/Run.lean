import IsoTransport.Assembly.Engine
import IsoTransport.Mealy

/-!
Runs of the engine: the answers to a list of events, and the engine they leave behind.
-/

namespace IsoTransport.Engine

inductive Event where
  | push (index : FrameIndex) (channel : Channel) (segment : Segment) (payload : Bytes)
  | setWindow (window : Nat)
  | reset
  deriving DecidableEq

def step (e : Engine) : Event → Option (Except Fault Outcome) × Engine
  | .push index channel segment payload =>
    let (answer, e) := e.push index channel segment payload
    (some answer, e)
  | .setWindow window => (none, e.setWindow window)
  | .reset => (none, e.reset)

def answers (e : Engine) (events : List Event) : List (Option (Except Fault Outcome)) :=
  Mealy.answers step e events

def run (e : Engine) (events : List Event) : Engine := Mealy.run step e events

/-- The number of first frames among the events, which bounds the number of messages they open. -/
def firstFrames (events : List Event) : Nat :=
  events.countP fun event => event matches .push _ _ (.first _) _

theorem run_append (e : Engine) (before after : List Event) :
    e.run (before ++ after) = (e.run before).run after :=
  Mealy.run_append step e before after

theorem answers_append (e : Engine) (before after : List Event) :
    e.answers (before ++ after) = e.answers before ++ (e.run before).answers after :=
  Mealy.answers_append step e before after

end IsoTransport.Engine
