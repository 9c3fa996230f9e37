import IsoTransport.Mealy
import IsoTransport.Session.Basic

/-!
Runs of a session: the answers to a list of events, and the session they leave behind.
-/

namespace IsoTransport.Session

variable {σ : Type}

inductive Event where
  | observe (index : FrameIndex) (frame : Frame)
  | configure (settings : Settings)
  | reset
  deriving DecidableEq

/-- Only a frame has an answer. -/
def step (s : Session σ) : Event → Option (Except Fault (Option Report)) × Session σ
  | .observe index frame =>
    let (answer, s) := s.observe index frame
    (some answer, s)
  | .configure settings => (none, s.configure settings)
  | .reset => (none, s.reset)

def answers (s : Session σ) (events : List Event) : List (Option (Except Fault (Option Report))) :=
  Mealy.answers step s events

def run (s : Session σ) (events : List Event) : Session σ := Mealy.run step s events

theorem run_cons (s : Session σ) (event : Event) (events : List Event) :
    s.run (event :: events) = (s.step event).2.run events := rfl

theorem run_append (s : Session σ) (before after : List Event) :
    s.run (before ++ after) = (s.run before).run after :=
  Mealy.run_append step s before after

theorem answers_append (s : Session σ) (before after : List Event) :
    s.answers (before ++ after) = s.answers before ++ (s.run before).answers after :=
  Mealy.answers_append step s before after

theorem length_answers (s : Session σ) (events : List Event) : (s.answers events).length = events.length :=
  Mealy.length_answers step s events

end IsoTransport.Session
