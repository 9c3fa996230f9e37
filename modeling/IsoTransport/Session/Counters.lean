import IsoTransport.Assembly.Engine
import IsoTransport.Control.Basic
import IsoTransport.Delivery

/-!
Counters of frames and messages.
-/

namespace IsoTransport

structure Counters where
  frames : Nat := 0
  singleFrames : Nat := 0
  firstFrames : Nat := 0
  consecutiveFrames : Nat := 0
  flowControlFrames : Nat := 0
  ackFrames : Nat := 0
  malformedFrames : Nat := 0
  orphanedFrames : Nat := 0
  completed : Nat := 0
  /-- Messages that reached their length with fragments missing. -/
  incomplete : Nat := 0
  /-- Messages that failed by a fragment too far ahead or a number too often used. -/
  errored : Nat := 0
  fragmentsIgnored : Nat := 0
  toDecoder : Nat := 0
  toData : Nat := 0
  deriving DecidableEq

namespace Counters

def countSelected (s : Counters) : Counters := { s with frames := s.frames + 1 }

def countMalformed (s : Counters) : Counters :=
  { s with malformedFrames := s.malformedFrames + 1 }

def countFrame (s : Counters) : FrameKind → Counters
  | .single | .singleExt => { s with singleFrames := s.singleFrames + 1 }
  | .first | .firstExt => { s with firstFrames := s.firstFrames + 1 }
  | .consecutive | .consecutive2 => { s with consecutiveFrames := s.consecutiveFrames + 1 }
  | .flowControl => { s with flowControlFrames := s.flowControlFrames + 1 }
  | .acknowledgment => { s with ackFrames := s.ackFrames + 1 }

/-- The only fault of the engine is a number that was used too often. -/
def countOutcome (s : Counters) : Except Fault Outcome → Counters
  | .ok .orphaned => { s with orphanedFrames := s.orphanedFrames + 1 }
  | .ok (.buffered _) => s
  | .ok (.completed ..) => { s with completed := s.completed + 1 }
  | .ok (.incomplete _) => { s with incomplete := s.incomplete + 1 }
  | .ok (.errored _) | .error _ => { s with errored := s.errored + 1 }
  | .ok (.discarded _) => { s with fragmentsIgnored := s.fragmentsIgnored + 1 }

def countDestination (s : Counters) : Destination → Counters
  | .decoder _ => { s with toDecoder := s.toDecoder + 1 }
  | .data => { s with toData := s.toData + 1 }

end Counters

end IsoTransport
