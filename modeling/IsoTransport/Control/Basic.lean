import IsoTransport.Bytes
import IsoTransport.Fault

/-!
Protocol control information: the bytes in front of the payload of a frame that say what the frame
is for.
-/

namespace IsoTransport

inductive FrameKind where
  | single | first | consecutive | flowControl | singleExt | firstExt | consecutive2 | acknowledgment
  deriving DecidableEq

namespace FrameKind

def ofByte (b : UInt8) : Except Fault FrameKind :=
  match b >>> 4 with
  | 0 => .ok single
  | 1 => .ok first
  | 2 => .ok consecutive
  | 3 => .ok flowControl
  | 4 => .ok singleExt
  | 5 => .ok firstExt
  | 6 => .ok consecutive2
  | 7 => .ok acknowledgment
  | n => .error (.badMessageType n)

def code : FrameKind → UInt8
  | single => 0
  | first => 1
  | consecutive => 2
  | flowControl => 3
  | singleExt => 4
  | firstExt => 5
  | consecutive2 => 6
  | acknowledgment => 7

def title : FrameKind → String
  | single => "Single Frame"
  | first => "First Frame"
  | consecutive => "Consecutive Frame"
  | flowControl => "Flow control"
  | singleExt => "Single Frame Ext"
  | firstExt => "First Frame Ext"
  | consecutive2 => "Consecutive Frame 2"
  | acknowledgment => "Ack Frame"

def isSegmented (k : FrameKind) : Bool :=
  k matches first | firstExt | consecutive | consecutive2

end FrameKind

def lowNibble (b : UInt8) : UInt8 := b &&& 0x0f

/-! ### Flow control -/

inductive FlowStatus where
  | continueToSend | wait | overflow | reserved (value : UInt8)
  deriving DecidableEq

def FlowStatus.ofByte (b : UInt8) : FlowStatus :=
  match lowNibble b with
  | 0 => continueToSend
  | 1 => wait
  | 2 => overflow
  | n => reserved n

/-- The least time between two consecutive frames. -/
inductive SeparationTime where
  | millis (n : Nat)
  | micros (n : Nat)
  deriving DecidableEq

namespace SeparationTime

/-- `f1` to `f9` stand for 100 to 900 microseconds, all else is in milliseconds. -/
def ofByte (b : UInt8) : SeparationTime :=
  if 0xf1 ≤ b ∧ b ≤ 0xf9 then micros ((b.toNat - 0xf0) * 100) else millis b.toNat

def inMicros : SeparationTime → Nat
  | millis n => n * 1000
  | micros n => n

def text : SeparationTime → String
  | millis n => toString n ++ " ms"
  | micros n => toString n ++ " µs"

end SeparationTime

structure Ack where
  code : UInt8
  number : UInt8
  deriving DecidableEq

def Ack.ofByte (b : UInt8) : Ack := ⟨b >>> 4, lowNibble b⟩

structure FlowControl where
  status : FlowStatus
  blockSize : UInt8
  separation : SeparationTime
  ack : Option Ack := none
  deriving DecidableEq

inductive Control where
  | single (length : Nat)
  | first (length : Nat)
  | consecutive (number : UInt8)
  | flow (flow : FlowControl)
  deriving DecidableEq

structure ControlReading where
  kind : FrameKind
  control : Control
  offset : Nat
  length : Nat
  deriving DecidableEq

def ControlReading.payload (r : ControlReading) (data : Bytes) : Bytes :=
  (data.drop r.offset).take r.length

end IsoTransport
