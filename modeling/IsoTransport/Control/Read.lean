import IsoTransport.Control.Basic
import IsoTransport.Frame

/-!
Reading the control information of a frame. Each byte that is needed is asked for in turn, so a
frame that is cut off is reported with the first part it lacks.
-/

namespace IsoTransport

def byteAt (data : Bytes) (i : Nat) (field : HeaderField) : Except Fault UInt8 :=
  match data[i]? with
  | some b => .ok b
  | none => .error (.truncated field (i + 1) data.length)

def numberAt (data : Bytes) (i width : Nat) (field : HeaderField) : Except Fault Nat :=
  match data.slice? i width with
  | some bytes => .ok bytes.bigEndian
  | none => .error (.truncated field (i + width) data.length)

def singleAt (kind : FrameKind) (data : Bytes) (offset length : Nat) : Except Fault ControlReading :=
  if offset + length ≤ data.length then .ok { kind, control := .single length, offset, length }
  else .error (.truncated .payload (offset + length) data.length)

/-- The bytes from `offset` on that belong to a segment: all of them, or those within the limit,
which counts from the end of the addresses. -/
def segmentLength (data : Bytes) (start offset : Nat) (limit : Option Nat) : Nat :=
  match limit with
  | some n => min (data.length - offset) (n - (offset - start))
  | none => data.length - offset

namespace Frame

def escapedSingle (kind : FrameKind) (data : Bytes) (start : Nat) : Except Fault ControlReading := do
  let length ← byteAt data (start + 1) .singleLength
  singleAt kind data (start + 2) length.toNat

/-- The length of the message behind a first frame, and where the payload starts: twelve bits, or
thirty-two where those would be zero and the frame says so. -/
def firstLength (data : Bytes) (start : Nat) : Except Fault (Nat × Nat) := do
  let word ← numberAt data start 2 .firstLength
  if word = 0x1000 then return (← numberAt data (start + 2) 4 .escapedLength, start + 6)
  else return (word % 0x1000, start + 2)

def flowAt (data : Bytes) (start : Nat) (pci : UInt8) : Except Fault FlowControl := do
  let blockSize ← byteAt data (start + 1) .blockSize
  let separation ← byteAt data (start + 2) .separationTime
  return { status := .ofByte pci, blockSize, separation := .ofByte separation }

/-- The control information from `start` on. The limit cuts the payload of first and consecutive
frames, so that what pads a slot is not taken as data. -/
def readControl (frame : Frame) (start : Nat) (limit : Option Nat) : Except Fault ControlReading := do
  let data := frame.data
  let pci ← byteAt data start .control
  let kind ← FrameKind.ofByte pci
  let segment (control : Control) (offset : Nat) : ControlReading :=
    { kind, control, offset, length := segmentLength data start offset limit }
  match kind with
  | .single =>
    if Can.classicLimit < frame.reportedLen ∧ lowNibble pci = 0 then escapedSingle kind data start
    else singleAt kind data (start + 1) (lowNibble pci).toNat
  | .singleExt => escapedSingle kind data start
  | .first =>
    let (length, offset) ← firstLength data start
    return segment (.first length) offset
  | .firstExt =>
    let length ← numberAt data (start + 1) 4 .firstLength
    return segment (.first length) (start + 5)
  | .consecutive | .consecutive2 => return segment (.consecutive (lowNibble pci)) (start + 1)
  | .flowControl =>
    let flow ← flowAt data start pci
    return { kind, control := .flow flow, offset := start + 3, length := 0 }
  | .acknowledgment =>
    let flow ← flowAt data start pci
    let trailer ← byteAt data (start + 3) .acknowledgment
    let flow := { flow with ack := some (.ofByte trailer) }
    return { kind, control := .flow flow, offset := start + 4, length := 0 }

end Frame

end IsoTransport
