import IsoTransport.Addressing
import IsoTransport.Control.Read
import IsoTransport.Session.Counters

/-!
The analysis of a stream. In every frame that the settings select, the addresses and the control
information are found; a part of a message is reassembled, and a complete payload is delivered.
-/

namespace IsoTransport

structure Report where
  index : FrameIndex
  channel : Channel
  addresses : Addresses
  addressLength : Nat
  control : ControlReading
  segment : Bytes
  /-- Set for first and consecutive frames. -/
  outcome : Option Outcome
  /-- Set where a complete payload was delivered. -/
  destination : Option Destination
  deriving DecidableEq

def Report.isComplete (r : Report) : Bool := r.destination.isSome

def Settings.selects (s : Settings) (frame : Frame) : Bool :=
  match frame.medium with
  | .can | .canFd =>
    frame.isData &&
      (if frame.isExtended then s.canExtendedIds else s.canIds).contains frame.id
  | .lin => s.linDiagnostics && Lin.isDiagnostic frame.id
  | .flexRay => true
  | .iPduM => s.iPduMIds.contains frame.id
  | .pduTransport => (s.pdu? frame.id).isSome

def Control.segment? : Control → Option Segment
  | first length => some (.first length)
  | consecutive number => some (.consecutive number)
  | single _ | flow _ => none

/-- The complete payload that a frame brings, alone or as the end of a segmented message. -/
def Frame.message? (frame : Frame) (addresses : Addresses) (control : Control) (segment : Bytes)
    (outcome : Option Outcome) : Option Message :=
  let message (payload : Bytes) (declared : Nat) (transfer : Option MessageId) : Message :=
    { payload, addresses, medium := frame.medium, id := frame.id, declared, transfer }
  match control, outcome with
  | .single length, _ => some (message segment length none)
  | _, some (.completed p payload declared) => some (message payload declared (some p.message))
  | _, _ => none

structure Session (σ : Type) where
  settings : Settings
  engine : Engine
  router : Router σ
  counters : Counters := {}

namespace Session

variable {σ : Type}

def start (settings : Settings) (router : Router σ) : Session σ :=
  { settings, engine := { window := settings.window.toNat }, router }

def configure (s : Session σ) (settings : Settings) : Session σ :=
  { s with settings, engine := s.engine.setWindow settings.window.toNat }

/-- Starts over: messages, counters and unclaimed payloads are dropped, decoders are kept. -/
def reset (s : Session σ) : Session σ :=
  { s with engine := s.engine.reset, counters := {}, router := s.router.takeUnclaimed.2 }

/-! ### One frame -/

def count (s : Session σ) (f : Counters → Counters) : Session σ :=
  { s with counters := f s.counters }

def reassemble (s : Session σ) (index : FrameIndex) (frame : Frame) (segment : Segment)
    (payload : Bytes) : Except Fault Outcome × Session σ :=
  let (outcome, engine) := s.engine.push index frame.channel segment payload
  (outcome, { s with engine }.count (·.countOutcome outcome))

def deliver (s : Session σ) : Option Message → Option Destination × Session σ
  | none => (none, s)
  | some m =>
    let (destination, router) := s.router.deliver m
    (some destination, { s with router }.count (·.countDestination destination))

def conclude (s : Session σ) (index : FrameIndex) (frame : Frame) (location : Location)
    (control : ControlReading) (outcome : Option Outcome) : Report × Session σ :=
  let segment := control.payload frame.data
  let message := frame.message? location.addresses control.control segment outcome
  let (destination, s) := s.deliver message
  ({ index, channel := frame.channel, addresses := location.addresses,
     addressLength := location.length, control, segment, outcome, destination }, s)

def continueWith (s : Session σ) (index : FrameIndex) (frame : Frame) (location : Location)
    (control : ControlReading) : Except Fault Report × Session σ :=
  match control.control.segment? with
  | none =>
    let (report, s) := s.conclude index frame location control none
    (.ok report, s)
  | some segment =>
    match s.reassemble index frame segment (control.payload frame.data) with
    | (.error fault, s) => (.error fault, s)
    | (.ok outcome, s) =>
      let (report, s) := s.conclude index frame location control (some outcome)
      (.ok report, s)

/-- Analyses the frame at a position of the stream; one that the settings do not select leaves no
trace. Seen again, the frame is answered alike and leaves the engine alone. -/
def observe (s : Session σ) (index : FrameIndex) (frame : Frame) :
    Except Fault (Option Report) × Session σ :=
  if s.settings.selects frame then
    let s := s.count (·.countSelected)
    let location := frame.locate s.settings
    match frame.readControl location.length (s.settings.segmentLimit frame.medium) with
    | .error fault => (.error fault, s.count (·.countMalformed))
    | .ok control =>
      let (report, s) :=
        (s.count (·.countFrame control.kind)).continueWith index frame location control
      (some <$> report, s)
  else (.ok none, s)

end Session

end IsoTransport
