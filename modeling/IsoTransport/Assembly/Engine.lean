import IsoTransport.Assembly.Transfer

/-!
Reassembly of the segmented messages of a stream. The first time a frame is pushed its fragment is
placed and the placement is kept; pushing it again only reads that record, so a stream can be walked
any number of times.
-/

namespace IsoTransport

inductive Segment where
  | first (declared : Nat)
  | consecutive (number : UInt8)
  deriving DecidableEq

def Segment.number : Segment → UInt8
  | first _ => 0
  | consecutive n => n

inductive Outcome where
  /-- A consecutive frame without a message on its channel. -/
  | orphaned
  | buffered (place : Placement)
  | completed (place : Placement) (payload : Bytes) (declared : Nat)
  /-- The declared length was reached, but fragments are missing. -/
  | incomplete (place : Placement)
  | errored (place : Placement)
  /-- The message had already failed. -/
  | discarded (place : Placement)
  deriving DecidableEq

def Outcome.placement? : Outcome → Option Placement
  | orphaned => none
  | buffered p | completed p _ _ | incomplete p | errored p | discarded p => some p

structure Engine where
  window : Nat := 8
  nextId : MessageId := 1
  transfers : Std.TreeMap MessageId Transfer := ∅
  /-- The message that receives the consecutive frames of a channel. -/
  bindings : Std.TreeMap Channel MessageId := ∅
  /-- The frames pushed so far, with their placements unless they were orphans. -/
  visited : Std.TreeMap FrameIndex (Option Placement) := ∅
  fragments : FragmentStore := {}

namespace Engine

def transfer? (e : Engine) (id : MessageId) : Option Transfer := e.transfers[id]?

def bound? (e : Engine) (channel : Channel) : Option Transfer :=
  e.bindings[channel]?.bind e.transfer?

def placement? (e : Engine) (index : FrameIndex) : Option Placement := e.visited[index]?.join

def isVisited (e : Engine) (index : FrameIndex) : Bool := e.visited.contains index

def succId (id : MessageId) : MessageId := if id + 1 = 0 then 1 else id + 1

/-! ### The parts of a push -/

def supersede (e : Engine) (channel : Channel) : Engine :=
  match e.bound? channel with
  | some t =>
    if t.phase = .opened then
      { e with
        transfers := e.transfers.insert t.id t.fail
        fragments := e.fragments.discard t.id }
    else e
  | none => e

def start (e : Engine) (index : FrameIndex) (channel : Channel) (declared : Nat) :
    MessageId × Engine :=
  let id := e.nextId
  let e := e.supersede channel
  let t : Transfer := { id, channel, firstFrame := index, declared }
  (id,
    { e with
      nextId := succId id
      transfers := e.transfers.insert id t
      bindings := e.bindings.insert channel id })

def target? (e : Engine) (index : FrameIndex) (channel : Channel) (segment : Segment) :
    Option Transfer × Engine :=
  match segment with
  | .first declared =>
    let (id, e) := e.start index channel declared
    (e.transfer? id, e)
  | .consecutive _ => (e.bound? channel, e)

def unbind (e : Engine) (channel : Channel) (id : MessageId) : Engine :=
  if e.bindings[channel]? = some id then { e with bindings := e.bindings.erase channel } else e

def record (e : Engine) (index : FrameIndex) (t : Transfer) (p : Placement) : Engine :=
  { e with transfers := e.transfers.insert t.id t, visited := e.visited.insert index (some p) }

def drop (e : Engine) (id : MessageId) : Engine :=
  { e with fragments := e.fragments.discard id }

def store (e : Engine) (index : FrameIndex) (t : Transfer) (p : Placement) (payload : Bytes) :
    Outcome × Engine :=
  let e := if p.last then e.unbind t.channel t.id else e
  let (message, fragments) :=
    e.fragments.add t.id p.fragment index (payload.take p.length) (!p.last)
  let e := { e with fragments }
  match message with
  | some m => (.completed p m.payload t.declared, e)
  | none => (if p.last then .incomplete p else .buffered p, e)

def feed (e : Engine) (index : FrameIndex) (t : Transfer) (number : UInt8) (payload : Bytes) :
    Except Fault Outcome × Engine :=
  let (p, t) := t.place e.window number payload.length
  let e := e.record index t p
  match p.verdict with
  | .ignored => (.ok (.discarded p), e)
  | .overflow => (.error (.fragmentOverflow t.id number), e.drop t.id)
  | .rejected => (.ok (.errored p), e.drop t.id)
  | .accepted =>
    let (outcome, e) := e.store index t p payload
    (.ok outcome, e)

/-- What the first push of a frame answered, told from its record. -/
def replay (e : Engine) (index : FrameIndex) : Option Placement → Except Fault Outcome
  | none => .ok .orphaned
  | some p =>
    match p.verdict with
    | .ignored => .ok (.discarded p)
    | .rejected => .ok (.errored p)
    | .overflow => .error (.fragmentOverflow p.message (UInt8.ofNat (p.fragment % 16)))
    | .accepted =>
      match (e.fragments.rebuilt? p.message).filter (·.frame = index) with
      | some m =>
        .ok (.completed p m.payload (((e.transfer? p.message).map (·.declared)).getD m.payload.length))
      | none => .ok (if p.last then .incomplete p else .buffered p)

/-! ### The engine -/

def push (e : Engine) (index : FrameIndex) (channel : Channel) (segment : Segment)
    (payload : Bytes) : Except Fault Outcome × Engine :=
  match e.visited[index]? with
  | some known => (e.replay index known, e)
  | none =>
    match e.target? index channel segment with
    | (some t, e) => e.feed index t segment.number payload
    | (none, e) => (.ok .orphaned, { e with visited := e.visited.insert index none })

def setWindow (e : Engine) (window : Nat) : Engine := { e with window }

def reset (e : Engine) : Engine :=
  { e with
    nextId := 1
    transfers := ∅
    bindings := ∅
    visited := ∅
    fragments := e.fragments.clear }

theorem reset_eq (e : Engine) : e.reset = { window := e.window } := rfl

end Engine

end IsoTransport
