import IsoTransport.Control.Basic

/-!
The written forms of the control information. `Header.bytes` is what a sender puts in front of the
payload, `Header.control` what a receiver is to take from it.
-/

namespace IsoTransport

/-- The forms of the control information. A nibble that a form does not use is kept as written. -/
inductive Header where
  | single (length : Nat)
  | longSingle (length : UInt8)
  | singleExt (unused : Nat) (length : UInt8)
  | first (length : Nat)
  | longFirst (length : UInt32)
  | firstExt (unused : Nat) (length : UInt32)
  | consecutive (number : Nat)
  | consecutive2 (number : Nat)
  | flowControl (status : Nat) (blockSize separation : UInt8)
  | acknowledgment (status : Nat) (blockSize separation : UInt8) (code number : Nat)
  deriving DecidableEq

namespace Header

def nibbles (high low : Nat) : UInt8 := UInt8.ofNat (16 * high + low % 16)

def bytes : Header → Bytes
  | single n => [nibbles 0 n]
  | longSingle n => [nibbles 0 0, n]
  | singleExt x n => [nibbles 4 x, n]
  | first n => [nibbles 1 (n / 256), UInt8.ofNat (n % 256)]
  | longFirst n => nibbles 1 0 :: 0 :: Bytes.ofNat 4 n.toNat
  | firstExt x n => nibbles 5 x :: Bytes.ofNat 4 n.toNat
  | consecutive n => [nibbles 2 n]
  | consecutive2 n => [nibbles 6 n]
  | flowControl s b t => [nibbles 3 s, b, t]
  | acknowledgment s b t c q => [nibbles 7 s, b, t, nibbles c q]

def kind : Header → FrameKind
  | single _ | longSingle _ => .single
  | singleExt .. => .singleExt
  | first _ | longFirst _ => .first
  | firstExt .. => .firstExt
  | consecutive _ => .consecutive
  | consecutive2 _ => .consecutive2
  | flowControl .. => .flowControl
  | acknowledgment .. => .acknowledgment

def statusOf : Nat → FlowStatus
  | 0 => .continueToSend
  | 1 => .wait
  | 2 => .overflow
  | s => .reserved (UInt8.ofNat s)

/-- Nine values next to each other count hundreds of microseconds, every other one milliseconds. -/
def separationOf (t : Nat) : SeparationTime :=
  if 0xf0 < t ∧ t < 0xfa then .micros (100 * (t - 0xf0)) else .millis t

def control : Header → Control
  | single n => .single n
  | longSingle n | singleExt _ n => .single n.toNat
  | first n => .first n
  | longFirst n | firstExt _ n => .first n.toNat
  | consecutive n | consecutive2 n => .consecutive (UInt8.ofNat n)
  | flowControl s b t =>
    .flow { status := statusOf s, blockSize := b, separation := separationOf t.toNat }
  | acknowledgment s b t c q =>
    .flow { status := statusOf s, blockSize := b, separation := separationOf t.toNat,
            ack := some { code := UInt8.ofNat c, number := UInt8.ofNat q } }

/-- The forms a receiver takes as they are meant, where the link reported a frame of `reported`
bytes: a length of zero in the first byte announces a long single frame if the frame is longer than
a classic one can be, and a first frame of length zero announces a long one. -/
def Canonical (reported : Nat) : Header → Prop
  | single n => n < 16 ∧ (n = 0 → reported ≤ 8)
  | longSingle _ => 8 < reported
  | first n => 0 < n ∧ n < 4096
  | singleExt x _ | firstExt x _ => x < 16
  | longFirst _ => True
  | consecutive n | consecutive2 n => n < 16
  | flowControl s _ _ => s < 16
  | acknowledgment s _ _ c q => s < 16 ∧ c < 16 ∧ q < 16

end Header

end IsoTransport
