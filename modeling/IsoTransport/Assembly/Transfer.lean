import IsoTransport.Frame
import IsoTransport.Assembly.FragmentStore

/-!
A segmented message on its way. Its frames are numbered by four bits; how often each number has come
round tells the fragments apart. `Transfer.place` decides on one fragment.
-/

namespace IsoTransport

inductive Phase where
  | opened | complete | errored
  deriving DecidableEq

inductive Verdict where
  | accepted
  /-- It was too far ahead and put the message into the errored phase. -/
  | rejected
  /-- Its number had come round too often, which put the message into the errored phase. -/
  | overflow
  /-- It came after the message had failed. -/
  | ignored
  deriving DecidableEq

structure Placement where
  message : MessageId
  fragment : Nat
  /-- The bytes the frame contributes. -/
  length : Nat
  /-- Whether the declared length was reached. -/
  last : Bool
  verdict : Verdict
  deriving DecidableEq

structure Transfer where
  id : MessageId
  channel : Channel
  firstFrame : FrameIndex
  declared : Nat
  accumulated : Nat := 0
  highest : Nat := 0
  /-- How often each number has come round. -/
  rounds : Vector Nat 16 := .replicate 16 0
  phase : Phase := .opened
  deriving DecidableEq

namespace Transfer

def roundLimit : Nat := 255

def slot (number : UInt8) : Fin 16 := ⟨number.toNat % 16, Nat.mod_lt _ (by decide)⟩

def expand (t : Transfer) (number : UInt8) : Nat :=
  slot number + 16 * t.rounds[slot number]

def countRound (t : Transfer) (number : UInt8) : Transfer :=
  { t with rounds := t.rounds.set (slot number) (t.rounds[slot number] + 1) }

def fail (t : Transfer) : Transfer := { t with phase := .errored }

def unplaced (t : Transfer) (fragment length : Nat) (verdict : Verdict) : Placement :=
  { message := t.id, fragment, length, last := false, verdict }

/-- Takes a fragment of `length` bytes, of which those beyond the declared length are cut off. -/
def accept (t : Transfer) (fragment length : Nat) : Placement × Transfer :=
  let total := t.accumulated + length
  let last : Bool := t.declared ≤ total
  let kept := if last then length - min (total - t.declared) length else length
  ({ message := t.id, fragment, length := kept, last, verdict := .accepted },
    { t with
      accumulated := if last then t.declared else total
      highest := max t.highest fragment
      phase := if last then .complete else t.phase })

/-- Places a fragment of `length` bytes that arrives under a number. It may be at most `window`
fragments ahead of the highest one. -/
def place (t : Transfer) (window : Nat) (number : UInt8) (length : Nat) : Placement × Transfer :=
  if t.phase = .errored then (t.unplaced number.toNat length .ignored, t)
  else if t.rounds[slot number] = roundLimit then
    (t.unplaced (slot number + 16 * (roundLimit + 1)) length .overflow, t.fail)
  else
    let fragment := t.expand number
    let t := t.countRound number
    if t.highest + window < fragment then (t.unplaced fragment length .rejected, t.fail)
    else t.accept fragment length

end Transfer

end IsoTransport
