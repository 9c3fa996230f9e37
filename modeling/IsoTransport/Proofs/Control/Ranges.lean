import IsoTransport.Proofs.Control.Limit

/-!
Where the payload of a frame lies: behind its control information and within its data (`readControl_within`).
`Frame.readChecked` reads a frame like `Frame.readControl`, but stops at a difference that is below zero; it
never does (`readChecked_eq`).
-/

namespace IsoTransport

/-! ### Places -/

/-- The kinds of frame that carry such control information. -/
def Control.kinds : Control → List FrameKind
  | single _ => [.single, .singleExt]
  | first _ => [.first, .firstExt]
  | consecutive _ => [.consecutive, .consecutive2]
  | flow _ => [.flowControl, .acknowledgment]

/-- A reading of data whose control information starts at `start`. -/
structure ControlReading.Within (r : ControlReading) (data : Bytes) (start : Nat) : Prop where
  kind : r.kind ∈ r.control.kinds
  behind : start < r.offset
  room : r.offset + r.length ≤ data.length

theorem segmentLength_le (data : Bytes) (start offset : Nat) (limit : Option Nat) :
    segmentLength data start offset limit ≤ data.length - offset := by
  cases limit with
  | none => exact Nat.le_refl _
  | some n => exact Nat.min_le_left _ _

namespace Frame

variable {frame : Frame} {start : Nat} {limit : Option Nat} {r : ControlReading}

/-- Whatever is read of a frame, its payload lies behind the control information and within the data. -/
theorem readControl_within (read : frame.readControl start limit = .ok r) : r.Within frame.data start := by
  obtain ⟨addresses, h, rest, rfl, heads, rfl⟩ := form_of_readControl read
  have total : frame.data.length = addresses.length + h.bytes.length + rest.length := by
    rw [heads.written, List.length_append, List.length_append]
  refine ⟨?_, ?_, ?_⟩
  · rw [ControlReading.cut_kind, ControlReading.cut_control]
    cases h <;> simp [Header.reading, Header.kind, Header.control, Control.kinds]
  · obtain ⟨low, tail, form⟩ := h.bytes_front
    have front : 0 < h.bytes.length := by rw [form]; exact Nat.succ_pos _
    rw [ControlReading.cut_offset]
    exact Nat.lt_add_of_pos_right front
  · have room := heads.room
    rw [ControlReading.cut_offset, ControlReading.cut]
    split
    · have inside := segmentLength_le frame.data addresses.length (addresses.length + h.bytes.length) limit
      dsimp only [Header.reading]
      omega
    · dsimp only [Header.reading]
      omega

theorem firstLength_behind {data : Bytes} {found : Nat × Nat} (read : firstLength data start = .ok found) :
    start < found.2 := by
  obtain ⟨word, -, read⟩ := ok_of_bind read
  split at read
  · obtain ⟨n, -, read⟩ := ok_of_bind read
    cases read
    omega
  · cases read
    omega

end Frame

/-! ### Checked reading -/

/-- A computation that stops, with nothing, where a slice or a difference is out of range. -/
abbrev Checked (α : Type) := ExceptT Fault Option α

theorem Checked.bind {α β : Type} {y : Checked α} {x : Except Fault α} (same : y = some x)
    {f : α → Checked β} {g : α → Except Fault β} (each : ∀ a, x = .ok a → f a = some (g a)) :
    (y >>= f) = some (x >>= g) := by
  subst same
  cases x with
  | error fault => rfl
  | ok a => exact each a rfl

def SeparationTime.ofByteChecked (b : UInt8) : Option SeparationTime :=
  if 0xf1 ≤ b ∧ b ≤ 0xf9 then do return micros ((← Nat.psub' b.toNat 0xf0) * 100) else some (millis b.toNat)

/-- `segmentLength` with the difference checked that counts the control bytes; the others stop at zero. -/
def segmentLengthChecked (data : Bytes) (start offset : Nat) (limit : Option Nat) : Option Nat :=
  match limit with
  | some n => do return min (data.length - offset) (n - (← Nat.psub' offset start))
  | none => some (data.length - offset)

namespace Frame

def flowChecked (data : Bytes) (start : Nat) (pci : UInt8) : Checked FlowControl := do
  let blockSize ← byteAt data (start + 1) .blockSize
  let separation ← byteAt data (start + 2) .separationTime
  return { status := .ofByte pci, blockSize, separation := ← SeparationTime.ofByteChecked separation }

def readChecked (frame : Frame) (start : Nat) (limit : Option Nat) : Checked ControlReading := do
  let data := frame.data
  let pci ← byteAt data start .control
  let kind ← FrameKind.ofByte pci
  let segment (control : Control) (offset : Nat) : Checked ControlReading := do
    return { kind, control, offset, length := ← segmentLengthChecked data start offset limit }
  match kind with
  | .single =>
    if Can.classicLimit < frame.reportedLen ∧ lowNibble pci = 0 then escapedSingle kind data start
    else singleAt kind data (start + 1) (lowNibble pci).toNat
  | .singleExt => escapedSingle kind data start
  | .first =>
    let (length, offset) ← firstLength data start
    segment (.first length) offset
  | .firstExt =>
    let length ← numberAt data (start + 1) 4 .firstLength
    segment (.first length) (start + 5)
  | .consecutive | .consecutive2 => segment (.consecutive (lowNibble pci)) (start + 1)
  | .flowControl =>
    let flow ← flowChecked data start pci
    return { kind, control := .flow flow, offset := start + 3, length := 0 }
  | .acknowledgment =>
    let flow ← flowChecked data start pci
    let trailer ← byteAt data (start + 3) .acknowledgment
    let flow := { flow with ack := some (.ofByte trailer) }
    return { kind, control := .flow flow, offset := start + 4, length := 0 }

end Frame

theorem SeparationTime.ofByteChecked_eq (b : UInt8) : ofByteChecked b = some (ofByte b) := by
  unfold ofByteChecked ofByte
  split
  · rename_i bounds
    have low : 0xf0 ≤ b.toNat := Nat.le_of_lt (UInt8.le_iff_toNat_le.mp bounds.1)
    rw [Nat.psub', if_pos low]
    rfl
  · rfl

theorem segmentLengthChecked_eq {data : Bytes} {start offset : Nat} (behind : start ≤ offset)
    (limit : Option Nat) :
    segmentLengthChecked data start offset limit = some (segmentLength data start offset limit) := by
  cases limit with
  | none => rfl
  | some n =>
    rw [segmentLengthChecked, Nat.psub', if_pos behind]
    rfl

namespace Frame

theorem flowChecked_eq (data : Bytes) (start : Nat) (pci : UInt8) :
    flowChecked data start pci = some (flowAt data start pci) := by
  refine Checked.bind rfl fun blockSize _ => Checked.bind rfl fun separation _ => ?_
  rw [SeparationTime.ofByteChecked_eq]
  rfl

/-- No difference that reading a frame takes is below zero. -/
theorem readChecked_eq (frame : Frame) (start : Nat) (limit : Option Nat) :
    frame.readChecked start limit = some (frame.readControl start limit) := by
  refine Checked.bind rfl fun pci _ => Checked.bind rfl fun kind _ => ?_
  cases kind with
  | single =>
    dsimp only
    split <;> rfl
  | singleExt => rfl
  | first =>
    refine Checked.bind rfl fun found read => ?_
    dsimp only
    rw [segmentLengthChecked_eq (Nat.le_of_lt (firstLength_behind read))]
    rfl
  | firstExt =>
    refine Checked.bind rfl fun length _ => ?_
    dsimp only
    rw [segmentLengthChecked_eq (Nat.le_add_right start 5)]
    rfl
  | consecutive | consecutive2 =>
    dsimp only
    rw [segmentLengthChecked_eq (Nat.le_succ start)]
    rfl
  | flowControl => exact Checked.bind (flowChecked_eq ..) fun flow _ => rfl
  | acknowledgment =>
    exact Checked.bind (flowChecked_eq ..) fun flow _ => Checked.bind rfl fun trailer _ => rfl

end Frame

end IsoTransport
