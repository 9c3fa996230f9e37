import IsoTransport.Proofs.Control.Exact

/-!
The limit of a slot. It cuts the payload of first and consecutive frames and changes nothing else
(`readControl_limit`), so all that is read has one of the written forms (`form_of_readControl`).
-/

namespace IsoTransport

theorem Header.bytes_front (h : Header) : ∃ low tail, h.bytes = nibbles h.kind.code.toNat low :: tail := by
  cases h <;> exact ⟨_, _, rfl⟩

namespace ControlReading

variable {data : Bytes} {start : Nat} {limit : Option Nat}

/-- The reading with the payload of a first or consecutive frame cut to the limit. -/
def cut (r : ControlReading) (data : Bytes) (start : Nat) (limit : Option Nat) : ControlReading :=
  if r.kind.isSegmented then { r with length := segmentLength data start r.offset limit } else r

@[simp]
theorem cut_kind (r : ControlReading) : (r.cut data start limit).kind = r.kind := by
  unfold cut
  split <;> rfl

@[simp]
theorem cut_control (r : ControlReading) : (r.cut data start limit).control = r.control := by
  unfold cut
  split <;> rfl

@[simp]
theorem cut_offset (r : ControlReading) : (r.cut data start limit).offset = r.offset := by
  unfold cut
  split <;> rfl

end ControlReading

namespace Frame

variable {frame : Frame} {start : Nat} {limit : Option Nat} {r : ControlReading}

theorem singleAt_cut {kind : FrameKind} (plain : kind.isSegmented = false) (data : Bytes)
    (offset length start : Nat) (limit : Option Nat) :
    (singleAt kind data offset length).map (·.cut data start limit) = singleAt kind data offset length := by
  unfold singleAt
  split
  · exact congrArg Except.ok (if_neg (by simp [plain]))
  · rfl

theorem escapedSingle_cut {kind : FrameKind} (plain : kind.isSegmented = false) (data : Bytes) (start : Nat)
    (limit : Option Nat) :
    (escapedSingle kind data start).map (·.cut data start limit) = escapedSingle kind data start := by
  unfold escapedSingle
  cases byteAt data (start + 1) .singleLength with
  | error fault => rfl
  | ok n => exact singleAt_cut plain ..

theorem readControl_limit (frame : Frame) (start : Nat) (limit : Option Nat) :
    frame.readControl start limit = (frame.readControl start none).map (·.cut frame.data start limit) := by
  unfold readControl
  dsimp only
  cases byteAt frame.data start .control with
  | error fault => rfl
  | ok pci =>
    dsimp only [bind, Except.bind]
    cases FrameKind.ofByte pci with
    | error fault => rfl
    | ok kind =>
      cases kind with
      | single =>
        dsimp only
        split
        · exact (escapedSingle_cut rfl ..).symm
        · exact (singleAt_cut rfl ..).symm
      | singleExt => exact (escapedSingle_cut rfl ..).symm
      | first => cases firstLength frame.data start <;> rfl
      | firstExt => cases numberAt frame.data (start + 1) 4 .firstLength <;> rfl
      | consecutive | consecutive2 => rfl
      | flowControl => cases flowAt frame.data start pci <;> rfl
      | acknowledgment =>
        cases flowAt frame.data start pci with
        | error fault => rfl
        | ok flow => cases byteAt frame.data (start + 3) .acknowledgment <;> rfl

/-- Whatever is read of a frame has one of the forms, and is cut to the limit. -/
theorem form_of_readControl (read : frame.readControl start limit = .ok r) :
    ∃ addresses h rest, addresses.length = start ∧ Header.Heads h frame addresses rest ∧
      r = (h.reading start rest.length).cut frame.data start limit := by
  rw [readControl_limit] at read
  cases whole : frame.readControl start none with
  | error fault =>
    rw [whole] at read
    cases read
  | ok w =>
    obtain ⟨addresses, h, rest, rfl, heads⟩ := heads_of_readControl whole
    rw [readControl_form heads] at read
    exact ⟨addresses, h, rest, rfl, heads, (Except.ok.inj read).symm⟩

theorem kind_of_readControl (read : frame.readControl start limit = .ok r) :
    ∃ pci, frame.data[start]? = some pci ∧ FrameKind.ofByte pci = .ok r.kind := by
  obtain ⟨addresses, h, rest, rfl, heads, rfl⟩ := form_of_readControl read
  obtain ⟨low, tail, form⟩ := h.bytes_front
  refine ⟨_, getElem?_of_byteAt (byteAt_kind heads.written form), ?_⟩
  rw [ControlReading.cut_kind]
  exact Header.ofByte_nibbles h.kind low

theorem readControl_number {number : UInt8} (read : frame.readControl start limit = .ok r)
    (consecutive : r.control = .consecutive number) : number < 16 := by
  obtain ⟨addresses, h, rest, rfl, heads, rfl⟩ := form_of_readControl read
  rw [ControlReading.cut_control] at consecutive
  cases h with
  | consecutive n | consecutive2 n =>
    have small : n < 16 := heads.canonical
    rw [← Control.consecutive.inj consecutive, UInt8.lt_iff_toNat_lt, UInt8.toNat_ofNat']
    exact Nat.lt_of_le_of_lt (Nat.mod_le _ _) small
  | single | longSingle | singleExt | first | longFirst | firstExt | flowControl | acknowledgment =>
    cases consecutive

end Frame

end IsoTransport
