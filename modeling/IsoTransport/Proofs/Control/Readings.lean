import IsoTransport.Proofs.Control.Forms

/-!
What a receiver is to read of each written form, and how the form can be told from it. A frame that has a form
behind its addresses is read as that form (`readControl_form`).
-/

namespace IsoTransport

/-! ### Forms and readings -/

namespace Header

/-- How many of the bytes behind a form are its payload. -/
def payloadLength (behind : Nat) : Header → Nat
  | single n => n
  | longSingle n | singleExt _ n => n.toNat
  | flowControl .. | acknowledgment .. => 0
  | first _ | longFirst _ | firstExt .. | consecutive _ | consecutive2 _ => behind

theorem payloadLength_of_segmented {h : Header} {behind : Nat} (segmented : h.kind.isSegmented = true) :
    h.payloadLength behind = behind := by
  cases h with
  | single | longSingle | singleExt | flowControl | acknowledgment => cases segmented
  | first | longFirst | firstExt | consecutive | consecutive2 => rfl

/-- What a receiver is to take from a form that starts at `start`. -/
def reading (h : Header) (start behind : Nat) : ControlReading where
  kind := h.kind
  control := h.control
  offset := start + h.bytes.length
  length := h.payloadLength behind

/-- The nibble that a form does not use. -/
def unused : Header → Nat
  | singleExt x _ | firstExt x _ => x
  | _ => 0

/-- The data of a frame has this form behind the addresses, and behind the form there is its payload. -/
structure Heads (h : Header) (frame : Frame) (addresses rest : Bytes) : Prop where
  canonical : h.Canonical frame.reportedLen
  written : frame.data = addresses ++ h.bytes ++ rest
  room : h.payloadLength rest.length ≤ rest.length

end Header

def FlowStatus.nibble : FlowStatus → Nat
  | continueToSend => 0
  | wait => 1
  | overflow => 2
  | reserved n => n.toNat

def SeparationTime.toByte : SeparationTime → UInt8
  | millis n => UInt8.ofNat n
  | micros n => UInt8.ofNat (0xf0 + n / 100)

/-- The form that a reading was taken from, where the control information starts at `start`. It is told
from the kind, the control and the offset; a nibble that is not used has to be given. -/
def ControlReading.header? (r : ControlReading) (start unused : Nat) : Option Header :=
  match r.kind, r.control with
  | .single, .single n => some (if r.offset = start + 1 then .single n else .longSingle (UInt8.ofNat n))
  | .singleExt, .single n => some (.singleExt unused (UInt8.ofNat n))
  | .first, .first n => some (if r.offset = start + 2 then .first n else .longFirst (UInt32.ofNat n))
  | .firstExt, .first n => some (.firstExt unused (UInt32.ofNat n))
  | .consecutive, .consecutive s => some (.consecutive s.toNat)
  | .consecutive2, .consecutive s => some (.consecutive2 s.toNat)
  | .flowControl, .flow f => some (.flowControl f.status.nibble f.blockSize f.separation.toByte)
  | .acknowledgment, .flow f =>
    f.ack.map fun a =>
      .acknowledgment f.status.nibble f.blockSize f.separation.toByte a.code.toNat a.number.toNat
  | _, _ => none

theorem Header.nibble_statusOf {s : Nat} (small : s < 16) : (statusOf s).nibble = s := by
  have all : ∀ s < 16, (statusOf s).nibble = s := by decide
  exact all s small

theorem Header.toByte_separationOf (t : UInt8) : (separationOf t.toNat).toByte = t := by
  unfold separationOf
  split
  · refine UInt8.toNat_inj.mp ?_
    rw [SeparationTime.toByte, UInt8.toNat_ofNat', Nat.mul_div_cancel_left _ (by decide)]
    omega
  · rw [SeparationTime.toByte, UInt8.ofNat_toNat]

theorem Header.nibbles_self (b : UInt8) : Header.nibbles (b >>> 4).toNat (lowNibble b).toNat = b := by
  refine UInt8.toNat_inj.mp ?_
  have size := b.toNat_lt
  rw [nibbles, UInt8.toNat_ofNat', toNat_lowNibble, toNat_highNibble]
  omega

theorem Header.header?_reading {h : Header} {reported : Nat} (canonical : h.Canonical reported)
    (start behind : Nat) {unused : Nat}
    (told : h.kind = .singleExt ∨ h.kind = .firstExt → unused = h.unused) :
    (h.reading start behind).header? start unused = some h := by
  cases h with
  | single n => simp [ControlReading.header?, reading, kind, control, bytes]
  | longSingle n => simp [ControlReading.header?, reading, kind, control, bytes]
  | singleExt x n =>
    obtain rfl := told (.inl rfl)
    simp [ControlReading.header?, reading, kind, control]
  | first n => simp [ControlReading.header?, reading, kind, control, bytes]
  | longFirst n => simp [ControlReading.header?, reading, kind, control, bytes, Bytes.length_ofNat]
  | firstExt x n =>
    obtain rfl := told (.inr rfl)
    simp [ControlReading.header?, reading, kind, control]
  | consecutive n | consecutive2 n =>
    have small : n < 16 := canonical
    simp [ControlReading.header?, reading, kind, control, Nat.mod_eq_of_lt (show n < 256 by omega)]
  | flowControl s b t =>
    simp [ControlReading.header?, reading, kind, control, nibble_statusOf canonical, toByte_separationOf]
  | acknowledgment s b t c q =>
    obtain ⟨status, code, number⟩ := canonical
    simp [ControlReading.header?, reading, kind, control, nibble_statusOf status, toByte_separationOf,
      Nat.mod_eq_of_lt (show c < 256 by omega), Nat.mod_eq_of_lt (show q < 256 by omega)]

/-! ### Every form is read -/

theorem FlowStatus.ofByte_nibbles {kind : FrameKind} {s : Nat} (small : s < 16) :
    ofByte (Header.nibbles kind.code.toNat s) = Header.statusOf s := by
  have all : ∀ s < 16, ofByte (Header.nibbles kind.code.toNat s) = Header.statusOf s := by
    cases kind <;> decide
  exact all s small

theorem SeparationTime.ofByte_eq (t : UInt8) : ofByte t = Header.separationOf t.toNat := by
  have marked : 0xf1 ≤ t ∧ t ≤ 0xf9 ↔ 0xf0 < t.toNat ∧ t.toNat < 0xfa := by
    rw [UInt8.le_iff_toNat_le, UInt8.le_iff_toNat_le]
    exact and_congr Iff.rfl Nat.lt_succ_iff.symm
  rw [ofByte, Header.separationOf, if_congr marked rfl rfl, Nat.mul_comm]

theorem Ack.ofByte_nibbles {c q : Nat} (code : c < 16) (number : q < 16) :
    ofByte (Header.nibbles c q) = { code := UInt8.ofNat c, number := UInt8.ofNat q } := by
  have all : ∀ c < 16, ∀ q < 16, ofByte (Header.nibbles c q) = ⟨UInt8.ofNat c, UInt8.ofNat q⟩ := by
    decide
  exact all c code q number

theorem singleAt_room {kind : FrameKind} {data : Bytes} {offset length : Nat}
    (room : offset + length ≤ data.length) :
    singleAt kind data offset length = .ok { kind, control := .single length, offset, length } := if_pos room

namespace Frame

variable {frame : Frame} {addresses rest : Bytes} {h : Header}

theorem escapedSingle_room {kind : FrameKind} {data : Bytes} {first n : UInt8}
    (written : data = addresses ++ [first, n] ++ rest) (room : n.toNat ≤ rest.length) :
    escapedSingle kind data addresses.length =
      .ok { kind, control := .single n.toNat, offset := addresses.length + 2, length := n.toNat } := by
  have all : addresses.length + 2 + n.toNat ≤ data.length := by
    simp only [written, List.length_append, List.length_cons, List.length_nil]
    omega
  simp only [escapedSingle, byteAt_form written (show [first, n][1]? = some n from rfl), bind, Except.bind,
    singleAt_room all]

theorem flowAt_written {data form : Bytes} {pci b t : UInt8} (written : data = addresses ++ form ++ rest)
    (blockSize : form[1]? = some b) (separation : form[2]? = some t) :
    flowAt data addresses.length pci =
      .ok { status := .ofByte pci, blockSize := b, separation := .ofByte t } := by
  simp only [flowAt, byteAt_form written blockSize, byteAt_form written separation, bind, Except.bind, pure,
    Except.pure]

theorem readControl_form (heads : h.Heads frame addresses rest) :
    frame.readControl addresses.length none = .ok (h.reading addresses.length rest.length) := by
  obtain ⟨canonical, written, room⟩ := heads
  by_cases segmented : h.kind.isSegmented
  · have size : frame.data.length - (addresses.length + h.bytes.length) = rest.length := by
      simp only [written, List.length_append]
      omega
    rw [readControl_segment canonical segmented written, segmentLength, size, Header.reading,
      Header.payloadLength_of_segmented segmented]
  rw [readControl]
  cases h with
  | first | longFirst | firstExt | consecutive | consecutive2 => exact absurd rfl segmented
  | single n =>
    obtain ⟨small, short⟩ := canonical
    have value : (UInt8.ofNat (n % 16)).toNat = n := by rw [UInt8.toNat_ofNat']; omega
    have plain : ¬(Can.classicLimit < frame.reportedLen ∧ UInt8.ofNat (n % 16) = 0) := by
      rintro ⟨long, zero⟩
      rw [zero] at value
      exact Nat.not_lt.mpr (short value.symm) long
    have all : addresses.length + 1 + n ≤ frame.data.length := by
      simp only [written, List.length_append, Header.bytes, List.length_singleton]
      exact Nat.add_le_add_left room _
    simp only [byteAt_kind written rfl, Header.ofByte_nibbles, bind, Except.bind, Header.kind, Header.lowNibble_nibbles,
      if_neg plain, value, singleAt_room all]
    rfl
  | longSingle n =>
    have escaped : Can.classicLimit < frame.reportedLen ∧ UInt8.ofNat (0 % 16) = 0 := ⟨canonical, rfl⟩
    simp only [byteAt_kind written rfl, Header.ofByte_nibbles, bind, Except.bind, Header.kind, Header.lowNibble_nibbles,
      if_pos escaped, escapedSingle_room written room]
    rfl
  | singleExt unused n =>
    simp only [byteAt_kind written rfl, Header.ofByte_nibbles, bind, Except.bind, Header.kind,
      escapedSingle_room written room]
    rfl
  | flowControl s b t =>
    simp only [byteAt_kind written rfl, Header.ofByte_nibbles, bind, Except.bind, pure, Except.pure, Header.kind,
      flowAt_written written rfl rfl, FlowStatus.ofByte_nibbles canonical, SeparationTime.ofByte_eq]
    rfl
  | acknowledgment s b t c q =>
    obtain ⟨status, code, number⟩ := canonical
    have trailer : (Header.acknowledgment s b t c q).bytes[3]? = some (Header.nibbles c q) := rfl
    simp only [byteAt_kind written rfl, Header.ofByte_nibbles, bind, Except.bind, pure, Except.pure, Header.kind,
      flowAt_written written rfl rfl, byteAt_form written trailer, FlowStatus.ofByte_nibbles status,
      SeparationTime.ofByte_eq, Ack.ofByte_nibbles code number]
    rfl

theorem payload_form (heads : h.Heads frame addresses rest) :
    (h.reading addresses.length rest.length).payload frame.data = rest.take (h.payloadLength rest.length) := by
  rw [ControlReading.payload, heads.written, Header.reading, ← List.length_append, List.drop_left]

end Frame

end IsoTransport
