import IsoTransport.Proofs.Session.AddressFields
import IsoTransport.Proofs.Session.Erasure
import IsoTransport.Proofs.Session.Twins

/-!
What pads a FlexRay slot is never data. A first or consecutive frame is read from the bytes within the limit of its
slot alone, and so a session does not tell frames apart that differ behind it (`Session.padding_ignored`).
-/

namespace IsoTransport

namespace Header

theorem length_bytes_le (h : Header) : h.bytes.length ≤ 6 := by
  cases h <;> simp [bytes, Bytes.length_ofNat]

theorem canonical_of_segmented {h : Header} {reported other : Nat} (segmented : h.kind.isSegmented = true)
    (canonical : h.Canonical reported) : h.Canonical other := by
  cases h with
  | single | longSingle | singleExt | flowControl | acknowledgment => cases segmented
  | first | longFirst | firstExt | consecutive | consecutive2 => exact canonical

end Header

namespace Frame

variable {frame : Frame} {s : Settings}

/-! ### Frames with room for every form -/

theorem numberAt_room {data : Bytes} {i width : Nat} (field : HeaderField) (room : i + width ≤ data.length) :
    ∃ n, numberAt data i width field = .ok n := by
  rw [numberAt, Bytes.slice?, if_pos room]
  exact ⟨_, rfl⟩

theorem firstLength_room {data : Bytes} {start : Nat} (room : start + 6 ≤ data.length) :
    ∃ found, firstLength data start = .ok found := by
  obtain ⟨word, wordRead⟩ := numberAt_room .firstLength (by omega : start + 2 ≤ data.length)
  obtain ⟨n, lengthRead⟩ := numberAt_room .escapedLength (by omega : start + 2 + 4 ≤ data.length)
  simp only [firstLength, wordRead, lengthRead, bind, Except.bind, pure, Except.pure]
  split <;> exact ⟨_, rfl⟩

theorem readControl_room {start : Nat} {pci : UInt8} {kind : FrameKind} (found : frame.data[start]? = some pci)
    (known : FrameKind.ofByte pci = .ok kind) (segmented : kind.isSegmented = true)
    (room : start + 6 ≤ frame.data.length) : ∃ r, frame.readControl start none = .ok r := by
  have here : byteAt frame.data start .control = .ok pci := by rw [byteAt, found]
  simp only [readControl, here, known, bind, Except.bind]
  cases kind with
  | single | singleExt | flowControl | acknowledgment => cases segmented
  | first =>
    obtain ⟨found, length⟩ := firstLength_room room
    rw [length]
    exact ⟨_, rfl⟩
  | firstExt =>
    obtain ⟨n, length⟩ := numberAt_room .firstLength (by omega : start + 1 + 4 ≤ frame.data.length)
    rw [length]
    exact ⟨_, rfl⟩
  | consecutive | consecutive2 => exact ⟨_, rfl⟩

/-! ### Padding -/

/-- Where the data of a FlexRay frame ends, and what pads its slot begins. -/
def dataEnd (frame : Frame) (s : Settings) : Nat := (frame.locate s).length + s.flexRaySegmentLimit.toNat

/-- A first or consecutive frame of FlexRay that is no shorter than its slot allows. -/
structure Fills (frame : Frame) (s : Settings) : Prop where
  medium : frame.medium = .flexRay
  segmented : ∃ pci kind, frame.data[(frame.locate s).length]? = some pci ∧ FrameKind.ofByte pci = .ok kind ∧
    kind.isSegmented = true
  room : frame.dataEnd s ≤ frame.data.length

def repadded (frame : Frame) (s : Settings) (padding : Bytes) (reported : Nat) : Frame :=
  { frame with data := frame.data.take (frame.dataEnd s) ++ padding, reportedLen := reported }

/-- A frame that fills its slot, with the form of its control information. -/
structure Filled (frame : Frame) (s : Settings) (addresses : Bytes) (h : Header) (rest : Bytes) : Prop where
  medium : frame.medium = .flexRay
  here : addresses.length = (frame.locate s).length
  segmented : h.kind.isSegmented = true
  canonical : h.Canonical frame.reportedLen
  written : frame.data = addresses ++ h.bytes ++ rest
  room : frame.dataEnd s ≤ frame.data.length

theorem Fills.filled (fills : frame.Fills s) (six : 6 ≤ s.flexRaySegmentLimit.toNat) :
    ∃ addresses h rest, frame.Filled s addresses h rest := by
  obtain ⟨pci, kind, found, known, segmented⟩ := fills.segmented
  have room := fills.room
  -- no form is longer than six bytes, so none is cut off
  have enough : (frame.locate s).length + 6 ≤ frame.data.length := by
    unfold dataEnd at room
    omega
  -- the form does not hang on the limit, so it is found by reading without one
  obtain ⟨r, read⟩ := readControl_room found known segmented enough
  obtain ⟨addresses, h, rest, here, heads⟩ := heads_of_readControl read
  obtain ⟨pci', found', known'⟩ := kind_of_readControl read
  obtain rfl := Option.some.inj (found.symm.trans found')
  have same : kind = h.kind := by
    rw [← here, readControl_form heads] at read
    rw [← Except.ok.inj read] at known'
    exact Except.ok.inj (known.symm.trans known')
  exact ⟨addresses, h, rest, fills.medium, here, same ▸ segmented, heads.canonical, heads.written, room⟩

namespace Filled

variable {addresses rest : Bytes} {h : Header}

theorem reading (filled : frame.Filled s addresses h rest) (six : 6 ≤ s.flexRaySegmentLimit.toNat) :
    s.reading frame =
      .ok (h.reading addresses.length (s.flexRaySegmentLimit.toNat - h.bytes.length)) := by
  have limit : s.segmentLimit frame.medium = some s.flexRaySegmentLimit.toNat := by
    refine if_pos ⟨filled.medium, fun none => ?_⟩
    rw [none] at six
    exact absurd six (by decide)
  have room := filled.room
  have cut : min (frame.data.length - (addresses.length + h.bytes.length))
      (s.flexRaySegmentLimit.toNat - (addresses.length + h.bytes.length - addresses.length)) =
      s.flexRaySegmentLimit.toNat - h.bytes.length := by
    rw [dataEnd, ← filled.here] at room
    omega
  rw [Settings.reading, ← filled.here, limit,
    readControl_segment filled.canonical filled.segmented filled.written, segmentLength]
  simp only [cut, Header.reading, Header.payloadLength_of_segmented filled.segmented]

theorem payload (filled : frame.Filled s addresses h rest) :
    (h.reading addresses.length (s.flexRaySegmentLimit.toNat - h.bytes.length)).payload frame.data =
      (frame.data.take (frame.dataEnd s)).drop (addresses.length + h.bytes.length) := by
  rw [ControlReading.payload, Header.reading, Header.payloadLength_of_segmented filled.segmented, List.drop_take,
    dataEnd, ← filled.here, Nat.add_sub_add_left]

theorem take_repadded (filled : frame.Filled s addresses h rest) (padding : Bytes) (reported : Nat) {n : Nat}
    (inside : n ≤ frame.dataEnd s) : (frame.repadded s padding reported).data.take n = frame.data.take n := by
  have size := List.length_take_of_le filled.room
  rw [repadded, List.take_append_of_le_length (by rw [size]; exact inside), List.take_take,
    Nat.min_eq_left inside]

theorem locate_repadded (filled : frame.Filled s addresses h rest) (padding : Bytes) (reported : Nat) :
    (frame.repadded s padding reported).locate s = frame.locate s := by
  have format : AddressingFormat.ofFrame (frame.repadded s padding reported) s = AddressingFormat.ofFrame frame s := rfl
  exact locate_congr format (filled.take_repadded padding reported (Nat.le_add_right _ _))

theorem repadded (filled : frame.Filled s addresses h rest) (six : 6 ≤ s.flexRaySegmentLimit.toNat)
    (padding : Bytes) (reported : Nat) :
    (frame.repadded s padding reported).Filled s addresses h
      (rest.take (s.flexRaySegmentLimit.toNat - h.bytes.length) ++ padding) := by
  have location := filled.locate_repadded padding reported
  refine ⟨filled.medium, ?_, filled.segmented, Header.canonical_of_segmented filled.segmented filled.canonical,
    ?_, ?_⟩
  · rw [location, filled.here]
  · have form := h.length_bytes_le
    rw [Frame.repadded, dataEnd, ← filled.here, filled.written, List.append_assoc addresses,
      List.take_length_add_append, List.take_append,
      List.take_of_length_le (by omega : h.bytes.length ≤ s.flexRaySegmentLimit.toNat)]
    simp only [List.append_assoc]
  · rw [dataEnd, location, Frame.repadded, List.length_append, List.length_take_of_le filled.room]
    exact Nat.le_add_right _ _

theorem selects (filled : frame.Filled s addresses h rest) : s.selects frame = true := by
  simp only [Settings.selects, filled.medium]

theorem brings (filled : frame.Filled s addresses h rest) (six : 6 ≤ s.flexRaySegmentLimit.toNat) :
    s.segment? frame ≠ none := by
  have read := filled.reading six
  have segment := (readControl_segmented read).mp filled.segmented
  rw [Settings.segment?, if_pos filled.selects, read]
  simpa using segment

end Filled

end Frame

theorem Settings.alike_repadded {s : Settings} {frame : Frame} {addresses rest : Bytes} {h : Header}
    (filled : frame.Filled s addresses h rest) (six : 6 ≤ s.flexRaySegmentLimit.toNat) (padding : Bytes)
    (reported : Nat) : s.Alike id frame (frame.repadded s padding reported) := by
  have other := filled.repadded six padding reported
  have location := filled.locate_repadded padding reported
  refine ⟨other.selects.trans filled.selects.symm, location, (other.reading six).trans (filled.reading six).symm,
    fun r read => ?_, rfl, fun m => rfl⟩
  obtain rfl := Except.ok.inj ((filled.reading six).symm.trans read)
  rw [filled.payload, other.payload, Frame.dataEnd, location]
  exact congrArg _ (filled.take_repadded padding reported (Nat.le_refl _))

namespace Session

variable {σ : Type}

/-- Whatever pads the slots of first and consecutive frames, their answers are the same, as are the messages they
complete and the session they leave. The segment of such a frame, which is never malformed, is what stands between
its control information and the end of the data. -/
theorem padding_ignored (s : Session σ) (six : 6 ≤ s.settings.flexRaySegmentLimit.toNat) :
    (∀ feed feed' : List (FrameIndex × Frame),
      List.Forall₂ (fun x y => y.1 = x.1 ∧ (y.2 = x.2 ∨ x.2.Fills s.settings ∧
        ∃ padding reported, y.2 = x.2.repadded s.settings padding reported)) feed feed' →
      s.answers (feed'.map Event.ofFrame) = s.answers (feed.map Event.ofFrame) ∧
        s.handed feed' = s.handed feed ∧
        s.run (feed'.map Event.ofFrame) = s.run (feed.map Event.ofFrame)) ∧
      ∀ frame : Frame, frame.Fills s.settings → ∃ (addresses : Bytes) (h : Header) (rest : Bytes),
        frame.Filled s.settings addresses h rest ∧
          ∀ (t : Session σ) (index : FrameIndex), t.settings = s.settings →
            ¬Plain (t.observe index frame).1 ∧
              ∀ report, (t.observe index frame).1 = .ok (some report) →
                report.control.kind = h.kind ∧
                  report.segment = (frame.data.take (frame.dataEnd s.settings)).drop
                    (addresses.length + h.bytes.length) := by
  refine ⟨fun feed feed' related => ?_, fun frame fills => ?_⟩
  · have alike : FeedsAlike s.settings id feed feed' := by
      refine related.imp fun x y ⟨index, padded⟩ => ⟨index, ?_⟩
      obtain same | ⟨fills, padding, reported, other⟩ := padded
      · rw [same]
        exact .refl ..
      · obtain ⟨addresses, h, rest, filled⟩ := fills.filled six
        rw [other]
        exact Settings.alike_repadded filled six padding reported
    obtain ⟨answers, after, handed⟩ := run_twins (.refl s) s.router.looksAt_id alike
    rw [List.map_id, List.map_id] at handed
    exact ⟨answers, handed, after.eq⟩
  · obtain ⟨addresses, h, rest, filled⟩ := fills.filled six
    refine ⟨addresses, h, rest, filled, fun t index same => ?_⟩
    rw [← same] at filled six ⊢
    refine ⟨fun plain => filled.brings six (plain_iff.mp plain), fun report reported => ?_⟩
    obtain ⟨read, -, -, segment⟩ := observe_reported reported
    have control := Except.ok.inj (read.symm.trans (filled.reading six))
    rw [segment, control]
    exact ⟨rfl, filled.payload⟩

/-- A message in two slots of eight bytes behind the addresses, padded in one way and in another. -/
theorem padding_ignored_slots :
    let settings : Settings := { flexRaySegmentLimit := 8 }
    let s : Session Unit := start settings { memory := () }
    let first : Frame := .flexRay 0x20 4 1 [0x0a, 0x0b, 0x10, 13, 1, 2, 3, 4, 5, 6, 0xff, 0xff]
    let last : Frame := .flexRay 0x20 5 1 [0x0a, 0x0b, 0x21, 7, 8, 9, 10, 11, 12, 13]
    let feed : List (FrameIndex × Frame) := [(0, first), (1, last)]
    let feed' : List (FrameIndex × Frame) :=
      [(0, first.repadded settings [] 10), (1, last.repadded settings [0xee, 0xee, 0xee] 64)]
    settings.validate = .ok () ∧ last.repadded settings [0xee, 0xee, 0xee] 64 ≠ last ∧
      s.answers (feed'.map Event.ofFrame) = s.answers (feed.map Event.ofFrame) ∧
      s.run (feed'.map Event.ofFrame) = s.run (feed.map Event.ofFrame) ∧
      (s.handed feed').map (·.payload) = [[1, 2, 3, 4, 5, 6, 7, 8, 9, 10, 11, 12, 13]] ∧
      ¬Plain (s.observe 1 last).1 := by
  intro settings s first last feed feed'
  obtain ⟨runs, frames⟩ := padding_ignored s (by decide)
  have fillsFirst : first.Fills settings := ⟨rfl, ⟨0x10, .first, by decide, by decide, rfl⟩, by decide⟩
  have fillsLast : last.Fills settings := ⟨rfl, ⟨0x21, .consecutive, by decide, by decide, rfl⟩, by decide⟩
  obtain ⟨answers, handed, after⟩ := runs feed feed' (.cons ⟨rfl, .inr ⟨fillsFirst, [], 10, rfl⟩⟩
    (.cons ⟨rfl, .inr ⟨fillsLast, [0xee, 0xee, 0xee], 64, rfl⟩⟩ .nil))
  obtain ⟨addresses, h, rest, -, answer⟩ := frames last fillsLast
  refine ⟨by decide, by decide, answers, after, ?_, (answer s 1 rfl).1⟩
  rw [handed]
  decide +kernel

end Session

end IsoTransport
