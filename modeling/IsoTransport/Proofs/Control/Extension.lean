import IsoTransport.Proofs.Control.Ranges

/-!
Frames of which more bytes become known. What was read of a frame stays, only the payload of a segment grows;
a frame that was cut off stays cut off at the same part until it has as many bytes as it was said to need
(`readControl_append`).
-/

namespace IsoTransport

variable {data longer : Bytes} {α β : Type}

/-- What reading some data came to, and what it comes to when more bytes follow them. -/
inductive Stays (data longer : Bytes) (same : α → α → Prop) : Except Fault α → Except Fault α → Prop
  | read {a b : α} (alike : same a b) : Stays data longer same (.ok a) (.ok b)
  | unknown (value : UInt8) :
    Stays data longer same (.error (.badMessageType value)) (.error (.badMessageType value))
  | cutOff {field : HeaderField} {needed : Nat} {later : Except Fault α} (short : data.length < needed)
      (still : longer.length < needed → later = .error (.truncated field needed longer.length)) :
    Stays data longer same (.error (.truncated field needed data.length)) later

theorem Stays.of_ok {same : α → α → Prop} {a : α} {y : Except Fault α}
    (stays : Stays data longer same (.ok a) y) : ∃ b, y = .ok b ∧ same a b := by
  cases stays with
  | read alike => exact ⟨_, rfl, alike⟩

theorem Stays.of_error {same : α → α → Prop} {fault : Fault} {y : Except Fault α}
    (stays : Stays data longer same (.error fault) y) :
    (∃ value, fault = .badMessageType value ∧ y = .error fault) ∨
      ∃ field needed, fault = .truncated field needed data.length ∧ data.length < needed ∧
        (longer.length < needed → y = .error (.truncated field needed longer.length)) := by
  cases stays with
  | unknown value => exact .inl ⟨value, rfl, rfl⟩
  | cutOff short still => exact .inr ⟨_, _, rfl, short, still⟩

theorem Stays.bind {x y : Except Fault α} {f g : α → Except Fault β} {same : β → β → Prop}
    (first : Stays data longer Eq x y) (next : ∀ a, Stays data longer same (f a) (g a)) :
    Stays data longer same (x >>= f) (y >>= g) := by
  cases first with
  | read equal =>
    subst equal
    exact next _
  | unknown value => exact .unknown value
  | cutOff short still =>
    refine .cutOff short fun below => ?_
    rw [still below]
    rfl

/-! ### Parts of the control information -/

theorem piece_longer {start width : Nat} (room : start + width ≤ data.length) (more : Bytes) :
    ((data ++ more).drop start).take width = (data.drop start).take width := by
  rw [List.drop_append_of_le_length (by omega), List.take_append_of_le_length]
  rw [List.length_drop]
  omega

theorem getElem?_longer {more : Bytes} {i : Nat} {b : UInt8} (found : data[i]? = some b) :
    (data ++ more)[i]? = some b := by
  obtain ⟨inside, -⟩ := List.getElem?_eq_some_iff.mp found
  rw [List.getElem?_append_left inside]
  exact found

theorem slice?_longer {more piece : Bytes} {i width : Nat} (found : data.slice? i width = some piece) :
    Bytes.slice? (data ++ more) i width = some piece := by
  unfold Bytes.slice? at found ⊢
  split at found
  · rename_i room
    have longer : i + width ≤ (data ++ more).length := by
      rw [List.length_append]
      omega
    rw [if_pos longer, piece_longer room]
    exact found
  · cases found

theorem slice?_eq_none {i width : Nat} : data.slice? i width = none ↔ data.length < i + width := by
  simp [Bytes.slice?]

theorem byteAt_stays (data more : Bytes) (i : Nat) (field : HeaderField) :
    Stays data (data ++ more) Eq (byteAt data i field) (byteAt (data ++ more) i field) := by
  unfold byteAt
  cases found : data[i]? with
  | some b =>
    rw [getElem?_longer found]
    exact .read rfl
  | none =>
    have short := List.getElem?_eq_none_iff.mp found
    refine .cutOff (Nat.lt_succ_of_le short) fun below => ?_
    rw [List.getElem?_eq_none (Nat.le_of_lt_succ below)]

theorem numberAt_stays (data more : Bytes) (i width : Nat) (field : HeaderField) :
    Stays data (data ++ more) Eq (numberAt data i width field) (numberAt (data ++ more) i width field) := by
  unfold numberAt
  cases found : data.slice? i width with
  | some piece =>
    rw [slice?_longer found]
    exact .read rfl
  | none =>
    refine .cutOff (slice?_eq_none.mp found) fun below => ?_
    rw [slice?_eq_none.mpr below]

theorem ofByte_stays (b : UInt8) : Stays data longer Eq (FrameKind.ofByte b) (FrameKind.ofByte b) := by
  cases known : FrameKind.ofByte b with
  | ok kind => exact .read rfl
  | error fault =>
    obtain ⟨-, rfl⟩ := ofByte_unknown known
    exact .unknown _

namespace Frame

/-- Two readings of one frame, of which the second may have more of the payload of a segment. -/
structure Prolongs (r r' : ControlReading) : Prop where
  kind : r'.kind = r.kind
  control : r'.control = r.control
  offset : r'.offset = r.offset
  length : r.length ≤ r'.length
  whole : r.kind.isSegmented = false → r'.length = r.length

theorem Prolongs.refl (r : ControlReading) : Prolongs r r := ⟨rfl, rfl, rfl, Nat.le_refl _, fun _ => rfl⟩

theorem singleAt_stays (kind : FrameKind) (data more : Bytes) (offset length : Nat) :
    Stays data (data ++ more) Prolongs (singleAt kind data offset length)
      (singleAt kind (data ++ more) offset length) := by
  unfold singleAt
  by_cases room : offset + length ≤ data.length
  · have longer : offset + length ≤ (data ++ more).length := by
      rw [List.length_append]
      omega
    rw [if_pos room, if_pos longer]
    exact .read (Prolongs.refl _)
  · rw [if_neg room]
    refine .cutOff (Nat.not_le.mp room) fun below => ?_
    rw [if_neg (Nat.not_le.mpr below)]

theorem escapedSingle_stays (kind : FrameKind) (data more : Bytes) (start : Nat) :
    Stays data (data ++ more) Prolongs (escapedSingle kind data start) (escapedSingle kind (data ++ more) start) :=
  (byteAt_stays ..).bind fun _ => singleAt_stays ..

theorem firstLength_stays (data more : Bytes) (start : Nat) :
    Stays data (data ++ more) Eq (firstLength data start) (firstLength (data ++ more) start) := by
  apply (numberAt_stays ..).bind
  intro word
  split
  · exact (numberAt_stays ..).bind fun _ => .read rfl
  · exact .read rfl

theorem flowAt_stays (data more : Bytes) (start : Nat) (pci : UInt8) :
    Stays data (data ++ more) Eq (flowAt data start pci) (flowAt (data ++ more) start pci) := by
  apply (byteAt_stays ..).bind
  intro blockSize
  apply (byteAt_stays ..).bind
  intro separation
  exact .read rfl

theorem segmentLength_mono (start offset : Nat) (limit : Option Nat) {data longer : Bytes}
    (grown : data.length ≤ longer.length) :
    segmentLength data start offset limit ≤ segmentLength longer start offset limit := by
  unfold segmentLength
  split <;> omega

theorem segment_prolongs {kind : FrameKind} (segmented : kind.isSegmented = true) (control : Control)
    (data more : Bytes) (start offset : Nat) (limit : Option Nat) :
    Prolongs { kind, control, offset, length := segmentLength data start offset limit }
      { kind, control, offset, length := segmentLength (data ++ more) start offset limit } where
  kind := rfl
  control := rfl
  offset := rfl
  length := by
    apply segmentLength_mono
    rw [List.length_append]
    omega
  whole unsegmented := absurd segmented (by simp [unsegmented])

/-! ### Whole frames -/

theorem readControl_stays (frame : Frame) (start : Nat) (limit : Option Nat) (more : Bytes) :
    Stays frame.data (frame.data ++ more) Prolongs (frame.readControl start limit)
      (Frame.readControl { frame with data := frame.data ++ more } start limit) := by
  unfold readControl
  apply (byteAt_stays ..).bind
  intro pci
  apply (ofByte_stays pci).bind
  intro kind
  cases kind with
  | single =>
    dsimp only
    split
    · exact escapedSingle_stays ..
    · exact singleAt_stays ..
  | singleExt => exact escapedSingle_stays ..
  | first =>
    apply (firstLength_stays ..).bind
    intro found
    exact .read (segment_prolongs rfl ..)
  | firstExt =>
    apply (numberAt_stays ..).bind
    intro length
    exact .read (segment_prolongs rfl ..)
  | consecutive | consecutive2 => exact .read (segment_prolongs rfl ..)
  | flowControl =>
    apply (flowAt_stays ..).bind
    intro flow
    exact .read (Prolongs.refl _)
  | acknowledgment =>
    apply (flowAt_stays ..).bind
    intro flow
    apply (byteAt_stays ..).bind
    intro trailer
    exact .read (Prolongs.refl _)

/-- The bytes that were the payload still are, and those of a segment may go on. -/
theorem Prolongs.payload {r r' : ControlReading} (prolongs : Prolongs r r') {data : Bytes}
    (room : r.offset + r.length ≤ data.length) (more : Bytes) :
    r.payload data <+: r'.payload (data ++ more) ∧
      (r.kind.isSegmented = false → r'.payload (data ++ more) = r.payload data) := by
  unfold ControlReading.payload
  rw [← piece_longer room more, prolongs.offset]
  refine ⟨List.take_prefix_take_left prolongs.length, fun unsegmented => ?_⟩
  rw [prolongs.whole unsegmented]

theorem below_of_truncated {frame : Frame} {start : Nat} {limit : Option Nat} {field : HeaderField}
    {needed available : Nat}
    (missing : frame.readControl start limit = .error (.truncated field needed available)) :
    frame.data.length < needed := by
  rcases readControl_failed missing with ⟨_, _, _, unknown⟩ | ⟨-, _, _, same, below⟩
  · cases unknown
  · cases same
    exact below

/-- A frame of which more bytes become known is read as before, with the same payload or, for a segment, one
that goes on; an unknown kind stays unknown. Where a part was cut off, it is missing as long as, and only as
long as, there are fewer bytes than were said to be needed. -/
theorem readControl_append (frame : Frame) (start : Nat) (limit : Option Nat) (more : Bytes) :
    let longer : Frame := { frame with data := frame.data ++ more }
    (∀ r, frame.readControl start limit = .ok r →
      ∃ r', longer.readControl start limit = .ok r' ∧ r'.kind = r.kind ∧ r'.control = r.control ∧
        r'.offset = r.offset ∧
        if r.kind.isSegmented then r.payload frame.data <+: r'.payload longer.data
        else r'.payload longer.data = r.payload frame.data) ∧
    ∀ fault, frame.readControl start limit = .error fault →
      (∃ value, fault = .badMessageType value ∧ longer.readControl start limit = .error fault) ∨
      ∃ field needed, fault = .truncated field needed frame.data.length ∧ frame.data.length < needed ∧
        (longer.readControl start limit = .error (.truncated field needed longer.data.length) ↔
          longer.data.length < needed) := by
  intro longer
  have stays : Stays frame.data longer.data Prolongs (frame.readControl start limit)
      (longer.readControl start limit) := frame.readControl_stays start limit more
  refine ⟨fun r read => ?_, fun fault failed => ?_⟩
  · rw [read] at stays
    obtain ⟨r', read', prolongs⟩ := stays.of_ok
    obtain ⟨goesOn, whole⟩ := prolongs.payload (readControl_within read).room more
    refine ⟨r', read', prolongs.kind, prolongs.control, prolongs.offset, ?_⟩
    split
    · exact goesOn
    · rename_i unsegmented
      exact whole (by simpa using unsegmented)
  · rw [failed] at stays
    rcases stays.of_error with unknown | ⟨field, needed, cause, short, still⟩
    · exact .inl unknown
    · refine .inr ⟨field, needed, cause, short, fun missing => ?_, still⟩
      exact below_of_truncated missing

/-- A segment that goes on up to its limit, and a single frame that still lacks a byte of its payload. -/
theorem readControl_append_cut :
    let segment : Frame := { medium := .flexRay, id := 7, data := [0x55, 0x21, 1] }
    let longer : Frame := { segment with data := [0x55, 0x21, 1, 2, 3, 4] }
    let single : Frame := { medium := .can, id := 2024, data := [0x55, 0x03, 1], reportedLen := 8 }
    let short : Frame := { single with data := [0x55, 0x03, 1, 2] }
    (∃ r', longer.readControl 1 (some 4) = .ok r' ∧ [1] <+: r'.payload longer.data) ∧
      short.readControl 1 none = .error (.truncated .payload 5 4) := by
  intro segment longer single short
  have read : segment.readControl 1 (some 4) =
      .ok { kind := .consecutive, control := .consecutive 1, offset := 2, length := 1 } := by decide
  obtain ⟨r', read', -, -, -, payload⟩ := (segment.readControl_append 1 (some 4) [2, 3, 4]).1 _ read
  refine ⟨⟨r', read', payload⟩, ?_⟩
  have failed : single.readControl 1 none = .error (.truncated .payload 5 3) := by decide
  rcases (single.readControl_append 1 none [2]).2 _ failed with
    ⟨_, unknown, -⟩ | ⟨field, needed, cause, -, missing⟩
  · cases unknown
  · cases cause
    exact missing.mpr (by decide)

end Frame

end IsoTransport
