import IsoTransport.Proofs.Control.Readings

/-!
Reading the control information is exact (`readControl_exact`). Besides the frames that have one of the written
forms none is read, and each of these others is refused for a kind that does not exist or for a part that is
cut off.
-/

namespace IsoTransport

/-! ### What is read is a form -/

theorem getElem?_of_byteAt {data : Bytes} {i : Nat} {field : HeaderField} {b : UInt8}
    (read : byteAt data i field = .ok b) : data[i]? = some b := by
  unfold byteAt at read
  split at read
  · rename_i found
    rw [found, Except.ok.inj read]
  · cases read

theorem drop_of_byteAt {data : Bytes} {i : Nat} {field : HeaderField} {b : UInt8}
    (read : byteAt data i field = .ok b) : data.drop i = b :: data.drop (i + 1) := by
  obtain ⟨bound, rfl⟩ := List.getElem?_eq_some_iff.mp (getElem?_of_byteAt read)
  exact List.drop_eq_getElem_cons bound

theorem drop_of_numberAt {data : Bytes} {i width n : Nat} {field : HeaderField}
    (read : numberAt data i width field = .ok n) :
    data.drop i = Bytes.ofNat width n ++ data.drop (i + width) ∧ n < 256 ^ width := by
  unfold numberAt at read
  split at read
  · rename_i bytes found
    obtain rfl := Except.ok.inj read
    have wide := Bytes.length_of_slice? found
    rw [Bytes.slice?] at found
    split at found
    · rename_i room
      have taken := Option.some.inj found
      refine ⟨?_, wide ▸ Bytes.bigEndian_lt bytes⟩
      rw [← wide, Bytes.ofNat_bigEndian, ← taken, List.length_take, List.length_drop,
        Nat.min_eq_left (by omega), ← List.drop_drop, List.take_append_drop]
    · cases found
  · cases read

theorem room_of_singleAt {kind : FrameKind} {data : Bytes} {offset length : Nat} {r : ControlReading}
    (read : singleAt kind data offset length = .ok r) : length ≤ (data.drop offset).length := by
  unfold singleAt at read
  split at read
  · rw [List.length_drop]
    omega
  · cases read

theorem code_of_ofByte {b : UInt8} {kind : FrameKind} (known : FrameKind.ofByte b = .ok kind) :
    b >>> 4 = kind.code := by
  unfold FrameKind.ofByte at known
  split at known
  all_goals
    rename_i high
    cases known
  all_goals exact high

theorem nibbles_of_ofByte {b : UInt8} {kind : FrameKind} (known : FrameKind.ofByte b = .ok kind) :
    b = Header.nibbles kind.code.toNat (lowNibble b).toNat := by
  rw [← code_of_ofByte known, Header.nibbles_self]

namespace Frame

variable {frame : Frame} {start : Nat}

theorem drop_of_escapedSingle {kind : FrameKind} {data : Bytes} {r : ControlReading}
    (read : escapedSingle kind data start = .ok r) :
    ∃ n, data.drop (start + 1) = n :: data.drop (start + 2) ∧ n.toNat ≤ (data.drop (start + 2)).length := by
  obtain ⟨n, length, read⟩ := ok_of_bind read
  exact ⟨n, drop_of_byteAt length, room_of_singleAt read⟩

theorem drop_of_flowAt {data : Bytes} {pci : UInt8} {flow : FlowControl} (read : flowAt data start pci = .ok flow) :
    ∃ b t, data.drop (start + 1) = b :: t :: data.drop (start + 3) := by
  obtain ⟨b, blockSize, read⟩ := ok_of_bind read
  obtain ⟨t, separation, -⟩ := ok_of_bind read
  exact ⟨b, t, by rw [drop_of_byteAt blockSize, drop_of_byteAt separation]⟩

theorem drop_of_firstLength {data : Bytes} {b : UInt8} {low : Nat} {reading : Nat × Nat}
    (here : data.drop start = b :: data.drop (start + 1)) (form : b = Header.nibbles 1 low)
    (read : firstLength data start = .ok reading) (reported : Nat) :
    ∃ (h : Header) (rest : Bytes), h.Canonical reported ∧ data.drop start = h.bytes ++ rest ∧
      h.payloadLength rest.length ≤ rest.length := by
  obtain ⟨word, wordRead, read⟩ := ok_of_bind read
  obtain ⟨whole, fits⟩ := drop_of_numberAt wordRead
  have bytes : Bytes.ofNat 2 word = [UInt8.ofNat (word / 256 % 256), UInt8.ofNat (word % 256)] := rfl
  -- the kind is the high nibble of the word, so the length is what is left of it
  have high : word / 256 = 16 + low % 16 := by
    rw [here, bytes] at whole
    have head := congrArg UInt8.toNat (form.symm.trans (List.cons.inj whole).1)
    rw [Header.nibbles, UInt8.toNat_ofNat', UInt8.toNat_ofNat'] at head
    omega
  split at read
  · rename_i escape
    obtain ⟨n, length, -⟩ := ok_of_bind read
    obtain ⟨next, fits⟩ := drop_of_numberAt length
    have value : (UInt32.ofNat n).toNat = n := Nat.mod_eq_of_lt fits
    refine ⟨.longFirst (UInt32.ofNat n), data.drop (start + 2 + 4), trivial, ?_, Nat.le_refl _⟩
    rw [whole, next, escape, Header.bytes, value]
    rfl
  · rename_i plain
    refine ⟨.first (word % 0x1000), data.drop (start + 2), ⟨by omega, by omega⟩, ?_, Nat.le_refl _⟩
    have first : word / 256 % 256 = 16 * 1 + word % 0x1000 / 256 % 16 := by omega
    have second : word % 256 = word % 0x1000 % 256 := by omega
    rw [whole, bytes, first, second]
    rfl

theorem heads_of_readControl {r : ControlReading} (read : frame.readControl start none = .ok r) :
    ∃ addresses h rest, addresses.length = start ∧ Header.Heads h frame addresses rest := by
  rw [readControl] at read
  obtain ⟨b, pci, read⟩ := ok_of_bind read
  obtain ⟨kind, known, read⟩ := ok_of_bind read
  have here := drop_of_byteAt pci
  have form := nibbles_of_ofByte known
  have small : (lowNibble b).toNat < 16 := UInt8.lt_iff_toNat_lt.mp (lowNibble_lt b)
  have bound : start ≤ frame.data.length := by
    have nonempty := congrArg List.length here
    rw [List.length_drop, List.length_cons] at nonempty
    omega
  -- what stands from `start` on is enough, the addresses are the bytes before it
  have found : ∀ (h : Header) (rest : Bytes), h.Canonical frame.reportedLen →
      frame.data.drop start = h.bytes ++ rest → h.payloadLength rest.length ≤ rest.length →
      ∃ addresses h rest, addresses.length = start ∧ Header.Heads h frame addresses rest := by
    intro h rest canonical written room
    refine ⟨frame.data.take start, h, rest, ?_, canonical, ?_, room⟩
    · rw [List.length_take, Nat.min_eq_left bound]
    · rw [List.append_assoc, ← written, List.take_append_drop]
  cases kind with
  | single =>
    dsimp only at read
    split at read
    · rename_i escaped
      obtain ⟨n, next, room⟩ := drop_of_escapedSingle read
      rw [escaped.2] at form
      exact found (.longSingle n) _ escaped.1 (by rw [here, next]; exact congrArg (· :: _) form) room
    · rename_i plain
      refine found (.single (lowNibble b).toNat) _ ⟨small, fun zero => ?_⟩
        (here.trans (congrArg (· :: _) form)) (room_of_singleAt read)
      have nothing : lowNibble b = 0 := UInt8.toNat_inj.mp zero
      exact Nat.not_lt.mp fun long => plain ⟨long, nothing⟩
  | singleExt =>
    obtain ⟨n, next, room⟩ := drop_of_escapedSingle read
    exact found (.singleExt (lowNibble b).toNat n) _ small
      (by rw [here, next]; exact congrArg (· :: _) form) room
  | first =>
    obtain ⟨reading, length, -⟩ := ok_of_bind read
    obtain ⟨h, rest, canonical, written, room⟩ := drop_of_firstLength here form length frame.reportedLen
    exact found h rest canonical written room
  | firstExt =>
    obtain ⟨n, length, -⟩ := ok_of_bind read
    obtain ⟨next, fits⟩ := drop_of_numberAt length
    have value : (UInt32.ofNat n).toNat = n := Nat.mod_eq_of_lt fits
    refine found (.firstExt (lowNibble b).toNat (UInt32.ofNat n)) (frame.data.drop (start + 1 + 4)) small ?_
      (Nat.le_refl _)
    rw [here, next, Header.bytes, value]
    exact congrArg (· :: _) form
  | consecutive =>
    exact found (.consecutive (lowNibble b).toNat) (frame.data.drop (start + 1)) small
      (here.trans (congrArg (· :: _) form)) (Nat.le_refl _)
  | consecutive2 =>
    exact found (.consecutive2 (lowNibble b).toNat) (frame.data.drop (start + 1)) small
      (here.trans (congrArg (· :: _) form)) (Nat.le_refl _)
  | flowControl =>
    obtain ⟨flow, read, -⟩ := ok_of_bind read
    obtain ⟨s, t, next⟩ := drop_of_flowAt read
    exact found (.flowControl (lowNibble b).toNat s t) _ small
      (by rw [here, next]; exact congrArg (· :: _) form) (Nat.zero_le _)
  | acknowledgment =>
    obtain ⟨flow, flowRead, read⟩ := ok_of_bind read
    obtain ⟨s, t, next⟩ := drop_of_flowAt flowRead
    obtain ⟨a, trailer, -⟩ := ok_of_bind read
    have code : (a >>> 4).toNat < 16 := by
      have size := a.toNat_lt
      rw [toNat_highNibble]
      omega
    have number : (lowNibble a).toNat < 16 := UInt8.lt_iff_toNat_lt.mp (lowNibble_lt a)
    refine found (.acknowledgment (lowNibble b).toNat s t (a >>> 4).toNat (lowNibble a).toNat)
      (frame.data.drop (start + 3 + 1)) ⟨small, code, number⟩ ?_ (Nat.zero_le _)
    rw [here, next, drop_of_byteAt trailer, Header.bytes, Header.nibbles_self]
    exact congrArg (· :: _) form

end Frame

/-! ### What is not read -/

/-- The data ends before a part that is needed. -/
def CutOff (data : Bytes) (fault : Fault) : Prop :=
  ∃ field needed, fault = .truncated field needed data.length ∧ data.length < needed

theorem error_of_bind {α β : Type} {x : Except Fault α} {f : α → Except Fault β} {fault : Fault}
    (failed : x >>= f = .error fault) : x = .error fault ∨ ∃ a, x = .ok a ∧ f a = .error fault := by
  cases x with
  | error cause => exact .inl (congrArg Except.error (Except.error.inj failed))
  | ok a => exact .inr ⟨a, rfl, failed⟩

theorem byteAt_cutOff {data : Bytes} {i : Nat} {field : HeaderField} {fault : Fault}
    (failed : byteAt data i field = .error fault) : data[i]? = none ∧ CutOff data fault := by
  unfold byteAt at failed
  split at failed
  · cases failed
  · rename_i absent
    exact ⟨absent, field, i + 1, (Except.error.inj failed).symm,
      Nat.lt_succ_of_le (List.getElem?_eq_none_iff.mp absent)⟩

theorem numberAt_cutOff {data : Bytes} {i width : Nat} {field : HeaderField} {fault : Fault}
    (failed : numberAt data i width field = .error fault) : CutOff data fault := by
  unfold numberAt at failed
  split at failed
  · cases failed
  · rename_i absent
    refine ⟨field, i + width, (Except.error.inj failed).symm, Nat.not_le.mp fun room => ?_⟩
    rw [Bytes.slice?, if_pos room] at absent
    cases absent

theorem singleAt_cutOff {kind : FrameKind} {data : Bytes} {offset length : Nat} {fault : Fault}
    (failed : singleAt kind data offset length = .error fault) : CutOff data fault := by
  unfold singleAt at failed
  split at failed
  · cases failed
  · rename_i short
    exact ⟨.payload, offset + length, (Except.error.inj failed).symm, Nat.not_le.mp short⟩

theorem ofByte_unknown {b : UInt8} {fault : Fault} (failed : FrameKind.ofByte b = .error fault) :
    (7 : UInt8) < b >>> 4 ∧ fault = .badMessageType (b >>> 4) := by
  unfold FrameKind.ofByte at failed
  split at failed
  case h_9 => exact ⟨by grind, (Except.error.inj failed).symm⟩
  all_goals cases failed

namespace Frame

variable {frame : Frame} {start : Nat} {fault : Fault}

theorem escapedSingle_cutOff {kind : FrameKind} {data : Bytes}
    (failed : escapedSingle kind data start = .error fault) : CutOff data fault := by
  rcases error_of_bind failed with length | ⟨n, -, failed⟩
  · exact (byteAt_cutOff length).2
  · exact singleAt_cutOff failed

theorem firstLength_cutOff {data : Bytes} (failed : firstLength data start = .error fault) :
    CutOff data fault := by
  rcases error_of_bind failed with word | ⟨word, -, failed⟩
  · exact numberAt_cutOff word
  · split at failed
    · rcases error_of_bind failed with length | ⟨n, -, failed⟩
      · exact numberAt_cutOff length
      · cases failed
    · cases failed

theorem flowAt_cutOff {data : Bytes} {pci : UInt8} (failed : flowAt data start pci = .error fault) :
    CutOff data fault := by
  rcases error_of_bind failed with blockSize | ⟨b, -, failed⟩
  · exact (byteAt_cutOff blockSize).2
  · rcases error_of_bind failed with separation | ⟨t, -, failed⟩
    · exact (byteAt_cutOff separation).2
    · cases failed

/-- A frame that is not read is of an unknown kind, or of a known one and cut off. -/
theorem readControl_failed {limit : Option Nat} (failed : frame.readControl start limit = .error fault) :
    (∃ b, frame.data[start]? = some b ∧ (7 : UInt8) < b >>> 4 ∧ fault = .badMessageType (b >>> 4)) ∨
      ((∀ b, frame.data[start]? = some b → b >>> 4 ≤ (7 : UInt8)) ∧ CutOff frame.data fault) := by
  rw [readControl] at failed
  rcases error_of_bind failed with pci | ⟨b, pci, failed⟩
  · obtain ⟨absent, cut⟩ := byteAt_cutOff pci
    exact .inr ⟨fun b found => absurd (found.symm.trans absent) (Option.some_ne_none b), cut⟩
  have found := getElem?_of_byteAt pci
  rcases error_of_bind failed with unknown | ⟨kind, known, failed⟩
  · obtain ⟨high, cause⟩ := ofByte_unknown unknown
    exact .inl ⟨b, found, high, cause⟩
  refine .inr ⟨fun b' found' => ?_, ?_⟩
  · obtain rfl := Option.some.inj (found.symm.trans found')
    rw [code_of_ofByte known]
    cases kind <;> decide
  cases kind with
  | single =>
    dsimp only at failed
    split at failed
    · exact escapedSingle_cutOff failed
    · exact singleAt_cutOff failed
  | singleExt => exact escapedSingle_cutOff failed
  | first =>
    rcases error_of_bind failed with length | ⟨_, -, failed⟩
    · exact firstLength_cutOff length
    · cases failed
  | firstExt =>
    rcases error_of_bind failed with length | ⟨_, -, failed⟩
    · exact numberAt_cutOff length
    · cases failed
  | consecutive | consecutive2 => cases failed
  | flowControl =>
    rcases error_of_bind failed with flow | ⟨_, -, failed⟩
    · exact flowAt_cutOff flow
    · cases failed
  | acknowledgment =>
    rcases error_of_bind failed with flow | ⟨_, -, failed⟩
    · exact flowAt_cutOff flow
    · rcases error_of_bind failed with trailer | ⟨_, -, failed⟩
      · exact (byteAt_cutOff trailer).2
      · cases failed

/-! ### All together -/

/-- Exactly the frames that have one of the forms are read, each as what its form means and with the payload
behind it, and the form can be told from the reading; the others are refused for an unknown kind, or for a
part that is cut off. -/
theorem readControl_exact (frame : Frame) (start : Nat) :
    (∀ (addresses rest : Bytes) (h : Header), addresses.length = start → h.Heads frame addresses rest →
      frame.readControl start none = .ok (h.reading start rest.length) ∧
        (h.reading start rest.length).payload frame.data = rest.take (h.payloadLength rest.length)) ∧
    (∀ r, frame.readControl start none = .ok r → ∃ (addresses rest : Bytes) (h : Header),
      addresses.length = start ∧ h.Heads frame addresses rest ∧ r = h.reading start rest.length ∧
        ∀ unused, (h.kind = .singleExt ∨ h.kind = .firstExt → unused = h.unused) →
          r.header? start unused = some h) ∧
    ((¬∃ (addresses rest : Bytes) (h : Header), addresses.length = start ∧ h.Heads frame addresses rest) →
      (∃ b, frame.data[start]? = some b ∧ (7 : UInt8) < b >>> 4 ∧
          frame.readControl start none = .error (.badMessageType (b >>> 4))) ∨
        ((∀ b, frame.data[start]? = some b → b >>> 4 ≤ (7 : UInt8)) ∧
          ∃ field needed, frame.readControl start none = .error (.truncated field needed frame.data.length) ∧
            frame.data.length < needed)) := by
  refine ⟨?_, fun r read => ?_, fun none => ?_⟩
  · rintro addresses rest h rfl heads
    exact ⟨readControl_form heads, payload_form heads⟩
  · obtain ⟨addresses, h, rest, rfl, heads⟩ := heads_of_readControl read
    obtain rfl := Except.ok.inj (read.symm.trans (readControl_form heads))
    exact ⟨addresses, rest, h, rfl, heads, rfl, fun unused told => h.header?_reading heads.canonical _ _ told⟩
  · cases read : frame.readControl start Option.none with
    | ok r =>
      obtain ⟨addresses, h, rest, here, heads⟩ := heads_of_readControl read
      exact absurd ⟨addresses, rest, h, here, heads⟩ none
    | error fault =>
      rcases readControl_failed read with ⟨b, found, high, rfl⟩ | ⟨known, field, needed, rfl, short⟩
      · exact .inl ⟨b, found, high, rfl⟩
      · exact .inr ⟨known, field, needed, rfl, short⟩

/-- Behind one byte of address: a long single frame with a byte of padding, a receiver that is full and asks
for 300 microseconds, an acknowledgment with a status that is not taken, and a kind that does not exist. -/
theorem readControl_exact_long :
    let frame : Frame :=
      { medium := .canFd, id := 2024, data := [0x55, 0x00, 2, 0xaa, 0xbb, 0xcc], reportedLen := 12 }
    let full : Frame := { medium := .canFd, id := 2024, data := [0x55, 0x32, 8, 0xf3, 0xff] }
    let acked : Frame := { medium := .canFd, id := 2024, data := [0x55, 0x75, 0, 0x7f, 0x4a] }
    let other : Frame := { medium := .canFd, id := 2024, data := [0x55, 0x93, 2, 0xaa] }
    let read : ControlReading := { kind := .single, control := .single 2, offset := 3, length := 2 }
    let held : FlowControl := { status := .overflow, blockSize := 8, separation := .micros 300 }
    let done : FlowControl :=
      { status := .reserved 5, blockSize := 0, separation := .millis 127, ack := some ⟨4, 10⟩ }
    frame.readControl 1 none = .ok read ∧ read.payload frame.data = [0xaa, 0xbb] ∧
      (∃ h, read.header? 1 0 = some h ∧ h.bytes = [0x00, 2]) ∧
      full.readControl 1 none =
        .ok { kind := .flowControl, control := .flow held, offset := 4, length := 0 } ∧
      acked.readControl 1 none =
        .ok { kind := .acknowledgment, control := .flow done, offset := 5, length := 0 } ∧
      other.readControl 1 none = .error (.badMessageType 9) := by
  intro frame full acked other read held done
  obtain ⟨forms, readings, -⟩ := readControl_exact frame 1
  have heads : (Header.longSingle 2).Heads frame [0x55] [0xaa, 0xbb, 0xcc] :=
    ⟨by decide, by decide, by decide⟩
  obtain ⟨same, payload⟩ := forms [0x55] [0xaa, 0xbb, 0xcc] (.longSingle 2) rfl heads
  obtain ⟨addresses, rest, h, here, written, taken, told⟩ := readings read same
  have header := told 0 fun ext => by
    have single : read.kind = h.kind := congrArg ControlReading.kind taken
    rw [← single] at ext
    rcases ext with ext | ext <;> cases ext
  have known : h = .longSingle 2 := (Option.some.inj header).symm
  have waits := (readControl_exact full 1).1 [0x55] [0xff] (.flowControl 2 8 0xf3) rfl
    ⟨by decide, by decide, by decide⟩
  have trailer := (readControl_exact acked 1).1 [0x55] [] (.acknowledgment 5 0 0x7f 4 10) rfl
    ⟨by decide, by decide, by decide⟩
  obtain ⟨forms', -, refused⟩ := readControl_exact other 1
  have none : ¬∃ (addresses rest : Bytes) (h : Header), addresses.length = 1 ∧ h.Heads other addresses rest := by
    rintro ⟨addresses, rest, h, here, heads⟩
    have failed : (other.readControl 1 Option.none).toBool = false := by decide
    rw [(forms' addresses rest h here heads).1] at failed
    cases failed
  refine ⟨same, payload, ⟨h, header, by rw [known]; decide⟩, waits.1, trailer.1, ?_⟩
  rcases refused none with ⟨b, found, -, unknown⟩ | ⟨known, -⟩
  · obtain rfl : 0x93 = b := Option.some.inj found
    exact unknown
  · exact absurd (known 0x93 rfl) (by decide)

end Frame

end IsoTransport
