import Mathlib
import IsoTransport.Control.Header
import IsoTransport.Control.Read
import IsoTransport.Proofs.Results

/-!
Written control information is read back. A first or consecutive frame in one of its forms is taken for what
the form means, and its payload starts right behind it (`readControl_segment`).
-/

namespace IsoTransport

namespace Bytes

theorem length_ofNat (width n : Nat) : (ofNat width n).length = width := by
  induction width generalizing n with
  | zero => rfl
  | succ width ih => rw [ofNat, List.length_append, ih, List.length_singleton]

theorem bigEndian_concat (bytes : Bytes) (b : UInt8) :
    bigEndian (bytes ++ [b]) = 256 * bigEndian bytes + b.toNat := by
  simp [bigEndian]

theorem bigEndian_ofNat (width n : Nat) : bigEndian (ofNat width n) = n % 256 ^ width := by
  induction width generalizing n with
  | zero => rw [Nat.pow_zero, Nat.mod_one, ofNat, bigEndian, List.foldl_nil]
  | succ width ih =>
    have digit : (UInt8.ofNat (n % 256)).toNat = n % 256 := by simp
    rw [ofNat, bigEndian_concat, ih, digit, Nat.pow_succ', Nat.mod_mul]
    omega

theorem bigEndian_lt (bytes : Bytes) : bytes.bigEndian < 256 ^ bytes.length := by
  induction bytes using List.reverseRecOn with
  | nil => exact Nat.one_pos
  | append_singleton bytes b ih =>
    have digit := b.toNat_lt
    rw [bigEndian_concat, List.length_append, List.length_singleton, Nat.pow_succ']
    omega

theorem ofNat_bigEndian (bytes : Bytes) : ofNat bytes.length bytes.bigEndian = bytes := by
  induction bytes using List.reverseRecOn with
  | nil => rfl
  | append_singleton bytes b ih =>
    have digit := b.toNat_lt
    have high : (256 * bigEndian bytes + b.toNat) / 256 = bigEndian bytes := by omega
    have low : (256 * bigEndian bytes + b.toNat) % 256 = b.toNat := by omega
    rw [bigEndian_concat, List.length_append, List.length_singleton, ofNat, high, low, ih, UInt8.ofNat_toNat]

end Bytes

theorem byteAt_form {data addresses form rest : Bytes} {b : UInt8} {i : Nat}
    (written : data = addresses ++ form ++ rest) (found : form[i]? = some b) (field : HeaderField) :
    byteAt data (addresses.length + i) field = .ok b := by
  obtain ⟨bound, -⟩ := List.getElem?_eq_some_iff.mp found
  have here : data[addresses.length + i]? = some b := by
    rw [written, List.append_assoc, List.getElem?_append_right (Nat.le_add_right _ _), Nat.add_sub_cancel_left,
      List.getElem?_append_left bound, found]
  rw [byteAt, here]

theorem byteAt_kind {data addresses rest : Bytes} {h : Header} {low : Nat} {tail : Bytes}
    (written : data = addresses ++ h.bytes ++ rest)
    (form : h.bytes = Header.nibbles h.kind.code.toNat low :: tail) :
    byteAt data addresses.length .control = .ok (Header.nibbles h.kind.code.toNat low) :=
  byteAt_form (i := 0) written (by rw [form]; rfl) .control

theorem numberAt_append {before number rest : Bytes} {start width : Nat} (field : HeaderField)
    (here : before.length = start) (wide : number.length = width) :
    numberAt (before ++ number ++ rest) start width field = .ok number.bigEndian := by
  subst here wide
  have room : before.length + number.length ≤ (before ++ number ++ rest).length := by simp
  rw [numberAt, Bytes.slice?, if_pos room]
  simp

theorem numberAt_word {before rest : Bytes} {start : Nat} (field : HeaderField)
    (here : before.length = start) (n : UInt32) :
    numberAt (before ++ Bytes.ofNat 4 n.toNat ++ rest) start 4 field = .ok n.toNat := by
  have value : (Bytes.ofNat 4 n.toNat).bigEndian = n.toNat := by
    rw [Bytes.bigEndian_ofNat]
    exact Nat.mod_eq_of_lt n.toNat_lt
  rw [numberAt_append field here (Bytes.length_ofNat 4 n.toNat), value]

namespace Header

instance (reported : Nat) : DecidablePred (Header.Canonical reported)
  | single n => inferInstanceAs (Decidable (n < 16 ∧ (n = 0 → reported ≤ 8)))
  | longSingle _ => inferInstanceAs (Decidable (8 < reported))
  | first n => inferInstanceAs (Decidable (0 < n ∧ n < 4096))
  | singleExt x _ | firstExt x _ => inferInstanceAs (Decidable (x < 16))
  | longFirst _ => inferInstanceAs (Decidable True)
  | consecutive n | consecutive2 n => inferInstanceAs (Decidable (n < 16))
  | flowControl s _ _ => inferInstanceAs (Decidable (s < 16))
  | acknowledgment s _ _ c q => inferInstanceAs (Decidable (s < 16 ∧ c < 16 ∧ q < 16))

theorem nibbles_mod (high low : Nat) : nibbles high low = nibbles high (low % 16) := by
  simp [nibbles]

theorem ofByte_nibbles (kind : FrameKind) (low : Nat) :
    FrameKind.ofByte (nibbles kind.code.toNat low) = .ok kind := by
  have all : ∀ x < 16, FrameKind.ofByte (nibbles kind.code.toNat x) = .ok kind := by
    cases kind <;> decide
  rw [nibbles_mod]
  exact all _ (Nat.mod_lt _ (by decide))

theorem lowNibble_nibbles (kind : FrameKind) (low : Nat) :
    lowNibble (nibbles kind.code.toNat low) = UInt8.ofNat (low % 16) := by
  have all : ∀ x < 16, lowNibble (nibbles kind.code.toNat x) = UInt8.ofNat x := by
    cases kind <;> decide
  rw [nibbles_mod]
  exact all _ (Nat.mod_lt _ (by decide))

end Header

theorem toNat_lowNibble (b : UInt8) : (lowNibble b).toNat = b.toNat % 16 := by
  rw [lowNibble, UInt8.toNat_and]
  exact Nat.and_two_pow_sub_one_eq_mod b.toNat 4

theorem toNat_highNibble (b : UInt8) : (b >>> 4).toNat = b.toNat / 16 := by
  rw [UInt8.toNat_shiftRight]
  exact Nat.shiftRight_eq_div_pow b.toNat 4

theorem lowNibble_lt (b : UInt8) : lowNibble b < 16 := by
  rw [UInt8.lt_iff_toNat_lt, toNat_lowNibble]
  exact Nat.mod_lt _ (by decide)

namespace Frame

theorem firstLength_first (addresses rest : Bytes) {n : Nat} (small : 0 < n ∧ n < 4096) :
    firstLength (addresses ++ (Header.first n).bytes ++ rest) addresses.length =
      .ok (n, addresses.length + 2) := by
  have high : (Header.nibbles 1 (n / 256)).toNat = 16 + n / 256 := by
    rw [Header.nibbles, UInt8.toNat_ofNat']
    omega
  have low : (UInt8.ofNat (n % 256)).toNat = n % 256 := by simp
  have word : (Header.first n).bytes.bigEndian = 0x1000 + n := by
    simp only [Header.bytes, Bytes.bigEndian, List.foldl_cons, List.foldl_nil, high, low]
    omega
  have read : numberAt (addresses ++ (Header.first n).bytes ++ rest) addresses.length 2 .firstLength =
      .ok (0x1000 + n) := by
    rw [← word]
    exact numberAt_append .firstLength rfl rfl
  have short : ¬0x1000 + n = 0x1000 := by omega
  have cut : (0x1000 + n) % 0x1000 = n := by omega
  simp only [firstLength, read, bind, Except.bind, pure, Except.pure, if_neg short, cut]

theorem firstLength_longFirst (addresses rest : Bytes) (n : UInt32) :
    firstLength (addresses ++ (Header.longFirst n).bytes ++ rest) addresses.length =
      .ok (n.toNat, addresses.length + 6) := by
  have escape : numberAt (addresses ++ (Header.longFirst n).bytes ++ rest) addresses.length 2
      .firstLength = .ok 0x1000 := by
    have split : addresses ++ (Header.longFirst n).bytes ++ rest =
        addresses ++ [Header.nibbles 1 0, 0] ++ (Bytes.ofNat 4 n.toNat ++ rest) := by
      simp [Header.bytes]
    rw [split]
    exact numberAt_append .firstLength rfl rfl
  have length : numberAt (addresses ++ (Header.longFirst n).bytes ++ rest) (addresses.length + 2) 4
      .escapedLength = .ok n.toNat := by
    have split : addresses ++ (Header.longFirst n).bytes ++ rest =
        addresses ++ [Header.nibbles 1 0, 0] ++ Bytes.ofNat 4 n.toNat ++ rest := by
      simp [Header.bytes]
    rw [split]
    exact numberAt_word .escapedLength (List.length_append ..) n
  simp only [firstLength, escape, length, bind, Except.bind, pure, Except.pure, if_true]

/-! ### Whole frames -/

variable {frame : Frame} {addresses rest : Bytes} {h : Header}

/-- A first or consecutive frame is taken for what its form means, and all behind the form is its payload,
up to the limit. -/
theorem readControl_segment (canonical : h.Canonical frame.reportedLen) (segmented : h.kind.isSegmented)
    (written : frame.data = addresses ++ h.bytes ++ rest) (limit : Option Nat) :
    frame.readControl addresses.length limit =
      .ok { kind := h.kind
            control := h.control
            offset := addresses.length + h.bytes.length
            length := segmentLength frame.data addresses.length (addresses.length + h.bytes.length)
              limit } := by
  rw [readControl]
  cases h with
  | single | longSingle | singleExt | flowControl | acknowledgment => cases segmented
  | first n =>
    have length := firstLength_first addresses rest canonical
    rw [← written] at length
    simp only [byteAt_kind written rfl, Header.ofByte_nibbles, length, bind, Except.bind, pure, Except.pure,
      Header.kind]
    rfl
  | longFirst n =>
    have length := firstLength_longFirst addresses rest n
    have size : (Header.longFirst n).bytes.length = 6 := by simp [Header.bytes, Bytes.length_ofNat]
    rw [← written] at length
    simp only [byteAt_kind written rfl, Header.ofByte_nibbles, length, bind, Except.bind, pure, Except.pure,
      Header.kind, size]
    rfl
  | firstExt unused n =>
    have split : frame.data =
        addresses ++ [Header.nibbles 5 unused] ++ Bytes.ofNat 4 n.toNat ++ rest := by
      simp [written, Header.bytes]
    have length : numberAt frame.data (addresses.length + 1) 4 .firstLength = .ok n.toNat := by
      rw [split]
      exact numberAt_word .firstLength (List.length_append ..) n
    have size : (Header.firstExt unused n).bytes.length = 5 := by simp [Header.bytes, Bytes.length_ofNat]
    simp only [byteAt_kind written rfl, Header.ofByte_nibbles, length, bind, Except.bind, pure, Except.pure,
      Header.kind, size]
    rfl
  | consecutive n | consecutive2 n =>
    have number : UInt8.ofNat (n % 16) = UInt8.ofNat n := by rw [Nat.mod_eq_of_lt canonical]
    simp only [byteAt_kind written rfl, Header.ofByte_nibbles, Header.lowNibble_nibbles, bind, Except.bind, pure,
      Except.pure, Header.kind, number]
    rfl

end Frame

end IsoTransport
