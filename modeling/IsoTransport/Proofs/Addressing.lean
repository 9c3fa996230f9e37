import IsoTransport.Addressing
import IsoTransport.Proofs.Control.Forms
import IsoTransport.Proofs.Settings.Document
import Mathlib.NumberTheory.Padics.PadicVal.Basic

/-!
Where the addresses of a frame come from. Under settings read from a document, valid as a whole or not, an
address that is found is never the value shown for an unknown one (`Frame.locate_found`): it stands in the bytes
set apart for it, in bits of the identifier, or in the row of a PDU, and each of these bounds it.
-/

namespace IsoTransport

def Addresses.found : Addresses → List UInt32
  | unresolved => []
  | single a => [a]
  | pair s t => [s, t]

/-! ### Bits of an identifier -/

theorem trailingZeros_eq {limit n : Nat} (nonzero : n ≠ 0) (bounded : n < 2 ^ limit) :
    extractBits.trailingZeros limit n = padicValNat 2 n := by
  induction limit generalizing n with
  | zero => omega
  | succ limit ih =>
    unfold extractBits.trailingZeros
    split
    · rename_i odd
      rw [padicValNat.eq_zero_of_not_dvd (by omega)]
    · rename_i even
      have half : 2 ∣ n := by omega
      rw [ih (by omega) (by omega), padicValNat.div half]
      have := (dvd_iff_padicValNat_ne_zero nonzero).mp half
      omega

theorem padicValNat_lt {n : Nat} (nonzero : n ≠ 0) (bounded : n < 2 ^ 32) : padicValNat 2 n < 32 := by
  have least : 2 ^ padicValNat 2 n ≤ n := Nat.le_of_dvd (by omega) pow_padicValNat_dvd
  exact (Nat.pow_lt_pow_iff_right (a := 2) (by decide)).mp (by omega)

theorem pow_dvd_and {k m : Nat} (n : Nat) (zeros : 2 ^ k ∣ m) : 2 ^ k ∣ n &&& m := by
  rw [Nat.dvd_iff_mod_eq_zero, Nat.and_mod_two_pow, Nat.mod_eq_zero_of_dvd zeros, Nat.and_zero]

theorem extractBits_eq {mask : UInt32} (value : UInt32) (nonzero : mask ≠ 0) :
    extractBits value mask = (value &&& mask) >>> UInt32.ofNat (padicValNat 2 mask.toNat) := by
  have positive : mask.toNat ≠ 0 := fun h => nonzero (UInt32.toNat_inj.mp h)
  rw [extractBits, if_neg nonzero, trailingZeros_eq positive mask.toNat_lt]

theorem extractBits_shift_back {mask : UInt32} (value : UInt32) (nonzero : mask ≠ 0) :
    (extractBits value mask).toNat <<< padicValNat 2 mask.toNat = (value &&& mask).toNat := by
  have positive : mask.toNat ≠ 0 := fun h => nonzero (UInt32.toNat_inj.mp h)
  have short := padicValNat_lt positive mask.toNat_lt
  have whole : 2 ^ padicValNat 2 mask.toNat ∣ (value &&& mask).toNat := by
    rw [UInt32.toNat_and]
    exact pow_dvd_and _ pow_padicValNat_dvd
  rw [extractBits_eq value nonzero, UInt32.toNat_shiftRight, UInt32.toNat_ofNat',
    Nat.mod_eq_of_lt (by omega : padicValNat 2 mask.toNat < 2 ^ 32), Nat.mod_eq_of_lt short,
    Nat.shiftRight_eq_div_pow, Nat.shiftLeft_eq, Nat.div_mul_cancel whole]

theorem extractBits_le {mask : UInt32} (value : UInt32) (nonzero : mask ≠ 0) :
    extractBits value mask ≤ value &&& mask := by
  rw [UInt32.le_iff_toNat_le, ← extractBits_shift_back value nonzero, Nat.shiftLeft_eq]
  exact Nat.le_mul_of_pos_right _ (by positivity)

theorem and_of_fits {mask limit : UInt32} (fits : mask &&& ~~~limit = 0) : limit &&& mask = mask := by
  have words := congrArg UInt32.toBitVec fits
  apply UInt32.toBitVec_inj.mp
  apply BitVec.eq_of_getElem_eq
  intro i inside
  have bit := congrArg (·[i]) words
  simp only [UInt32.toBitVec_and, UInt32.toBitVec_not, BitVec.getElem_and, BitVec.getElem_not] at bit ⊢
  cases held : mask.toBitVec[i] <;> simp_all

/-! ### Rules that were made from rows -/

def AddressMasks.all : AddressMasks → List UInt32
  | ecu mask => [mask]
  | sourceTarget source target => [source, target]

namespace MappingRule

theorem found_addresses (r : MappingRule) (id : UInt32) :
    (r.addresses id).found = r.masks.all.map (extractBits id) := by
  unfold addresses
  cases r.masks <;> rfl

theorem masksOf_nonzero {row : MappingRow} {masks : AddressMasks} (read : masksOf row = .ok masks) :
    ∀ mask ∈ masks.all, mask ≠ 0 ∧ mask ∈ [row.sourceMask, row.targetMask, row.ecuMask] := by
  rcases masksOf_iff.mp read with ⟨⟨ecu, -⟩, rfl⟩ | ⟨⟨-, source, target⟩, rfl⟩
  · simp [AddressMasks.all, ecu]
  · simp [AddressMasks.all, source, target]

/-- The masks of a rule are not empty, and keep to the width of its identifiers. -/
theorem mask_of_ofRow {row : MappingRow} {r : MappingRule} (accepted : ofRow row = .ok r) :
    ∀ mask ∈ r.masks.all, mask ≠ 0 ∧ mask &&& ~~~Can.idMask r.extended = 0 := by
  obtain ⟨fits, masks, read, rfl⟩ := ofRow_iff.mp accepted
  intro mask member
  obtain ⟨nonzero, column⟩ := masksOf_nonzero read mask member
  exact ⟨nonzero, fits mask column⟩

end MappingRule

theorem AddressSource.Settable.known {a : UInt32} (settable : (fixed a).Settable) : a ≠ Addresses.unknown := by
  rintro rfl
  have absent := settable .ecu
  cases absent

/-! ### Where an address is found -/

/-- A CAN frame in front of whose control information no address stands. -/
def Frame.AddressedById (frame : Frame) (s : Settings) : Prop :=
  (frame.medium = .can ∨ frame.medium = .canFd) ∧ s.addressing = .normal

/-- Where an address was found, and what bounds it there. -/
inductive AddressOrigin (s : Settings) (frame : Frame) (a : UInt32) : Prop
  /-- In the bytes set apart in front of the control information. -/
  | bytes (start width : Nat) (piece : Bytes)
      (apart : ¬ frame.AddressedById s)
      (inside : start + width ≤ (frame.locate s).length)
      (read : frame.data.slice? start width = some piece)
      (value : a.toNat = piece.bigEndian)
      (small : a ≤ 0xffff)
  /-- In the bits under a mask of the first rule that matches the identifier. -/
  | bits (rule : MappingRule) (mask : UInt32)
      (carried : frame.AddressedById s)
      (found : s.mapping? frame.isExtended (frame.id &&& Can.idMask frame.isExtended) = some rule)
      (held : mask ∈ rule.masks.all)
      (value : a = (frame.id &&& mask) >>> UInt32.ofNat (padicValNat 2 mask.toNat))
      (back : a.toNat <<< padicValNat 2 mask.toNat = (frame.id &&& mask).toNat)
      (small : a ≤ if frame.isExtended then 0x1fffffff else 0x7ff)
  /-- In the row of the PDU. -/
  | row (rule : PduRule)
      (medium : frame.medium = .pduTransport)
      (found : s.pdu? frame.id = some rule)
      (given : .fixed a ∈ rule.layout.sources)
      (known : a ≠ Addresses.unknown)

theorem AddressOrigin.known {s : Settings} {frame : Frame} {a : UInt32} (origin : AddressOrigin s frame a) :
    a ≠ Addresses.unknown := by
  rintro rfl
  cases origin with
  | bytes _ _ _ _ _ _ _ small => exact absurd small (by decide)
  | bits _ _ _ _ _ _ _ small =>
    cases wide : frame.isExtended with
    | false => rw [wide] at small; exact absurd small (by decide)
    | true => rw [wide] at small; exact absurd small (by decide)
  | row _ _ _ _ known => exact known rfl

namespace Addresses

theorem mem_found_ofSingle? {x : Option UInt32} {a : UInt32} (member : a ∈ (ofSingle? x).found) :
    x = some a := by
  cases x <;> simp_all [ofSingle?, found]

theorem mem_found_ofPair? {x y : Option UInt32} {a : UInt32} (member : a ∈ (ofPair? x y).found) :
    x = some a ∨ y = some a := by
  cases x <;> cases y <;> simp_all [ofPair?, found, eq_comm]

end Addresses

/-! ### Formats -/

namespace AddressingFormat

variable {frame : Frame} {s : Settings}

theorem ofFrame_identifier_iff {wide : Bool} {id : UInt32} :
    ofFrame frame s = identifier wide id ↔
      frame.AddressedById s ∧ wide = frame.isExtended ∧ id = frame.id &&& Can.idMask frame.isExtended := by
  cases medium : frame.medium <;> cases addressing : s.addressing <;>
    grind [ofFrame, Frame.AddressedById]

theorem width_of_ofFrame {width : Nat} (format : ofFrame frame s = sourceTarget width) : width ≤ 2 := by
  have narrow (w : AddressWidth) : w.bytes ≤ 2 := by cases w <;> decide
  cases medium : frame.medium <;> grind [ofFrame]

theorem pdu_of_ofFrame {layout : AddressLayout} (format : ofFrame frame s = pdu layout) :
    frame.medium = .pduTransport ∧
      layout = ((s.pdu? frame.id).map (·.layout)).getD .unaddressed := by
  cases medium : frame.medium <;> grind [ofFrame]

end AddressingFormat

/-! ### Locations -/

namespace Frame

variable {s : Settings} {frame : Frame} {a : UInt32}

theorem origin_of_addressAt? {start width : Nat} (apart : ¬ frame.AddressedById s) (narrow : width ≤ 2)
    (inside : start + width ≤ (frame.locate s).length) (read : addressAt? frame.data start width = some a) :
    AddressOrigin s frame a := by
  obtain ⟨piece, sliced, rfl⟩ := Option.map_eq_some_iff.mp read
  have bound := Bytes.bigEndian_lt piece
  rw [Bytes.length_of_slice? sliced] at bound
  have short : 256 ^ width ≤ 256 ^ 2 := Nat.pow_le_pow_right (by decide) narrow
  have word : piece.bigEndian < UInt32.size := by
    show piece.bigEndian < 4294967296
    omega
  have value : (UInt32.ofNat piece.bigEndian).toNat = piece.bigEndian := UInt32.toNat_ofNat_of_lt' word
  have small : UInt32.ofNat piece.bigEndian ≤ 0xffff := by
    rw [UInt32.le_iff_toNat_le, value]
    show piece.bigEndian ≤ 65535
    omega
  exact .bytes start width piece apart inside sliced value small

theorem origin_of_read? {rule : PduRule} {source : AddressSource} {start : Nat}
    (medium : frame.medium = .pduTransport)
    (found : s.pdu? frame.id = some rule) (given : source ∈ rule.layout.sources) (settable : source.Settable)
    (inside : start + source.width ≤ (frame.locate s).length) (read : source.read? frame.data start = some a) :
    AddressOrigin s frame a := by
  cases source with
  | encoded w =>
    have apart : ¬ frame.AddressedById s := by simp [AddressedById, medium]
    have narrow : w.bytes ≤ 2 := by cases w <;> decide
    exact origin_of_addressAt? apart narrow inside read
  | fixed value =>
    cases read
    exact .row rule medium found given settable.known

theorem origin_of_mapping? (kept : s.Kept) {rule : MappingRule} (carried : frame.AddressedById s)
    (found : s.mapping? frame.isExtended (frame.id &&& Can.idMask frame.isExtended) = some rule)
    (member : a ∈ (rule.addresses (frame.id &&& Can.idMask frame.isExtended)).found) :
    AddressOrigin s frame a := by
  have matched := List.find?_some found
  have wide : rule.extended = frame.isExtended := by
    simp only [MappingRule.matchesId, Bool.and_eq_true, decide_eq_true_eq] at matched
    exact matched.1
  rw [rule.found_addresses, List.mem_map] at member
  obtain ⟨mask, held, rfl⟩ := member
  have made := kept.mappings rule (List.mem_of_find?_eq_some found)
  obtain ⟨nonzero, fits⟩ := MappingRule.mask_of_ofRow made mask held
  rw [wide] at fits
  -- the mask stays within the width, so that cutting the identifier to it changes none of these bits
  have cut : frame.id &&& Can.idMask frame.isExtended &&& mask = frame.id &&& mask := by
    rw [UInt32.and_assoc, and_of_fits fits]
  refine .bits rule mask carried found held ?_ ?_ ?_
  · rw [extractBits_eq _ nonzero, cut]
  · rw [extractBits_shift_back _ nonzero, cut]
  · calc extractBits (frame.id &&& Can.idMask frame.isExtended) mask
        ≤ frame.id &&& Can.idMask frame.isExtended &&& mask := extractBits_le _ nonzero
      _ ≤ frame.id &&& Can.idMask frame.isExtended := UInt32.and_le_left
      _ ≤ Can.idMask frame.isExtended := UInt32.and_le_right

theorem origin_of_layout (kept : s.Kept) {layout : AddressLayout}
    (format : AddressingFormat.ofFrame frame s = .pdu layout)
    (member : a ∈ (layout.locate frame.data).addresses.found) : AddressOrigin s frame a := by
  obtain ⟨medium, ruled⟩ := AddressingFormat.pdu_of_ofFrame format
  have located : frame.locate s = layout.locate frame.data := by rw [locate, format]; rfl
  cases found : s.pdu? frame.id with
  | none =>
    rw [found] at ruled
    subst ruled
    cases member
  | some rule =>
    rw [found] at ruled
    obtain rfl : layout = rule.layout := ruled
    have settable := PduRule.settable_of_ofRow (kept.pdus rule (List.mem_of_find?_eq_some found))
    have origin {source : AddressSource} {start : Nat} (given : source ∈ rule.layout.sources) :
        start + source.width ≤ (frame.locate s).length → source.read? frame.data start = some a →
          AddressOrigin s frame a :=
      origin_of_read? medium found given (settable source given)
    rw [located] at origin
    cases layout : rule.layout with
    | unaddressed =>
      rw [layout] at member
      cases member
    | single e =>
      rw [layout] at member origin
      exact origin (List.mem_singleton_self e) (Nat.le_of_eq (Nat.zero_add _)) (Addresses.mem_found_ofSingle? member)
    | pair x y =>
      rw [layout] at member origin
      rcases Addresses.mem_found_ofPair? member with read | read
      · exact origin List.mem_cons_self (by simp [AddressLayout.locate]) read
      · exact origin (by simp [AddressLayout.sources]) (by simp [AddressLayout.locate]) read

theorem origin_of_found (kept : s.Kept) (member : a ∈ (frame.locate s).addresses.found) :
    AddressOrigin s frame a := by
  have located : frame.locate s = (AddressingFormat.ofFrame frame s).locate frame.data s := rfl
  have apart (other : ∀ wide id, AddressingFormat.ofFrame frame s ≠ .identifier wide id) :
      ¬ frame.AddressedById s :=
    fun carried => other _ _ (AddressingFormat.ofFrame_identifier_iff.mpr ⟨carried, rfl, rfl⟩)
  cases format : AddressingFormat.ofFrame frame s with
  | normal =>
    rw [located, format] at member
    cases member
  | extended =>
    have length : (frame.locate s).length = 1 := by rw [located, format]; rfl
    rw [located, format] at member
    exact origin_of_addressAt? (apart (by simp [format])) (by decide) length.ge (Addresses.mem_found_ofSingle? member)
  | identifier wide id =>
    obtain ⟨carried, rfl, rfl⟩ := AddressingFormat.ofFrame_identifier_iff.mp format
    rw [located, format, AddressingFormat.locate] at member
    cases found : s.mapping? frame.isExtended (frame.id &&& Can.idMask frame.isExtended) with
    | none =>
      rw [found] at member
      cases member
    | some rule =>
      rw [found] at member
      exact origin_of_mapping? kept carried found member
  | sourceTarget width =>
    have narrow := AddressingFormat.width_of_ofFrame format
    have length : (frame.locate s).length = 2 * width := by rw [located, format]; rfl
    rw [located, format] at member
    rcases Addresses.mem_found_ofPair? member with read | read
    · exact origin_of_addressAt? (apart (by simp [format])) narrow (by omega) read
    · exact origin_of_addressAt? (apart (by simp [format])) narrow (by omega) read
  | pdu layout =>
    rw [located, format] at member
    exact origin_of_layout kept format member

/-- An address that is found is never the value shown for an unknown one. One address stands for both ends; where
none is found, both ends are unknown. -/
theorem locate_found {text : String} (read : Settings.parse text = .ok s) (frame : Frame) :
    let addresses := (frame.locate s).addresses
    (addresses.count = 0 ∨ addresses.count = 1 ∨ addresses.count = 2) ∧
      (addresses.count = 0 → addresses.source = 0xffffffff ∧ addresses.target = 0xffffffff) ∧
      (addresses.count = 1 → addresses.source = addresses.target) ∧
      (0 < addresses.count → ∀ a ∈ [addresses.source, addresses.target],
        a ≠ 0xffffffff ∧ AddressOrigin s frame a) := by
  intro addresses
  have origin : ∀ a ∈ addresses.found, a ≠ Addresses.unknown ∧ AddressOrigin s frame a := by
    intro a member
    have known := origin_of_found (Settings.kept_of_parse read) member
    exact ⟨known.known, known⟩
  cases form : addresses with
  | unresolved =>
    exact ⟨.inl rfl, fun _ => ⟨rfl, rfl⟩, fun one => absurd one Nat.zero_ne_one,
      fun some => absurd some (Nat.lt_irrefl 0)⟩
  | single x =>
    rw [form] at origin
    refine ⟨.inr (.inl rfl), fun none => absurd none Nat.one_ne_zero, fun _ => rfl, fun _ a member => ?_⟩
    rcases List.mem_pair.mp member with rfl | rfl
    · exact origin a (List.mem_singleton_self a)
    · exact origin a (List.mem_singleton_self a)
  | pair x y =>
    rw [form] at origin
    exact ⟨.inr (.inr rfl), fun none => absurd none (Nat.succ_ne_zero 1),
      fun one => absurd one (Nat.succ_ne_self 1), fun _ => origin⟩

/-- Two bytes of an identifier, under settings that are not valid as a whole. -/
theorem locate_found_diagnostic :
    let text := "\x7b\"flexray_addressing\": 0, \"can_id_mappings\": [\x7b\"extended_address\": true,
      \"can_id\": 416940032, \"can_id_mask\": 536805376, \"source_addr_mask\": 255,
      \"target_addr_mask\": 65280\x7d]\x7d"
    let s : Settings := {
      flexRayWidth := .zero
      mappings := [⟨true, 0x18da0000, 0x1fff0000, .sourceTarget 0xff 0xff00⟩] }
    let frame := canExtended 0x18da10f1 [0x02, 0x3e, 0x00]
    Settings.parse text = .ok s ∧ (frame.locate s).addresses = .pair 0xf1 0x10 ∧
      ∀ a ∈ [0xf1, 0x10], a ≠ 0xffffffff ∧ AddressOrigin s frame a := by
  intro text s frame
  have read : Settings.parse text = .ok s := by decide +kernel
  have pair : (frame.locate s).addresses = .pair 0xf1 0x10 := by decide +kernel
  have found := (locate_found read frame).2.2.2
  rw [pair] at found
  exact ⟨read, pair, found (by decide)⟩

end Frame

end IsoTransport
