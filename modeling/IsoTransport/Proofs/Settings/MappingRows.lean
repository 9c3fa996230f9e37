import IsoTransport.Proofs.Addressing

/-!
Which rows of masks make rules (`MappingRule.masks_exact`): those that are for one address or for two, and whose masks
keep to the identifier. A rule is written back as its row, and finds as many addresses as the row has masks for.
-/

namespace IsoTransport

theorem fits_iff {mask limit : UInt32} :
    mask &&& ~~~limit = 0 ↔ ∀ bit, mask.toNat.testBit bit = true → limit.toNat.testBit bit = true := by
  constructor
  · intro fits bit set
    have kept := congrArg UInt32.toNat (and_of_fits fits)
    rw [← kept, UInt32.toNat_and, Nat.testBit_and, Bool.and_eq_true] at set
    exact set.1
  · intro within
    apply UInt32.toBitVec_inj.mp
    apply BitVec.eq_of_getElem_eq
    intro bit inside
    have held := within bit
    rw [← UInt32.toNat_toBitVec, ← UInt32.toNat_toBitVec, BitVec.testBit_toNat, BitVec.testBit_toNat,
      BitVec.getLsbD_eq_getElem inside, BitVec.getLsbD_eq_getElem inside] at held
    simp only [UInt32.toBitVec_and, UInt32.toBitVec_not, BitVec.getElem_and, BitVec.getElem_not]
    cases one : mask.toBitVec[bit] <;> simp_all

/-- No mask has a bit that identifiers of the row do not have. -/
def MappingRow.Narrow (row : MappingRow) : Prop :=
  ∀ mask ∈ [row.sourceMask, row.targetMask, row.ecuMask], ∀ bit, mask.toNat.testBit bit = true →
    (if row.extended then 0x1fffffff else 0x7ff).testBit bit = true

theorem MappingRow.narrow_iff {row : MappingRow} :
    row.Narrow ↔
      ∀ mask ∈ [row.sourceMask, row.targetMask, row.ecuMask], mask &&& ~~~Can.idMask row.extended = 0 := by
  have limit : (Can.idMask row.extended).toNat = if row.extended then 0x1fffffff else 0x7ff := by
    cases row.extended <;> rfl
  simp only [Narrow, fits_iff, limit]

namespace MappingRule

variable {row : MappingRow} {r : MappingRule}

/-- The first rule that agrees with an identifier tells its addresses. -/
theorem locate_first {s : Settings} {frame : Frame} {before after : List MappingRule}
    (carried : frame.AddressedById s) (split : s.mappings = before ++ r :: after)
    (earlier : ∀ q ∈ before, q.matchesId frame.isExtended (frame.id &&& Can.idMask frame.isExtended) = false)
    (agrees : r.matchesId frame.isExtended (frame.id &&& Can.idMask frame.isExtended) = true) :
    (frame.locate s).addresses = r.addresses (frame.id &&& Can.idMask frame.isExtended) := by
  have found : s.mapping? frame.isExtended (frame.id &&& Can.idMask frame.isExtended) = some r := by
    refine List.find?_eq_some_iff_append.mpr ⟨agrees, before, after, split, fun q member => ?_⟩
    rw [earlier q member]
    rfl
  rw [Frame.locate, AddressingFormat.ofFrame_identifier_iff.mpr ⟨carried, rfl, rfl⟩, AddressingFormat.locate, found]
  rfl

/-- A row makes a rule exactly if it has the mask of an ECU or those of a source and a target, but not both, and no
mask reaches beyond the identifier. The rule is written back as that row. Where it is the first one that agrees with
the identifier of a frame, it finds one address for both ends, or two. -/
theorem masks_exact (row : MappingRow) :
    ((∃ r, ofRow row = .ok r) ↔ (row.HasOne ∨ row.HasTwo) ∧ row.Narrow) ∧
    ∀ r, ofRow row = .ok r → r.toRow = row ∧
      ∀ (s : Settings) (frame : Frame) (before after : List MappingRule),
        frame.AddressedById s → s.mappings = before ++ r :: after →
        let id := frame.id &&& Can.idMask frame.isExtended
        let agrees (q : MappingRule) := q.extended = frame.isExtended ∧ q.id &&& q.idMask = id &&& q.idMask
        (∀ q ∈ before, ¬agrees q) → agrees r →
        let found := (frame.locate s).addresses
        (row.HasOne → found.count = 1 ∧ found.source = found.target ∧
          found.source = extractBits id row.ecuMask) ∧
        (row.HasTwo → found.count = 2 ∧ found.source = extractBits id row.sourceMask ∧
          found.target = extractBits id row.targetMask) := by
  constructor
  · constructor
    · rintro ⟨r, accepted⟩
      obtain ⟨fits, masks, read, -⟩ := ofRow_iff.mp accepted
      exact ⟨(masksOf_iff.mp read).imp And.left And.left, MappingRow.narrow_iff.mpr fits⟩
    · rintro ⟨one | two, narrow⟩
      · have read := masksOf_iff.mpr (.inl ⟨one, rfl⟩)
        exact ⟨_, ofRow_iff.mpr ⟨MappingRow.narrow_iff.mp narrow, _, read, rfl⟩⟩
      · have read := masksOf_iff.mpr (.inr ⟨two, rfl⟩)
        exact ⟨_, ofRow_iff.mpr ⟨MappingRow.narrow_iff.mp narrow, _, read, rfl⟩⟩
  · intro r accepted
    refine ⟨toRow_of_ofRow accepted, ?_⟩
    intro s frame before after carried split id agrees earlier first found
    have told : found = r.addresses id := by
      apply locate_first carried split
      · intro q member
        simpa [matchesId, agrees] using earlier q member
      · simpa [matchesId, agrees] using first
    obtain ⟨-, masks, read, rfl⟩ := ofRow_iff.mp accepted
    constructor
    · intro one
      cases (masksOf_iff.mpr (.inl ⟨one, rfl⟩)).symm.trans read
      rw [told]
      exact ⟨rfl, rfl, rfl⟩
    · intro two
      cases (masksOf_iff.mpr (.inr ⟨two, rfl⟩)).symm.trans read
      rw [told]
      exact ⟨rfl, rfl, rfl⟩

/-- A rule for two addresses behind one of the other width and one that does not agree; the same masks are too wide for
a standard identifier. -/
theorem masks_exact_behind :
    let row : MappingRow :=
      { extended := true, id := 0x18da0000, idMask := 0x1fff0000, sourceMask := 0xff, targetMask := 0xff00 }
    let r : MappingRule := ⟨true, 0x18da0000, 0x1fff0000, .sourceTarget 0xff 0xff00⟩
    let standard : MappingRule := ⟨false, 0, 0, .ecu 0x0f⟩
    let other : MappingRule := ⟨true, 0x18db0000, 0x1fff0000, .ecu 0xff⟩
    let s : Settings := { mappings := [standard, other, r, ⟨true, 0, 0, .ecu 0xff⟩] }
    let frame := Frame.canExtended 0x18da10f1 [0x02, 0x3e, 0x00]
    let found := (frame.locate s).addresses
    ofRow row = .ok r ∧ r.toRow = row ∧ row.HasTwo ∧ row.Narrow ∧
      found.count = 2 ∧ found.source = 0xf1 ∧ found.target = 0x10 ∧
      ¬∃ r, ofRow { row with extended := false } = .ok r := by
  intro row r standard other s frame found
  have made : ofRow row = .ok r := by decide
  have two : row.HasTwo := by simp [MappingRow.HasTwo, row]
  obtain ⟨accepts, uses⟩ := masks_exact row
  obtain ⟨written, finds⟩ := uses r made
  have first : ∀ q ∈ [standard, other], ¬(q.extended = frame.isExtended ∧
      q.id &&& q.idMask = frame.id &&& Can.idMask frame.isExtended &&& q.idMask) := by decide
  obtain ⟨count, source, target⟩ :=
    (finds s frame [standard, other] _ ⟨.inl rfl, rfl⟩ rfl first (by decide)).2 two
  refine ⟨made, written, two, (accepts.mp ⟨r, made⟩).2, count, source.trans (by decide), target.trans (by decide), ?_⟩
  intro accepted
  have narrow := ((masks_exact { row with extended := false }).1.mp accepted).2
  exact absurd (narrow 0xff00 (by simp [row]) 15 (by decide)) (by decide)

end MappingRule

end IsoTransport
