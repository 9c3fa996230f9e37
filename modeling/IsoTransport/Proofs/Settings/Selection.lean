import Mathlib.Data.List.Nodup
import IsoTransport.Proofs.Addressing
import IsoTransport.Session.Basic

/-!
Valid settings select a frame by what its addresses are found from (`selects_consistent`). The identifier of a
CAN frame is looked up among the mapping rules as it was selected, and a PDU has one row; neither hangs on the
order in which rows and identifiers are listed.
-/

namespace IsoTransport

instance lawfulOrderSup_uint32 : Std.LawfulOrderSup UInt32 where
  max_le_iff a b c := by
    show (if a ≤ b then b else a) ≤ c ↔ a ≤ c ∧ b ≤ c
    grind

theorem Can.and_idMask {id : UInt32} {extended : Bool} (narrow : id ≤ idMask extended) :
    id &&& idMask extended = id := by
  obtain ⟨width, mask⟩ : ∃ width, (idMask extended).toNat = 2 ^ width - 1 := by
    cases extended with
    | false => exact ⟨11, rfl⟩
    | true => exact ⟨29, rfl⟩
  have below := UInt32.le_iff_toNat_le.mp narrow
  rw [mask] at below
  apply UInt32.toNat_inj.mp
  rw [UInt32.toNat_and, mask, Nat.and_two_pow_sub_one_eq_mod]
  exact Nat.mod_eq_of_lt (Nat.lt_of_le_pred (Nat.two_pow_pos width) below)

theorem IdSet.le_of_contains {ids : IdSet} {id limit : UInt32} (kept : ∀ r ∈ ids.ranges, r.last ≤ limit)
    (listed : ids.contains id = true) : id ≤ limit := by
  obtain ⟨r, member, inside⟩ := List.any_eq_true.mp listed
  simp only [IdRange.contains, Bool.and_eq_true, decide_eq_true_eq] at inside
  exact UInt32.le_trans inside.2 (kept r member)

theorem IdSet.contains_perm {ids other : IdSet} (same : other.ranges.Perm ids.ranges) (id : UInt32) :
    other.contains id = ids.contains id :=
  same.any_eq

namespace Settings

variable {s t : Settings} {frame : Frame}

/-! ### Valid settings -/

theorem checkIds_iff {ids : IdSet} {limit : UInt32} {fault : UInt32 → SettingFault} :
    checkIds ids limit fault = .ok () ↔ ∀ r ∈ ids.ranges, r.last ≤ limit := by
  unfold checkIds IdSet.max?
  cases highest : (ids.ranges.map (·.last)).max? with
  | none =>
    rw [List.max?_eq_none_iff, List.map_eq_nil_iff] at highest
    simp [highest]
  | some id =>
    have below := List.max?_le_iff highest (x := limit)
    rw [List.forall_mem_map] at below
    rw [← below, ← UInt32.not_lt]
    dsimp only
    split <;> simp_all

theorem checkPdus_iff {row : Nat} {seen : List UInt32} {rules : List PduRule} :
    checkPdus row seen rules = .ok () ↔ (rules.map (·.pdu)).Nodup ∧ ∀ r ∈ rules, r.pdu ∉ seen := by
  induction rules generalizing row seen with
  | nil => simp [checkPdus]
  | cons r rules ih =>
    rw [checkPdus, List.map_cons, List.nodup_cons, List.forall_mem_cons]
    split
    · simp_all
    · rename_i fresh
      rw [ih]
      simp only [List.mem_cons, not_or, List.mem_map, not_exists, not_and]
      constructor
      · rintro ⟨distinct, apart⟩
        exact ⟨⟨fun x member => (apart x member).1, distinct⟩, fresh, fun x member => (apart x member).2⟩
      · rintro ⟨⟨other, distinct⟩, -, apart⟩
        exact ⟨distinct, fun x member => ⟨other x member, apart x member⟩⟩

/-- What the checks of settings as a whole come to. -/
structure Valid (s : Settings) : Prop where
  canIds : ∀ r ∈ s.canIds.ranges, r.last ≤ Can.idMask false
  canExtendedIds : ∀ r ∈ s.canExtendedIds.ranges, r.last ≤ Can.idMask true
  flexRayWidth : s.flexRayWidth ≠ .zero
  pdus : (s.pdus.map (·.pdu)).Nodup

theorem validate_iff : s.validate = .ok () ↔ s.Valid := by
  unfold validate
  constructor
  · intro passed
    obtain ⟨_, standard, passed⟩ := ok_of_bind passed
    obtain ⟨_, extended, passed⟩ := ok_of_bind passed
    split at passed
    · cases passed
    · rename_i wide
      exact ⟨checkIds_iff.mp standard, checkIds_iff.mp extended, wide, (checkPdus_iff.mp passed).1⟩
  · intro valid
    rw [checkIds_iff.mpr valid.canIds, checkIds_iff.mpr valid.canExtendedIds]
    have rows : checkPdus 0 [] s.pdus = .ok () := checkPdus_iff.mpr ⟨valid.pdus, by simp⟩
    simp [bind, Except.bind, valid.flexRayWidth, rows]

/-! ### Rows -/

theorem pdu?_eq_head? (s : Settings) (pdu : UInt32) : s.pdu? pdu = (s.pdus.filter (·.pdu = pdu)).head? :=
  List.head?_filter.symm

theorem Valid.rows_le (valid : s.Valid) (pdu : UInt32) : (s.pdus.filter (·.pdu = pdu)).length ≤ 1 := by
  have once := List.nodup_iff_count_le_one.mp valid.pdus pdu
  rw [List.count_eq_countP, List.countP_map, List.countP_eq_length_filter] at once
  exact once

theorem Valid.rows_of_pdu? (valid : s.Valid) {pdu : UInt32} {rule : PduRule} (found : s.pdu? pdu = some rule) :
    s.pdus.filter (·.pdu = pdu) = [rule] := by
  have few := valid.rows_le pdu
  rw [pdu?_eq_head?] at found
  obtain ⟨rest, rows⟩ := List.head?_eq_some_iff.mp found
  rw [rows, List.length_cons] at few
  rw [rows, List.eq_nil_of_length_eq_zero (by omega : rest.length = 0)]

/-! ### Settings in another order -/

/-- The same settings, but for the order of the PDU rows and of the ranges in a set of identifiers. -/
structure Reordered (s t : Settings) : Prop where
  canIds : t.canIds.ranges.Perm s.canIds.ranges
  canExtendedIds : t.canExtendedIds.ranges.Perm s.canExtendedIds.ranges
  iPduMIds : t.iPduMIds.ranges.Perm s.iPduMIds.ranges
  pdus : t.pdus.Perm s.pdus
  rest : t = { s with canIds := t.canIds, canExtendedIds := t.canExtendedIds, iPduMIds := t.iPduMIds, pdus := t.pdus }

namespace Reordered

theorem valid (reordered : s.Reordered t) (valid : s.Valid) : t.Valid where
  canIds r member := valid.canIds r (reordered.canIds.mem_iff.mp member)
  canExtendedIds r member := valid.canExtendedIds r (reordered.canExtendedIds.mem_iff.mp member)
  flexRayWidth := by
    rw [reordered.rest]
    exact valid.flexRayWidth
  pdus := (reordered.pdus.map _).nodup_iff.mpr valid.pdus

/-- With one row for a PDU at most, the first one that is found is the same in any order. -/
theorem pdu? (reordered : s.Reordered t) (valid : s.Valid) (pdu : UInt32) : t.pdu? pdu = s.pdu? pdu := by
  have few := valid.rows_le pdu
  have same := reordered.pdus.filter (·.pdu = pdu)
  rw [pdu?_eq_head?, pdu?_eq_head?]
  cases rows : s.pdus.filter (·.pdu = pdu) with
  | nil =>
    rw [rows] at same
    rw [same.eq_nil]
  | cons rule rest =>
    rw [rows, List.length_cons] at few
    obtain rfl := List.eq_nil_of_length_eq_zero (by omega : rest.length = 0)
    rw [rows] at same
    rw [List.perm_singleton.mp same]

theorem selects (reordered : s.Reordered t) (valid : s.Valid) (frame : Frame) :
    t.selects frame = s.selects frame := by
  have diagnostics : t.linDiagnostics = s.linDiagnostics := by rw [reordered.rest]
  unfold Settings.selects
  rw [IdSet.contains_perm reordered.iPduMIds, reordered.pdu? valid, diagnostics]
  cases frame.isExtended
  · simp only [Bool.false_eq_true, if_false, IdSet.contains_perm reordered.canIds]
  · simp only [if_true, IdSet.contains_perm reordered.canExtendedIds]

theorem locate (reordered : s.Reordered t) (valid : s.Valid) (frame : Frame) :
    frame.locate t = frame.locate s := by
  have format : AddressingFormat.ofFrame frame t = AddressingFormat.ofFrame frame s := by
    unfold AddressingFormat.ofFrame
    rw [reordered.pdu? valid, reordered.rest]
  have mapping : t.mapping? = s.mapping? := by
    funext wide id
    rw [mapping?, reordered.rest]
    rfl
  rw [Frame.locate, Frame.locate, format]
  unfold AddressingFormat.locate
  rw [mapping]

end Reordered

/-! ### Selected frames -/

theorem can_of_selects (valid : s.Valid) (medium : frame.medium = .can ∨ frame.medium = .canFd)
    (selected : s.selects frame = true) :
    frame.isData = true ∧ frame.id ≤ Can.idMask frame.isExtended ∧
      (if frame.isExtended then s.canExtendedIds else s.canIds).contains frame.id = true := by
  have listed : (frame.isData && (if frame.isExtended then s.canExtendedIds else s.canIds).contains frame.id) =
      true := by
    rcases medium with medium | medium <;>
    · unfold selects at selected
      rw [medium] at selected
      exact selected
  obtain ⟨data, listed⟩ := Bool.and_eq_true_iff.mp listed
  refine ⟨data, ?_, listed⟩
  cases wide : frame.isExtended with
  | false =>
    rw [wide] at listed
    exact IdSet.le_of_contains valid.canIds listed
  | true =>
    rw [wide] at listed
    exact IdSet.le_of_contains valid.canExtendedIds listed

theorem pdu_of_selects (medium : frame.medium = .pduTransport) (selected : s.selects frame = true) :
    ∃ rule, s.pdu? frame.id = some rule := by
  unfold selects at selected
  rw [medium] at selected
  exact Option.isSome_iff_exists.mp selected

/-- Of the frames that valid settings select, a CAN frame carries data and an identifier within its width, and it
is this identifier that is looked up among the mapping rules; a frame of a PDU has exactly one row, from which its
addresses are found. The order of the rows and of the ranges of identifiers changes none of this. -/
theorem selects_consistent (s : Settings) (valid : s.validate = .ok ()) :
    (∀ frame : Frame, frame.medium = .can ∨ frame.medium = .canFd → s.selects frame = true →
      frame.flags.remote = false ∧ frame.flags.error = false ∧
        frame.id ≤ (if frame.flags.extended then 0x1fffffff else 0x7ff) ∧
        (if frame.flags.extended then s.canExtendedIds else s.canIds).contains frame.id = true ∧
        (s.addressing = .normal →
          AddressingFormat.ofFrame frame s = .identifier frame.flags.extended frame.id ∧
            frame.locate s =
              ⟨((s.mapping? frame.flags.extended frame.id).map (·.addresses frame.id)).getD .unresolved, 0⟩)) ∧
    (∀ frame : Frame, frame.medium = .pduTransport → s.selects frame = true →
      ∃ rule, s.pdus.filter (·.pdu = frame.id) = [rule] ∧ frame.locate s = rule.layout.locate frame.data) ∧
    ∀ t, s.Reordered t → t.validate = .ok () ∧
      ∀ frame : Frame, t.selects frame = s.selects frame ∧ frame.locate t = frame.locate s := by
  have valid := validate_iff.mp valid
  refine ⟨fun frame medium selected => ?_, fun frame medium selected => ?_, fun t reordered => ?_⟩
  · obtain ⟨data, narrow, listed⟩ := can_of_selects valid medium selected
    simp only [Frame.isData, Can.Flags.isData, Bool.and_eq_true, Bool.not_eq_true'] at data
    refine ⟨data.1, data.2, narrow, listed, fun normal => ?_⟩
    have format : AddressingFormat.ofFrame frame s = .identifier frame.flags.extended frame.id :=
      AddressingFormat.ofFrame_identifier_iff.mpr ⟨⟨medium, normal⟩, rfl, (Can.and_idMask narrow).symm⟩
    refine ⟨format, ?_⟩
    rw [Frame.locate, format]
    rfl
  · obtain ⟨rule, found⟩ := pdu_of_selects medium selected
    refine ⟨rule, valid.rows_of_pdu? found, ?_⟩
    have format : AddressingFormat.ofFrame frame s = .pdu rule.layout := by
      rw [AddressingFormat.ofFrame, medium]
      dsimp only
      rw [found]
      rfl
    rw [Frame.locate, format]
    rfl
  · exact ⟨validate_iff.mpr (reordered.valid valid), fun frame =>
      ⟨reordered.selects valid frame, reordered.locate valid frame⟩⟩

/-- A CAN frame and a PDU that are selected, the same settings in another order, and a frame whose identifier is
wider than its kind allows. -/
theorem selects_consistent_reordered :
    let node : MappingRule := { extended := false, id := 0x700, idMask := 0x7f0, masks := .ecu 0x00f }
    let first : PduRule := ⟨0x10, .single (.encoded .one)⟩
    let second : PduRule := ⟨0x20, .pair (.fixed 1) (.encoded .two)⟩
    let s : Settings :=
      { canIds := ⟨[⟨0x10, 0x1f⟩, ⟨0x700, 0x7ff⟩]⟩, mappings := [node], pdus := [first, second] }
    let t : Settings :=
      { canIds := ⟨[⟨0x700, 0x7ff⟩, ⟨0x10, 0x1f⟩]⟩, mappings := [node], pdus := [second, first] }
    let frame : Frame := { medium := .canFd, id := 0x705, data := [0x02, 0x10, 0x03] }
    let pdu : Frame := { medium := .pduTransport, id := 0x20, data := [0x12, 0x34, 0x01, 0x3e] }
    let wide : Frame := { medium := .can, id := 0x10705, data := [0x02, 0x10, 0x03] }
    s.validate = .ok () ∧ s.Reordered t ∧
      s.selects frame = true ∧ frame.id ≤ 0x7ff ∧ frame.locate s = ⟨.single 5, 0⟩ ∧
      (∃ rule, s.pdus.filter (·.pdu = pdu.id) = [rule] ∧ pdu.locate s = rule.layout.locate pdu.data) ∧
      t.validate = .ok () ∧ pdu.locate t = pdu.locate s ∧
      s.selects wide = false ∧ t.selects wide = false := by
  intro node first second s t frame pdu wide
  have valid : s.validate = .ok () := by decide
  have reordered : s.Reordered t := ⟨.swap .., .refl _, .refl _, .swap .., rfl⟩
  obtain ⟨can, rows, order⟩ := selects_consistent s valid
  obtain ⟨-, -, narrow, -, looked⟩ := can frame (.inr rfl) (by decide)
  obtain ⟨valid', same⟩ := order t reordered
  have refused : s.selects wide = false := by decide
  refine ⟨valid, reordered, by decide, narrow, ?_, rows pdu rfl (by decide), valid', (same pdu).2, refused, ?_⟩
  · rw [(looked rfl).2]
    decide
  · rw [(same wide).1, refused]

end Settings

end IsoTransport
