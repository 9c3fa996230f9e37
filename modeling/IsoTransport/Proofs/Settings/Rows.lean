import IsoTransport.Proofs.Results
import IsoTransport.Settings.MappingRule
import IsoTransport.Settings.PduRule

/-!
Rules are made again from the rows they are written as. A mapping rule goes back to the very row it was made
from (`toRow_of_ofRow`); the row of a PDU may lose a value that counted as missing, and still gives the same
rule (`ofRow_toRow`). All that it takes to make a rule of a row is in `MappingRule.ofRow_iff` and `PduRule.ofRow_iff`.
-/

namespace IsoTransport

/-- The mask of an ECU, and no other. -/
def MappingRow.HasOne (row : MappingRow) : Prop := row.ecuMask ≠ 0 ∧ row.sourceMask = 0 ∧ row.targetMask = 0

/-- The masks of a source and of a target, and no other. -/
def MappingRow.HasTwo (row : MappingRow) : Prop := row.ecuMask = 0 ∧ row.sourceMask ≠ 0 ∧ row.targetMask ≠ 0

namespace MappingRule

variable {row : MappingRow} {r : MappingRule}

theorem masksOf_iff {masks : AddressMasks} :
    masksOf row = .ok masks ↔
      (row.HasOne ∧ masks = .ecu row.ecuMask) ∨
        (row.HasTwo ∧ masks = .sourceTarget row.sourceMask row.targetMask) := by
  constructor
  · intro read
    unfold masksOf at read
    split at read
    · rename_i noEcu
      split at read
      · cases read
      · split at read
        · cases read
        · rename_i both
          cases read
          exact .inr ⟨⟨noEcu, not_or.mp both⟩, rfl⟩
    · rename_i ecu
      split at read
      · rename_i alone
        cases read
        exact .inl ⟨⟨ecu, alone⟩, rfl⟩
      · cases read
  · rintro (⟨⟨ecu, source, target⟩, rfl⟩ | ⟨⟨ecu, source, target⟩, rfl⟩)
    · simp [masksOf, ecu, source, target]
    · simp [masksOf, ecu, source, target]

theorem checkMask_iff {extended : Bool} {role : AddressRole} {mask : UInt32} :
    checkMask extended role mask = .ok () ↔ mask &&& ~~~Can.idMask extended = 0 := by
  unfold checkMask
  split <;> simp_all

theorem ofRow_iff :
    ofRow row = .ok r ↔
      (∀ mask ∈ [row.sourceMask, row.targetMask, row.ecuMask], mask &&& ~~~Can.idMask row.extended = 0) ∧
        ∃ masks, masksOf row = .ok masks ∧ r = ⟨row.extended, row.id, row.idMask, masks⟩ := by
  constructor
  · intro accepted
    unfold ofRow at accepted
    obtain ⟨masks, read, accepted⟩ := ok_of_bind accepted
    obtain ⟨_, source, accepted⟩ := ok_of_bind accepted
    obtain ⟨_, target, accepted⟩ := ok_of_bind accepted
    obtain ⟨_, ecu, accepted⟩ := ok_of_bind accepted
    cases accepted
    refine ⟨?_, masks, read, rfl⟩
    simp only [List.forall_mem_cons]
    exact ⟨checkMask_iff.mp source, checkMask_iff.mp target, checkMask_iff.mp ecu, by simp⟩
  · rintro ⟨fits, masks, read, rfl⟩
    have checked : ∀ role, ∀ mask ∈ [row.sourceMask, row.targetMask, row.ecuMask],
        checkMask row.extended role mask = .ok () :=
      fun role mask member => checkMask_iff.mpr (fits mask member)
    unfold ofRow
    rw [read, checked .source row.sourceMask (by simp), checked .target row.targetMask (by simp),
      checked .ecu row.ecuMask (by simp)]
    rfl

theorem toRow_of_ofRow (accepted : ofRow row = .ok r) : r.toRow = row := by
  obtain ⟨-, masks, read, rfl⟩ := ofRow_iff.mp accepted
  obtain ⟨extended, id, idMask, source, target, ecu⟩ := row
  rcases masksOf_iff.mp read with ⟨⟨-, noSource, noTarget⟩, rfl⟩ | ⟨⟨noEcu, -⟩, rfl⟩
  · cases noSource
    cases noTarget
    rfl
  · cases noEcu
    rfl

end MappingRule

theorem AddressWidth.ofByte_exact {n : UInt8} {w : AddressWidth} (read : ofByte n = .ok w) :
    w.toByte = n := by
  unfold ofByte at read
  split at read
  · cases read
    rfl
  · cases read
    rfl
  · cases read
    rfl
  · cases read

namespace AddressSource

variable {role : AddressRole} {size : UInt8} {value : Option UInt32}

/-- What a row can say of an address: nothing, its width, or its value. -/
theorem ofRow_iff {source : Option AddressSource} :
    ofRow role size value = .ok source ↔
      (size = 0 ∧ value.filter (· ≠ Addresses.unknown) = none ∧ source = none) ∨
      (∃ w, size ≠ 0 ∧ value.filter (· ≠ Addresses.unknown) = none ∧ AddressWidth.ofByte size = .ok w ∧
        source = some (.encoded w)) ∨
      ∃ a, size = 0 ∧ value.filter (· ≠ Addresses.unknown) = some a ∧ source = some (.fixed a) := by
  constructor
  · intro read
    unfold ofRow at read
    split at read
    · rename_i missing
      split at read
      · rename_i zero
        cases read
        exact .inl ⟨zero, missing, rfl⟩
      · rename_i sized
        cases width : AddressWidth.ofByte size with
        | error fault =>
          rw [width] at read
          cases read
        | ok w =>
          rw [width] at read
          cases read
          exact .inr (.inl ⟨w, sized, missing, rfl, rfl⟩)
    · rename_i a found
      split at read
      · rename_i zero
        cases read
        exact .inr (.inr ⟨a, zero, found, rfl⟩)
      · cases read
  · rintro (⟨zero, missing, rfl⟩ | ⟨w, sized, missing, width, rfl⟩ | ⟨a, zero, found, rfl⟩)
    · rw [ofRow, missing]
      exact if_pos zero
    · rw [ofRow, missing]
      dsimp only
      rw [if_neg sized, width]
      rfl
    · rw [ofRow, found]
      exact if_pos zero

/-- A source that a row can set: its size and its value stand for it again, whatever part it plays. -/
def Settable (s : AddressSource) : Prop := ∀ role, ofRow role s.size s.value? = .ok (some s)

theorem settable_of_ofRow {s : AddressSource} (read : ofRow role size value = .ok (some s)) : s.Settable := by
  intro other
  rcases ofRow_iff.mp read with ⟨-, -, absent⟩ | ⟨w, sized, -, width, encoded⟩ | ⟨a, -, found, fixed⟩
  · cases absent
  · cases encoded
    have sized : w.toByte ≠ 0 := by rwa [AddressWidth.ofByte_exact width]
    exact ofRow_iff.mpr (.inr (.inl ⟨w, sized, rfl, AddressWidth.ofByte_toByte w, rfl⟩))
  · cases fixed
    have known := (Option.filter_eq_some_iff.mp found).2
    exact ofRow_iff.mpr (.inr (.inr ⟨a, rfl, Option.filter_eq_some_iff.mpr ⟨rfl, known⟩, rfl⟩))

theorem ofRow_absent (role : AddressRole) : ofRow role 0 none = .ok none := rfl

end AddressSource

def AddressLayout.sources : AddressLayout → List AddressSource
  | unaddressed => []
  | single e => [e]
  | pair s t => [s, t]

namespace PduRule

theorem combine_cases {pdu : UInt32} {ecu source target : Option AddressSource} {layout : AddressLayout}
    (combined : combine pdu ecu source target = .ok layout) :
    layout = .unaddressed ∨ (∃ e, ecu = some e ∧ layout = .single e) ∨
      ∃ s t, source = some s ∧ target = some t ∧ layout = .pair s t := by
  unfold combine at combined
  split at combined <;> cases combined
  · exact .inl rfl
  · exact .inr (.inl ⟨_, rfl, rfl⟩)
  · exact .inr (.inr ⟨_, _, rfl, rfl, rfl⟩)

theorem ofRow_iff {row : PduRow} {r : PduRule} :
    ofRow row = .ok r ↔ ∃ source target ecu layout,
      AddressSource.ofRow .source row.sourceSize row.sourceValue = .ok source ∧
        AddressSource.ofRow .target row.targetSize row.targetValue = .ok target ∧
        AddressSource.ofRow .ecu row.ecuSize row.ecuValue = .ok ecu ∧
        combine row.pdu ecu source target = .ok layout ∧ r = ⟨row.pdu, layout⟩ := by
  constructor
  · intro accepted
    unfold ofRow at accepted
    obtain ⟨source, sourceRead, accepted⟩ := ok_of_bind accepted
    obtain ⟨target, targetRead, accepted⟩ := ok_of_bind accepted
    obtain ⟨ecu, ecuRead, accepted⟩ := ok_of_bind accepted
    obtain ⟨layout, combined, accepted⟩ := ok_of_bind accepted
    cases accepted
    exact ⟨source, target, ecu, layout, sourceRead, targetRead, ecuRead, combined, rfl⟩
  · rintro ⟨source, target, ecu, layout, sourceRead, targetRead, ecuRead, combined, rfl⟩
    unfold ofRow
    rw [sourceRead, targetRead, ecuRead]
    simp [bind, Except.bind, combined, pure, Except.pure]

theorem settable_of_ofRow {row : PduRow} {r : PduRule} (accepted : ofRow row = .ok r) :
    ∀ source ∈ r.layout.sources, source.Settable := by
  obtain ⟨source, target, ecu, layout, sourceRead, targetRead, ecuRead, combined, rfl⟩ := ofRow_iff.mp accepted
  rcases combine_cases combined with rfl | ⟨e, rfl, rfl⟩ | ⟨s, t, rfl, rfl, rfl⟩
  · simp [AddressLayout.sources]
  · have single := AddressSource.settable_of_ofRow ecuRead
    simpa [AddressLayout.sources] using single
  · have first := AddressSource.settable_of_ofRow sourceRead
    have second := AddressSource.settable_of_ofRow targetRead
    simpa [AddressLayout.sources] using And.intro first second

/-- A rule is made again from its row if each of its sources is. -/
theorem ofRow_of_settable {r : PduRule} (settable : ∀ source ∈ r.layout.sources, source.Settable) :
    ofRow r.toRow = .ok r := by
  obtain ⟨pdu, layout⟩ := r
  cases layout with
  | unaddressed => rfl
  | single e =>
    have again := settable e (List.mem_singleton_self e) .ecu
    unfold ofRow toRow
    dsimp only
    rw [AddressSource.ofRow_absent, AddressSource.ofRow_absent, again]
    rfl
  | pair s t =>
    have first := settable s (by simp [AddressLayout.sources]) .source
    have second := settable t (by simp [AddressLayout.sources]) .target
    unfold ofRow toRow
    dsimp only
    rw [AddressSource.ofRow_absent, first, second]
    rfl

theorem ofRow_toRow {row : PduRow} {r : PduRule} (accepted : ofRow row = .ok r) : ofRow r.toRow = .ok r :=
  ofRow_of_settable (settable_of_ofRow accepted)

end PduRule

end IsoTransport
