import IsoTransport.Proofs.Settings.Rows

/-!
Which rows of PDUs make rules (`PduRule.fields_exact`): those whose fields are set in one way each, and go together.
A rule is written back as its row, without the values that count as missing.
-/

namespace IsoTransport

namespace PduRow

def size (row : PduRow) : AddressRole → UInt8
  | .source => row.sourceSize
  | .target => row.targetSize
  | .ecu => row.ecuSize

def value? (row : PduRow) : AddressRole → Option UInt32
  | .source => row.sourceValue
  | .target => row.targetValue
  | .ecu => row.ecuValue

/-- A field has a value other than the one that counts as missing. -/
def Given (row : PduRow) (role : AddressRole) : Prop := ∃ a, row.value? role = some a ∧ a ≠ 0xffffffff

/-- A field is set by its size or by its value. -/
def Sets (row : PduRow) (role : AddressRole) : Prop := row.size role ≠ 0 ∨ row.Given role

/-- A field is set in one way at most, and takes two bytes at most. -/
structure Sound (row : PduRow) (role : AddressRole) : Prop where
  once : ¬(row.size role ≠ 0 ∧ row.Given role)
  narrow : row.size role ≠ 0 → ¬row.Given role → row.size role ≤ 2

/-- The row without the values that count as missing. -/
def plain (row : PduRow) : PduRow :=
  { row with
    sourceValue := row.sourceValue.filter (· ≠ 0xffffffff)
    targetValue := row.targetValue.filter (· ≠ 0xffffffff)
    ecuValue := row.ecuValue.filter (· ≠ 0xffffffff) }

def read (row : PduRow) (role : AddressRole) : Except SettingFault (Option AddressSource) :=
  AddressSource.ofRow role (row.size role) (row.value? role)

/-- A field that was read as `source`. -/
structure Reads (row : PduRow) (role : AddressRole) (source : Option AddressSource) : Prop where
  sound : row.Sound role
  set : source.isSome = true ↔ row.Sets role
  size : (source.map (·.size)).getD 0 = row.size role
  value : source.bind (·.value?) = (row.value? role).filter (· ≠ 0xffffffff)

variable {row : PduRow} {role : AddressRole}

theorem given_iff : row.Given role ↔ ∃ a, (row.value? role).filter (· ≠ Addresses.unknown) = some a := by
  simp only [Given, Option.filter_eq_some_iff, decide_eq_true_eq]
  rfl

theorem missing_iff : (row.value? role).filter (· ≠ Addresses.unknown) = none ↔ ¬row.Given role := by
  rw [given_iff, ← Option.isSome_iff_exists, Option.not_isSome_iff_eq_none]

end PduRow

theorem AddressWidth.exists_ofByte_iff {n : UInt8} : (∃ w, ofByte n = .ok w) ↔ n ≤ 2 := by
  constructor
  · rintro ⟨w, read⟩
    rw [← ofByte_exact read]
    cases w <;> decide
  · intro small
    obtain rfl | rfl | rfl : n = 0 ∨ n = 1 ∨ n = 2 := by
      simp only [UInt8.le_iff_toNat_le, ← UInt8.toNat_inj] at small ⊢
      simp at small ⊢
      omega
    · exact ⟨.zero, rfl⟩
    · exact ⟨.one, rfl⟩
    · exact ⟨.two, rfl⟩

namespace PduRow

variable {row : PduRow} {role : AddressRole}

theorem reads_of_read {source : Option AddressSource} (read : row.read role = .ok source) :
    row.Reads role source := by
  rcases AddressSource.ofRow_iff.mp read with
    ⟨zero, missing, rfl⟩ | ⟨w, sized, missing, width, rfl⟩ | ⟨a, zero, found, rfl⟩
  · have absent := missing_iff.mp missing
    exact {
      sound := ⟨fun both => absent both.2, fun sized => absurd zero sized⟩
      set := by simp [Sets, zero, absent]
      size := zero.symm
      value := missing.symm }
  · have absent := missing_iff.mp missing
    have narrow := AddressWidth.exists_ofByte_iff.mp ⟨w, width⟩
    exact {
      sound := ⟨fun both => absent both.2, fun _ _ => narrow⟩
      set := by simp [Sets, sized]
      size := AddressWidth.ofByte_exact width
      value := missing.symm }
  · have given : row.Given role := given_iff.mpr ⟨a, found⟩
    exact {
      sound := ⟨fun both => both.1 zero, fun sized => absurd zero sized⟩
      set := by simp [Sets, given]
      size := zero.symm
      value := found.symm }

theorem exists_read (sound : row.Sound role) : ∃ source, row.read role = .ok source := by
  by_cases zero : row.size role = 0
  · cases found : (row.value? role).filter (· ≠ Addresses.unknown) with
    | none => exact ⟨none, AddressSource.ofRow_iff.mpr (.inl ⟨zero, found, rfl⟩)⟩
    | some a => exact ⟨some (.fixed a), AddressSource.ofRow_iff.mpr (.inr (.inr ⟨a, zero, found, rfl⟩))⟩
  · have absent : ¬row.Given role := fun given => sound.once ⟨zero, given⟩
    have missing := missing_iff.mpr absent
    obtain ⟨w, width⟩ := AddressWidth.exists_ofByte_iff.mpr (sound.narrow zero absent)
    exact ⟨some (.encoded w), AddressSource.ofRow_iff.mpr (.inr (.inl ⟨w, zero, missing, width, rfl⟩))⟩

end PduRow

namespace PduRule

variable {row : PduRow} {r : PduRule} {ecu source target : Option AddressSource}

theorem exists_combine_iff {pdu : UInt32} :
    (∃ layout, combine pdu ecu source target = .ok layout) ↔
      ¬(ecu.isSome = true ∧ (source.isSome = true ∨ target.isSome = true)) ∧
        (source.isSome = true ↔ target.isSome = true) := by
  cases ecu <;> cases source <;> cases target <;> simp [combine]

theorem toRow_combine {pdu : UInt32} {layout : AddressLayout}
    (combined : combine pdu ecu source target = .ok layout) :
    toRow ⟨pdu, layout⟩ =
      { pdu
        sourceSize := (source.map (·.size)).getD 0, sourceValue := source.bind (·.value?)
        targetSize := (target.map (·.size)).getD 0, targetValue := target.bind (·.value?)
        ecuSize := (ecu.map (·.size)).getD 0, ecuValue := ecu.bind (·.value?) } := by
  cases ecu <;> cases source <;> cases target <;> cases combined <;> rfl

/-- A row makes a rule exactly if none of its fields is set twice or too wide, that of an ECU is set alone, and those
of a source and a target are set together. The rule is written back as that row without the values that count as
missing, and made again from it. -/
theorem fields_exact (row : PduRow) :
    ((∃ r, ofRow row = .ok r) ↔
      (∀ role, ¬(row.size role ≠ 0 ∧ row.Given role)) ∧
      (∀ role, row.size role ≠ 0 → ¬row.Given role → row.size role ≤ 2) ∧
      ¬(row.Sets .ecu ∧ (row.Sets .source ∨ row.Sets .target)) ∧
      (row.Sets .source ↔ row.Sets .target)) ∧
    ∀ r, ofRow row = .ok r → r.toRow = row.plain ∧ ofRow r.toRow = .ok r := by
  constructor
  · constructor
    · rintro ⟨r, accepted⟩
      obtain ⟨source, target, ecu, layout, sourceRead, targetRead, ecuRead, combined, -⟩ := ofRow_iff.mp accepted
      have source := PduRow.reads_of_read sourceRead
      have target := PduRow.reads_of_read targetRead
      have ecu := PduRow.reads_of_read ecuRead
      have together := exists_combine_iff.mp ⟨layout, combined⟩
      rw [ecu.set, source.set, target.set] at together
      have sound : ∀ role, row.Sound role := by
        intro role
        cases role with
        | source => exact source.sound
        | target => exact target.sound
        | ecu => exact ecu.sound
      exact ⟨fun role => (sound role).once, fun role => (sound role).narrow, together⟩
    · rintro ⟨once, narrow, together⟩
      have sound : ∀ role, row.Sound role := fun role => ⟨once role, narrow role⟩
      obtain ⟨source, sourceRead⟩ := PduRow.exists_read (sound .source)
      obtain ⟨target, targetRead⟩ := PduRow.exists_read (sound .target)
      obtain ⟨ecu, ecuRead⟩ := PduRow.exists_read (sound .ecu)
      -- whether the sources go together hangs only on which of them are there
      rw [← (PduRow.reads_of_read sourceRead).set, ← (PduRow.reads_of_read targetRead).set,
        ← (PduRow.reads_of_read ecuRead).set] at together
      obtain ⟨layout, combined⟩ : ∃ layout, combine row.pdu ecu source target = .ok layout :=
        exists_combine_iff.mpr together
      exact ⟨_, ofRow_iff.mpr ⟨source, target, ecu, layout, sourceRead, targetRead, ecuRead, combined, rfl⟩⟩
  · intro r accepted
    refine ⟨?_, ofRow_toRow accepted⟩
    obtain ⟨source, target, ecu, layout, sourceRead, targetRead, ecuRead, combined, rfl⟩ := ofRow_iff.mp accepted
    have source := PduRow.reads_of_read sourceRead
    have target := PduRow.reads_of_read targetRead
    have ecu := PduRow.reads_of_read ecuRead
    rw [toRow_combine combined, source.size, source.value, target.size, target.value, ecu.size, ecu.value]
    rfl

/-- A row with a value that counts as missing beside a size and another one alone, and a row whose field is set
twice. -/
theorem fields_exact_missing :
    let row : PduRow :=
      { pdu := 3, sourceValue := some 0xe80, targetSize := 2, targetValue := some 0xffffffff
        ecuValue := some 0xffffffff }
    let r : PduRule := ⟨3, .pair (.fixed 0xe80) (.encoded .two)⟩
    let plain : PduRow := { pdu := 3, sourceValue := some 0xe80, targetSize := 2 }
    ofRow row = .ok r ∧ (row.Sets .source ↔ row.Sets .target) ∧ r.toRow = plain ∧ ofRow plain = .ok r ∧
      ¬∃ r, ofRow { row with targetValue := some 7 } = .ok r := by
  intro row r plain
  have made : ofRow row = .ok r := rfl
  obtain ⟨accepts, keeps⟩ := fields_exact row
  obtain ⟨written, again⟩ := keeps r made
  have normal : row.plain = plain := by decide
  rw [normal] at written
  rw [written] at again
  refine ⟨made, (accepts.mp ⟨r, made⟩).2.2.2, written, again, fun accepted => ?_⟩
  have once := ((fields_exact { row with targetValue := some 7 }).1.mp accepted).1 .target
  exact once ⟨by decide, 7, rfl, by decide⟩

end PduRule

end IsoTransport
