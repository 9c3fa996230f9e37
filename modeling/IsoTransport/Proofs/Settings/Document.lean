import IsoTransport.Proofs.Json.Compound
import IsoTransport.Proofs.Json.Yields
import IsoTransport.Proofs.Settings.Identifiers
import IsoTransport.Proofs.Settings.Rows
import IsoTransport.Settings.Document

/-!
Settings are read back from the document they are written as, field by field (`ofJson_toJson`). What has been
read keeps to the values that can be written: ascending ranges, and rules that their rows make again.
-/

namespace IsoTransport

open Json Json.Reader

/-! ### Values of fields -/

namespace SettingReader

theorem reads_word8 (n : UInt8) : Reads word8 (.number n.toNat) n :=
  reads_word (by decide) n.toNat_lt UInt8.ofNat_toNat

theorem reads_word16 (n : UInt16) : Reads word16 (.number n.toNat) n :=
  reads_word (by decide) n.toNat_lt UInt16.ofNat_toNat

theorem reads_word32 (n : UInt32) : Reads word32 (.number n.toNat) n :=
  reads_word (by decide) n.toNat_lt UInt32.ofNat_toNat

theorem reads_optional (x : Option UInt32) :
    Reads (Reader.optional word32) ((x.map fun a => Value.number a.toNat).getD .null) x := by
  cases x with
  | none => exact reads_absent word32
  | some a => exact reads_present (reads_word32 a)

theorem reads_idSet {s : IdSet} (ascending : s.Ascending) : Reads idSet s.toJson s :=
  (reads_text s.text).refine (IdSet.read_text ascending)

theorem reads_width (w : AddressWidth) : Reads width w.toJson w := by
  have small : w.toByte.toNat = w.bytes := by cases w <;> rfl
  have byte := reads_word8 w.toByte
  rw [small] at byte
  exact byte.refine (AddressWidth.ofByte_toByte w)

theorem reads_addressing (a : CanAddressing) : Reads addressing a.toJson a := by
  cases a with
  | normal => exact reads_choice rfl
  | extended => exact reads_choice rfl

theorem reads_mappingRow (row : MappingRow) : Reads mappingRow row.toJson row := by
  unfold mappingRow MappingRow.toJson
  apply reads_record
  · apply fits_cons rfl (reads_boolean _)
    apply fits_cons rfl (reads_word32 _)
    apply fits_cons rfl (reads_word32 _)
    apply fits_cons rfl (reads_word32 _)
    apply fits_cons rfl (reads_word32 _)
    apply fits_cons rfl (reads_word32 _)
    exact .nil
  · simp
  · rfl

theorem reads_pduRow (row : PduRow) : Reads pduRow row.toJson row := by
  unfold pduRow PduRow.toJson
  apply reads_record
  · apply fits_cons rfl (reads_word32 _)
    apply fits_cons rfl (reads_word8 _)
    apply fits_cons rfl (reads_optional _)
    apply fits_cons rfl (reads_word8 _)
    apply fits_cons rfl (reads_optional _)
    apply fits_cons rfl (reads_word8 _)
    apply fits_cons rfl (reads_optional _)
    exact .nil
  · simp
  · rfl

end SettingReader

/-! ### Settings -/

/-- Settings whose sets and rules are made again from what they are written as. -/
structure Settings.Kept (s : Settings) : Prop where
  canIds : s.canIds.Ascending
  canExtendedIds : s.canExtendedIds.Ascending
  iPduMIds : s.iPduMIds.Ascending
  mappings : ∀ r ∈ s.mappings, MappingRule.ofRow r.toRow = .ok r
  pdus : ∀ r ∈ s.pdus, PduRule.ofRow r.toRow = .ok r

namespace SettingReader

theorem reads_rules {ρ τ : Type} {row : SettingReader ρ} {write : ρ → Value} (reads : ∀ x, Reads row (write x) x)
    {ofRow : ρ → Except SettingFault τ} {toRow : τ → ρ} {rules : List τ}
    (kept : ∀ r ∈ rules, ofRow (toRow r) = .ok r) :
    Reads (Reader.sequence (row.refine ofRow)) (.sequence (rules.map fun r => write (toRow r))) rules := by
  apply Reads.sequence
  rw [List.forall₂_map_left_iff, List.forall₂_same]
  exact fun r member => (reads (toRow r)).refine (kept r member)

theorem reads_settings {s : Settings} (kept : s.Kept) : Reads settings s.toValue s := by
  unfold settings Settings.toValue
  apply reads_record
  -- one line for each field, in the order in which they are written
  · apply fits_cons rfl (reads_addressing _)
    apply fits_cons rfl (reads_word16 _)
    apply fits_cons rfl (reads_idSet kept.canIds)
    apply fits_cons rfl (reads_idSet kept.canExtendedIds)
    apply fits_cons rfl (reads_rules reads_mappingRow kept.mappings)
    apply fits_cons rfl (reads_boolean _)
    apply fits_cons rfl (reads_width _)
    apply fits_cons rfl (reads_word32 _)
    apply fits_cons rfl (reads_idSet kept.iPduMIds)
    apply fits_cons rfl (reads_width _)
    apply fits_cons rfl (reads_rules reads_pduRow kept.pdus)
    exact .nil
  · simp
  · rfl

/-! ### What is read -/

theorem yields_idSet : Yields idSet IdSet.Ascending := by
  apply yields_refine
  intro text s accepted
  exact IdSet.ascending_of_read accepted

theorem yields_mappings : Yields (Reader.sequence (mappingRow.refine MappingRule.ofRow))
    fun rules => ∀ r ∈ rules, MappingRule.ofRow r.toRow = .ok r := by
  apply Yields.sequence
  apply yields_refine
  intro row r accepted
  rw [MappingRule.toRow_of_ofRow accepted]
  exact accepted

theorem yields_pdus : Yields (Reader.sequence (pduRow.refine PduRule.ofRow))
    fun rules => ∀ r ∈ rules, PduRule.ofRow r.toRow = .ok r := by
  apply Yields.sequence
  apply yields_refine
  intro row r accepted
  exact PduRule.ofRow_toRow accepted

theorem yields_settings : Yields settings Settings.Kept := by
  unfold settings
  apply yields_record
  · dsimp only
    refine fieldKeeps_cons yields_true (fun s _ before _ => { before with }) ?_
    refine fieldKeeps_cons yields_true (fun s _ before _ => { before with }) ?_
    refine fieldKeeps_cons yields_idSet (fun s _ before read => { before with canIds := read }) ?_
    refine fieldKeeps_cons yields_idSet (fun s _ before read => { before with canExtendedIds := read }) ?_
    refine fieldKeeps_cons yields_mappings (fun s _ before read => { before with mappings := read }) ?_
    refine fieldKeeps_cons yields_true (fun s _ before _ => { before with }) ?_
    refine fieldKeeps_cons yields_true (fun s _ before _ => { before with }) ?_
    refine fieldKeeps_cons yields_true (fun s _ before _ => { before with }) ?_
    refine fieldKeeps_cons yields_idSet (fun s _ before read => { before with iPduMIds := read }) ?_
    refine fieldKeeps_cons yields_true (fun s _ before _ => { before with }) ?_
    refine fieldKeeps_cons yields_pdus (fun s _ before read => { before with pdus := read }) ?_
    intro field member
    cases member
  · constructor <;> intro r member <;> cases member

end SettingReader

namespace Settings

theorem kept_of_parse {text : String} {s : Settings} (read : parse text = .ok s) : s.Kept := by
  unfold parse SettingReader.run at read
  split at read
  · rename_i accepted
    cases read
    exact SettingReader.yields_settings.document accepted
  · cases read

theorem parse_toJson {s : Settings} (kept : s.Kept) : parse s.toJson = .ok s := by
  unfold parse SettingReader.run toJson
  rw [document_pretty (SettingReader.reads_settings kept)]

theorem check_exact {s t : Settings} (accepted : check s = .ok t) : s = t := by
  unfold check at accepted
  split at accepted
  · cases accepted
    rfl
  · cases accepted

/-- Settings that were read survive being written: reading them again gives the same settings, every field of
them, and writing those gives the same text. -/
theorem ofJson_toJson {text : String} {s : Settings} (accepted : ofJson text = .ok s) :
    ofJson s.toJson = .ok s ∧ toJson <$> ofJson s.toJson = .ok s.toJson := by
  have again : ofJson s.toJson = .ok s := by
    obtain ⟨read, parsed, checked⟩ := ok_of_bind accepted
    obtain rfl := check_exact checked
    unfold ofJson
    rw [parse_toJson (kept_of_parse parsed)]
    exact checked
  rw [again]
  exact ⟨rfl, rfl⟩

/-- A decimal end, a blank between the ranges, capital digits and the value that counts as missing are written
differently from what was read. -/
theorem ofJson_toJson_rewritten :
    let text := "\x7b\"can_ids\": \"2016-0x7EF, 0x7df\", \"pdu_transport\": [\x7b\"pdu_id\": 1,
      \"ecu_address_size\": 2, \"ecu_address_fixed\": 4294967295\x7d]\x7d"
    let s : Settings := {
      canIds := ⟨[⟨0x7e0, 0x7ef⟩, ⟨0x7df, 0x7df⟩]⟩
      pdus := [⟨1, .single (.encoded .two)⟩] }
    ofJson text = .ok s ∧ ofJson s.toJson = .ok s ∧ toJson <$> ofJson s.toJson = .ok s.toJson := by
  intro text s
  have read : ofJson text = .ok s := by decide +kernel
  exact ⟨read, ofJson_toJson read⟩

end Settings

end IsoTransport
