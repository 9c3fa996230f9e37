import IsoTransport.Settings.Basic
import IsoTransport.Json.Record
import IsoTransport.Json.Value

/-!
Settings as documents. Reading accepts fields in any order and leaves defaults where they are
missing; writing gives all of them, in the order of their declaration.
-/

namespace IsoTransport

open Json (Reader Value Field RecordShape)

abbrev SettingReader (α : Type) := Reader SettingFault α

namespace SettingReader

def word8 : SettingReader UInt8 := UInt8.ofNat <$> Reader.unsigned 8

def word16 : SettingReader UInt16 := UInt16.ofNat <$> Reader.unsigned 16

def word32 : SettingReader UInt32 := UInt32.ofNat <$> Reader.unsigned 32

def idSet : SettingReader IdSet := Reader.text.refine IdSet.read

def width : SettingReader AddressWidth := word8.refine AddressWidth.ofByte

def medium : SettingReader Medium := Reader.choice (Medium.all.map fun m => (m.key, m))

def addressing : SettingReader CanAddressing :=
  Reader.choice [("normal", .normal), ("extended", .extended)]

def mappingRow : SettingReader MappingRow :=
  Reader.record {
    name := "CanIdMappingRow"
    lenient := true
    default := {}
    fields := [
      .of "extended_address" Reader.boolean fun row x => { row with extended := x },
      .of "can_id" word32 fun row x => { row with id := x },
      .of "can_id_mask" word32 fun row x => { row with idMask := x },
      .of "source_addr_mask" word32 fun row x => { row with sourceMask := x },
      .of "target_addr_mask" word32 fun row x => { row with targetMask := x },
      .of "ecu_addr_mask" word32 fun row x => { row with ecuMask := x }] }

def pduRow : SettingReader PduRow :=
  Reader.record {
    name := "PduTransportRow"
    lenient := true
    default := {}
    fields := [
      .of "pdu_id" word32 fun row x => { row with pdu := x },
      .of "source_address_size" word8 fun row x => { row with sourceSize := x },
      .of "source_address_fixed" (Reader.optional word32) fun row x => { row with sourceValue := x },
      .of "target_address_size" word8 fun row x => { row with targetSize := x },
      .of "target_address_fixed" (Reader.optional word32) fun row x => { row with targetValue := x },
      .of "ecu_address_size" word8 fun row x => { row with ecuSize := x },
      .of "ecu_address_fixed" (Reader.optional word32) fun row x => { row with ecuValue := x }] }

def settings : SettingReader Settings :=
  Reader.record {
    name := "IsoTpConfig"
    lenient := false
    default := {}
    fields := [
      .of "addressing" addressing fun s x => { s with addressing := x },
      .of "window" word16 fun s x => { s with window := x },
      .of "can_ids" idSet fun s x => { s with canIds := x },
      .of "can_extended_ids" idSet fun s x => { s with canExtendedIds := x },
      .of "can_id_mappings" (Reader.sequence (mappingRow.refine MappingRule.ofRow))
        fun s x => { s with mappings := x },
      .of "lin_diag" Reader.boolean fun s x => { s with linDiagnostics := x },
      .of "flexray_addressing" width fun s x => { s with flexRayWidth := x },
      .of "flexray_segment_size_limit" word32 fun s x => { s with flexRaySegmentLimit := x },
      .of "ipdum_pdu_ids" idSet fun s x => { s with iPduMIds := x },
      .of "ipdum_addressing" width fun s x => { s with iPduMWidth := x },
      .of "pdu_transport" (Reader.sequence (pduRow.refine PduRule.ofRow))
        fun s x => { s with pdus := x }] }

def run {α : Type} (r : SettingReader α) (text : String) : Except Fault α :=
  match Reader.document r text with
  | .ok a => .ok a
  | .error f => .error (.document f)

end SettingReader

/-! ### Reading -/

namespace Settings

/-- Reads settings without checking them as a whole. -/
def parse (text : String) : Except Fault Settings := SettingReader.settings.run text

def check (s : Settings) : Except Fault Settings :=
  match s.validate with
  | .ok () => .ok s
  | .error cause => .error (.setting cause)

def ofJson (text : String) : Except Fault Settings := parse text >>= check

end Settings

def Medium.ofJson (text : String) : Except Fault Medium := SettingReader.medium.run text

/-! ### Writing -/

def IdSet.toJson (s : IdSet) : Value := .text s.text

def AddressWidth.toJson (w : AddressWidth) : Value := .number w.bytes

def CanAddressing.toJson : CanAddressing → Value
  | normal => .text "normal"
  | extended => .text "extended"

def MappingRow.toJson (row : MappingRow) : Value :=
  .map [
    ("extended_address", .boolean row.extended),
    ("can_id", .number row.id.toNat),
    ("can_id_mask", .number row.idMask.toNat),
    ("source_addr_mask", .number row.sourceMask.toNat),
    ("target_addr_mask", .number row.targetMask.toNat),
    ("ecu_addr_mask", .number row.ecuMask.toNat)]

def PduRow.toJson (row : PduRow) : Value :=
  let optional (x : Option UInt32) : Value := (x.map fun a => Value.number a.toNat).getD .null
  .map [
    ("pdu_id", .number row.pdu.toNat),
    ("source_address_size", .number row.sourceSize.toNat),
    ("source_address_fixed", optional row.sourceValue),
    ("target_address_size", .number row.targetSize.toNat),
    ("target_address_fixed", optional row.targetValue),
    ("ecu_address_size", .number row.ecuSize.toNat),
    ("ecu_address_fixed", optional row.ecuValue)]

namespace Settings

def toValue (s : Settings) : Value :=
  .map [
    ("addressing", s.addressing.toJson),
    ("window", .number s.window.toNat),
    ("can_ids", s.canIds.toJson),
    ("can_extended_ids", s.canExtendedIds.toJson),
    ("can_id_mappings", .sequence (s.mappings.map (·.toRow.toJson))),
    ("lin_diag", .boolean s.linDiagnostics),
    ("flexray_addressing", s.flexRayWidth.toJson),
    ("flexray_segment_size_limit", .number s.flexRaySegmentLimit.toNat),
    ("ipdum_pdu_ids", s.iPduMIds.toJson),
    ("ipdum_addressing", s.iPduMWidth.toJson),
    ("pdu_transport", .sequence (s.pdus.map (·.toRow.toJson)))]

def toJson (s : Settings) : String := s.toValue.pretty

end Settings

end IsoTransport
