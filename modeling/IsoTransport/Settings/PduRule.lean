import IsoTransport.Fault
import IsoTransport.Addresses

/-!
Where the addresses of a PDU come from. A rule is made from a row, in which a size of zero and a
missing value both mean that an address is not set.
-/

namespace IsoTransport

inductive AddressWidth where
  | zero | one | two
  deriving DecidableEq

namespace AddressWidth

def bytes : AddressWidth → Nat
  | zero => 0
  | one => 1
  | two => 2

def ofByte : UInt8 → Except SettingFault AddressWidth
  | 0 => .ok zero
  | 1 => .ok one
  | 2 => .ok two
  | n => .error (.addressWidth n)

def toByte (w : AddressWidth) : UInt8 := UInt8.ofNat w.bytes

theorem ofByte_toByte (w : AddressWidth) : ofByte w.toByte = .ok w := by cases w <;> rfl

end AddressWidth

structure PduRow where
  pdu : UInt32 := 0
  sourceSize : UInt8 := 0
  sourceValue : Option UInt32 := none
  targetSize : UInt8 := 0
  targetValue : Option UInt32 := none
  ecuSize : UInt8 := 0
  ecuValue : Option UInt32 := none
  deriving DecidableEq

inductive AddressSource where
  | encoded (width : AddressWidth)
  | fixed (address : UInt32)
  deriving DecidableEq

namespace AddressSource

/-- The value of `Addresses.unknown` counts as missing. -/
def ofRow (role : AddressRole) (size : UInt8) (value : Option UInt32) :
    Except SettingFault (Option AddressSource) :=
  match value.filter (· ≠ Addresses.unknown) with
  | none => if size = 0 then .ok none else (some ∘ encoded) <$> AddressWidth.ofByte size
  | some a => if size = 0 then .ok (some (fixed a)) else .error (.sizeAndValue role)

def size : AddressSource → UInt8
  | encoded width => width.toByte
  | fixed _ => 0

def value? : AddressSource → Option UInt32
  | encoded _ => none
  | fixed a => some a

end AddressSource

inductive AddressLayout where
  | unaddressed
  | single (ecu : AddressSource)
  | pair (source target : AddressSource)
  deriving DecidableEq

structure PduRule where
  pdu : UInt32
  layout : AddressLayout
  deriving DecidableEq

namespace PduRule

/-- One address for both ends, or two, or none at all. -/
def combine (pdu : UInt32) (ecu source target : Option AddressSource) :
    Except SettingFault AddressLayout :=
  match ecu, source, target with
  | none, none, none => .ok .unaddressed
  | some e, none, none => .ok (.single e)
  | none, some s, some t => .ok (.pair s t)
  | some _, _, _ => .error (.ecuWithOther pdu)
  | none, _, _ => .error (.loneAddress pdu)

def ofRow (row : PduRow) : Except SettingFault PduRule := do
  let source ← AddressSource.ofRow .source row.sourceSize row.sourceValue
  let target ← AddressSource.ofRow .target row.targetSize row.targetValue
  let ecu ← AddressSource.ofRow .ecu row.ecuSize row.ecuValue
  return { pdu := row.pdu, layout := ← combine row.pdu ecu source target }

def toRow (r : PduRule) : PduRow :=
  match r.layout with
  | .unaddressed => { pdu := r.pdu }
  | .single e => { pdu := r.pdu, ecuSize := e.size, ecuValue := e.value? }
  | .pair s t =>
    { pdu := r.pdu, sourceSize := s.size, sourceValue := s.value?, targetSize := t.size,
      targetValue := t.value? }

end PduRule

end IsoTransport
