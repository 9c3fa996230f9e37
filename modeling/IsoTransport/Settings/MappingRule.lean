import IsoTransport.Fault
import IsoTransport.Addresses
import IsoTransport.Identifier.Can

/-!
Rules that find addresses in the bits of a CAN identifier. A rule is made from a row, which may
combine masks in ways that mean nothing.
-/

namespace IsoTransport

structure MappingRow where
  extended : Bool := false
  id : UInt32 := 0
  idMask : UInt32 := 0
  sourceMask : UInt32 := 0
  targetMask : UInt32 := 0
  ecuMask : UInt32 := 0
  deriving DecidableEq

inductive AddressMasks where
  | ecu (mask : UInt32)
  | sourceTarget (source target : UInt32)
  deriving DecidableEq

/-- The bits of `value` under a mask, shifted down to bit zero. -/
def extractBits (value mask : UInt32) : UInt32 :=
  if mask = 0 then 0 else (value &&& mask) >>> UInt32.ofNat (trailingZeros 32 mask.toNat)
where
  trailingZeros : (limit : Nat) → Nat → Nat
    | 0, _ => 0
    | limit + 1, n => if n % 2 = 1 then 0 else trailingZeros limit (n / 2) + 1

structure MappingRule where
  extended : Bool
  id : UInt32
  idMask : UInt32
  masks : AddressMasks
  deriving DecidableEq

namespace MappingRule

/-- An identifier of the right width that agrees with the rule's under its mask. -/
def matchesId (r : MappingRule) (extended : Bool) (id : UInt32) : Bool :=
  r.extended = extended && r.id &&& r.idMask = id &&& r.idMask

def addresses (r : MappingRule) (id : UInt32) : Addresses :=
  match r.masks with
  | .ecu mask => .single (extractBits id mask)
  | .sourceTarget source target => .pair (extractBits id source) (extractBits id target)

def masksOf (row : MappingRow) : Except SettingFault AddressMasks :=
  if row.ecuMask = 0 then
    if row.sourceMask = 0 ∧ row.targetMask = 0 then .error .noMask
    else if row.sourceMask = 0 ∨ row.targetMask = 0 then .error .loneMask
    else .ok (.sourceTarget row.sourceMask row.targetMask)
  else if row.sourceMask = 0 ∧ row.targetMask = 0 then .ok (.ecu row.ecuMask)
  else .error .bothMasks

def checkMask (extended : Bool) (role : AddressRole) (mask : UInt32) : Except SettingFault Unit :=
  if mask &&& ~~~Can.idMask extended = 0 then .ok () else .error (.wideMask role mask extended)

def ofRow (row : MappingRow) : Except SettingFault MappingRule := do
  let masks ← masksOf row
  checkMask row.extended .source row.sourceMask
  checkMask row.extended .target row.targetMask
  checkMask row.extended .ecu row.ecuMask
  return { extended := row.extended, id := row.id, idMask := row.idMask, masks }

def toRow (r : MappingRule) : MappingRow :=
  let row : MappingRow := { extended := r.extended, id := r.id, idMask := r.idMask }
  match r.masks with
  | .ecu mask => { row with ecuMask := mask }
  | .sourceTarget source target => { row with sourceMask := source, targetMask := target }

end MappingRule

end IsoTransport
