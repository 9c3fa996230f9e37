import IsoTransport.IdSet
import IsoTransport.Medium
import IsoTransport.Settings.MappingRule
import IsoTransport.Settings.PduRule

/-!
The settings of an analysis: which identifiers carry transport frames, and how their addresses are
found on each medium.
-/

namespace IsoTransport

inductive CanAddressing where
  | normal | extended
  deriving DecidableEq

structure Settings where
  addressing : CanAddressing := .normal
  /-- How many fragments a frame may run ahead of the highest one seen. -/
  window : UInt16 := 8
  canIds : IdSet := {}
  canExtendedIds : IdSet := {}
  /-- The first rule that matches an identifier is used. -/
  mappings : List MappingRule := []
  linDiagnostics : Bool := true
  flexRayWidth : AddressWidth := .one
  /-- The bytes after the addresses that first and consecutive frames use; zero is no limit. -/
  flexRaySegmentLimit : UInt32 := 0
  iPduMIds : IdSet := {}
  iPduMWidth : AddressWidth := .zero
  pdus : List PduRule := []
  deriving DecidableEq

namespace Settings

def checkIds (ids : IdSet) (limit : UInt32) (fault : UInt32 → SettingFault) :
    Except SettingFault Unit :=
  match ids.max? with
  | some id => if limit < id then .error (fault id) else .ok ()
  | none => .ok ()

/-- The rules from row `row` on name no PDU twice, and none of those seen before. -/
def checkPdus (row : Nat) (seen : List UInt32) : List PduRule → Except SettingFault Unit
  | [] => .ok ()
  | r :: rules =>
    if r.pdu ∈ seen then .error (.duplicatePdu row r.pdu)
    else checkPdus (row + 1) (r.pdu :: seen) rules

def validate (s : Settings) : Except SettingFault Unit := do
  checkIds s.canIds (Can.idMask false) .standardId
  checkIds s.canExtendedIds (Can.idMask true) .extendedId
  if s.flexRayWidth = .zero then throw .flexRayWidth
  checkPdus 0 [] s.pdus

def mapping? (s : Settings) (extended : Bool) (id : UInt32) : Option MappingRule :=
  s.mappings.find? (·.matchesId extended id)

def pdu? (s : Settings) (pdu : UInt32) : Option PduRule := s.pdus.find? (·.pdu = pdu)

def segmentLimit (s : Settings) (medium : Medium) : Option Nat :=
  if medium = .flexRay ∧ s.flexRaySegmentLimit ≠ 0 then some s.flexRaySegmentLimit.toNat else none

end Settings

end IsoTransport
