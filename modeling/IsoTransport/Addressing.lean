import IsoTransport.Frame
import IsoTransport.Settings.Basic

/-!
Finding the addresses of a frame: in its identifier, in bytes in front of the control information,
or in a table. `Frame.locate` never fails; addresses it cannot find are unresolved, and the bytes
set apart for them are counted all the same.
-/

namespace IsoTransport

inductive AddressingFormat where
  | normal
  | extended
  | identifier (wide : Bool) (id : UInt32)
  /-- Source and target, of the same width. -/
  | sourceTarget (width : Nat)
  | pdu (layout : AddressLayout)
  deriving DecidableEq

/-- The addresses of a frame, and the number of bytes set apart for them. -/
structure Location where
  addresses : Addresses
  length : Nat
  deriving DecidableEq

namespace AddressingFormat

/-- The format of a medium; on CAN, and on I-PduM without addresses of its own, it depends on the
addressing of CAN. -/
def ofFrame (frame : Frame) (settings : Settings) : AddressingFormat :=
  match frame.medium with
  | .flexRay => sourceTarget settings.flexRayWidth.bytes
  | .pduTransport =>
    pdu (((settings.pdu? frame.id).map (·.layout)).getD .unaddressed)
  | .lin => extended
  | .iPduM =>
    if settings.iPduMWidth ≠ .zero then sourceTarget settings.iPduMWidth.bytes
    else if settings.addressing = .extended then extended
    else normal
  | .can | .canFd =>
    if settings.addressing = .extended then extended
    else identifier frame.isExtended (frame.id &&& Can.idMask frame.isExtended)

end AddressingFormat

def addressAt? (data : Bytes) (start width : Nat) : Option UInt32 :=
  (data.slice? start width).map (UInt32.ofNat ·.bigEndian)

namespace AddressSource

def width : AddressSource → Nat
  | encoded w => w.bytes
  | fixed _ => 0

def read? (s : AddressSource) (data : Bytes) (start : Nat) : Option UInt32 :=
  match s with
  | encoded w => addressAt? data start w.bytes
  | fixed a => some a

end AddressSource

namespace Addresses

def ofSingle? (a : Option UInt32) : Addresses := (a.map single).getD unresolved

/-- Both addresses, or none of them. -/
def ofPair? : Option UInt32 → Option UInt32 → Addresses
  | some s, some t => pair s t
  | _, _ => unresolved

end Addresses

def AddressLayout.locate (data : Bytes) : AddressLayout → Location
  | unaddressed => ⟨.unresolved, 0⟩
  | single e => ⟨.ofSingle? (e.read? data 0), e.width⟩
  | pair s t => ⟨.ofPair? (s.read? data 0) (t.read? data s.width), s.width + t.width⟩

def AddressingFormat.locate (format : AddressingFormat) (data : Bytes) (settings : Settings) :
    Location :=
  match format with
  | normal => ⟨.unresolved, 0⟩
  | extended => ⟨.ofSingle? (addressAt? data 0 1), 1⟩
  | identifier wide id =>
    ⟨((settings.mapping? wide id).map (·.addresses id)).getD .unresolved, 0⟩
  | sourceTarget width =>
    ⟨.ofPair? (addressAt? data 0 width) (addressAt? data width width), 2 * width⟩
  | pdu layout => layout.locate data

def Frame.locate (frame : Frame) (settings : Settings) : Location :=
  (AddressingFormat.ofFrame frame settings).locate frame.data settings

end IsoTransport
