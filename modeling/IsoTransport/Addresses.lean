import IsoTransport.Text.Hex

/-!
The logical addresses of a frame: none, one that stands for both ends, or a source and a target.
-/

namespace IsoTransport

inductive Addresses where
  | unresolved
  | single (address : UInt32)
  | pair (source target : UInt32)
  deriving DecidableEq

namespace Addresses

/-- The value shown for an address that is not known. -/
def unknown : UInt32 := 0xffffffff

def source : Addresses → UInt32
  | unresolved => unknown
  | single a => a
  | pair s _ => s

def target : Addresses → UInt32
  | unresolved => unknown
  | single a => a
  | pair _ t => t

def count : Addresses → Nat
  | unresolved => 0
  | single _ => 1
  | pair _ _ => 2

def text : Addresses → String
  | unresolved => "unresolved"
  | single a => Text.hex a.toNat
  | pair s t => Text.hex s.toNat ++ " -> " ++ Text.hex t.toNat

end Addresses

end IsoTransport
