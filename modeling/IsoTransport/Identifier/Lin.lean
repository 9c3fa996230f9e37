import IsoTransport.Fault

/-!
LIN identifiers: six bits, protected by two parity bits on the wire.
-/

namespace IsoTransport.Lin

def idMask : UInt8 := 0x3f

/-- Parity over bits 0, 1, 2, 4 in bit 6, and the complement of that over bits 1, 3, 4, 5 in
bit 7. -/
def parityBits (id : UInt8) : UInt8 :=
  let even := (id ^^^ id >>> 1 ^^^ id >>> 2 ^^^ id >>> 4) &&& 1
  let odd := ~~~(id >>> 1 ^^^ id >>> 3 ^^^ id >>> 4 ^^^ id >>> 5) &&& 1
  even <<< 6 ||| odd <<< 7

def protect (id : UInt8) : UInt8 :=
  let id := id &&& idMask
  id ||| parityBits id

def unprotect (pid : UInt8) : Except Fault UInt8 :=
  let id := pid &&& idMask
  if protect id = pid then .ok id else .error (.parity pid)

/-- The master request and the slave response reserved for diagnostics. -/
def isDiagnostic (id : UInt32) : Bool := id = 0x3c || id = 0x3d

end IsoTransport.Lin
