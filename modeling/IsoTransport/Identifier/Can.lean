/-!
CAN identifiers: eleven bits, or twenty-nine in an extended frame. A raw identifier carries three
flags in its upper bits.
-/

namespace IsoTransport.Can

structure Flags where
  extended : Bool := false
  remote : Bool := false
  error : Bool := false
  deriving DecidableEq

namespace Flags

def ofRaw (raw : UInt32) : Flags where
  extended := raw &&& 0x80000000 != 0
  remote := raw &&& 0x40000000 != 0
  error := raw &&& 0x20000000 != 0

def toRaw (f : Flags) : UInt32 :=
  (if f.extended then 0x80000000 else 0) ||| (if f.remote then 0x40000000 else 0)
    ||| (if f.error then 0x20000000 else 0)

/-- Remote and error frames carry no data. -/
def isData (f : Flags) : Bool := !f.remote && !f.error

theorem ofRaw_toRaw (f : Flags) : ofRaw f.toRaw = f := by
  rcases f with ⟨_ | _, _ | _, _ | _⟩ <;> rfl

end Flags

def idMask (extended : Bool) : UInt32 := if extended then 0x1fffffff else 0x7ff

def classicLimit : Nat := 8

def splitRaw (raw : UInt32) : UInt32 × Flags :=
  let flags := Flags.ofRaw raw
  (raw &&& idMask flags.extended, flags)

end IsoTransport.Can
