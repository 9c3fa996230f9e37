import IsoTransport.Bytes
import IsoTransport.Medium
import IsoTransport.Identifier.Can
import IsoTransport.Identifier.Lin
import IsoTransport.Identifier.FlexRay

/-!
Captured frames, and the channel on which the frames of one message follow each other.
-/

namespace IsoTransport

/-- The channel of a frame: what the frames of one segmented message have in common. -/
structure Channel where
  medium : Medium
  id : UInt32
  extended : Bool := false
  deriving DecidableEq

namespace Channel

def code (c : Channel) : Nat :=
  (c.id.toNat * 2 + c.extended.toNat) * 6 + c.medium.code

theorem code_inj {c d : Channel} (h : c.code = d.code) : c = d := by
  rcases c with ⟨m, i, e⟩
  rcases d with ⟨n, j, f⟩
  simp only [code] at h
  have hm := m.code_lt
  have hn := n.code_lt
  have he := Bool.toNat_lt e
  have hf := Bool.toNat_lt f
  obtain rfl := Medium.code_inj (m := m) (n := n) (by omega)
  obtain rfl : i = j := UInt32.toNat_inj.mp (by omega)
  have flags : e.toNat = f.toNat := by omega
  obtain rfl : e = f := by
    cases e <;> cases f <;> first | rfl | exact absurd flags (by decide)
  rfl

instance : Ord Channel := ⟨compareOn code⟩

instance : Std.TransOrd Channel := inferInstanceAs (Std.TransCmp (compareOn code))

instance : Std.LawfulEqOrd Channel where
  eq_of_compare h := code_inj (Std.LawfulEqOrd.eq_of_compare (α := Nat) h)

end Channel

structure Frame where
  medium : Medium
  id : UInt32
  flags : Can.Flags := {}
  data : Bytes
  /-- The length the link layer reported, which need not be that of the captured data. -/
  reportedLen : Nat := data.length
  deriving DecidableEq

namespace Frame

def can (id : UInt32) (data : Bytes) : Frame :=
  { medium := .can, id := id &&& Can.idMask false, data }

def canExtended (id : UInt32) (data : Bytes) : Frame :=
  { medium := .can, id := id &&& Can.idMask true, flags := { extended := true }, data }

def canFd (id : UInt32) (data : Bytes) : Frame :=
  { medium := .canFd, id := id &&& Can.idMask false, data }

def ofRawCan (raw : UInt32) (data : Bytes) (fd : Bool) : Frame :=
  let (id, flags) := Can.splitRaw raw
  { medium := if fd then .canFd else .can, id, flags, data }

def lin (id : UInt8) (data : Bytes) : Frame :=
  { medium := .lin, id := (id &&& Lin.idMask).toUInt32, data }

def linProtected (pid : UInt8) (data : Bytes) : Except Fault Frame := do
  let id ← Lin.unprotect pid
  return lin id data

def flexRay (slot : UInt16) (cycle channel : UInt8) (data : Bytes) : Frame :=
  { medium := .flexRay, id := FlexRay.composeId slot cycle channel, data }

def iPduM (pdu : UInt32) (data : Bytes) : Frame := { medium := .iPduM, id := pdu, data }

def pduTransport (pdu : UInt32) (data : Bytes) : Frame := { medium := .pduTransport, id := pdu, data }

def isExtended (f : Frame) : Bool := f.flags.extended

def isData (f : Frame) : Bool := f.flags.isData

/-- The cycle counter of FlexRay is no part of the channel. -/
def channel (f : Frame) : Channel where
  medium := f.medium
  id := if f.medium = .flexRay then FlexRay.withoutCycle f.id else f.id
  extended := f.isExtended

end Frame

end IsoTransport
