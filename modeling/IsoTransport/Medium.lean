import Std.Data.TreeMap

/-!
The media that carry transport frames.
-/

namespace IsoTransport

inductive Medium where
  | can | canFd | lin | flexRay | iPduM | pduTransport
  deriving DecidableEq

namespace Medium

def all : List Medium := [.can, .canFd, .lin, .flexRay, .iPduM, .pduTransport]

/-- The spelling in settings documents. -/
def key : Medium → String
  | can => "can"
  | canFd => "can_fd"
  | lin => "lin"
  | flexRay => "flex_ray"
  | iPduM => "ipdum"
  | pduTransport => "pdu_transport"

/-- The spelling for people. -/
def title : Medium → String
  | can => "CAN"
  | canFd => "CAN-FD"
  | lin => "LIN"
  | flexRay => "FlexRay"
  | iPduM => "I-PduM"
  | pduTransport => "PDU-Transport"

def isCan (m : Medium) : Bool := m = can || m = canFd

def code : Medium → Nat
  | can => 0
  | canFd => 1
  | lin => 2
  | flexRay => 3
  | iPduM => 4
  | pduTransport => 5

theorem code_inj {m n : Medium} (h : m.code = n.code) : m = n := by
  cases m <;> cases n <;> first | rfl | exact absurd h (by decide)

theorem code_lt (m : Medium) : m.code < 6 := by cases m <;> decide

end Medium

end IsoTransport
