import Std.Data.TreeMap
import IsoTransport.Addresses
import IsoTransport.Bytes
import IsoTransport.Medium

/-!
Handing complete payloads to decoders. A PDU is first offered to the decoder of its identifier, then,
like all other payloads, to the decoder of its medium; what no decoder takes is collected.
-/

namespace IsoTransport

structure Message where
  payload : Bytes
  addresses : Addresses
  medium : Medium
  id : UInt32
  /-- The length the single or first frame announced. -/
  declared : Nat
  /-- The segmented message it was rebuilt from. -/
  transfer : Option UInt32
  deriving DecidableEq

/-- A decoder answers whether a message is for it. What it remembers between messages is part of
`σ`, which all decoders share; its name is no part of that and stays the same. -/
structure Decoder (σ : Type) where
  name : String
  decode : Message → σ → Bool × σ

inductive Route where
  | medium (m : Medium)
  | pdu (id : UInt32)
  deriving DecidableEq

namespace Route

def code : Route → Nat
  | medium m => m.code
  | pdu id => 6 + id.toNat

theorem code_inj {a b : Route} (h : a.code = b.code) : a = b := by
  cases a with
  | medium m =>
    cases b with
    | medium n => exact congrArg medium (Medium.code_inj h)
    | pdu id => have := m.code_lt; simp only [code] at h; omega
  | pdu id =>
    cases b with
    | medium n => have := n.code_lt; simp only [code] at h; omega
    | pdu other => exact congrArg pdu (UInt32.toNat_inj.mp (by simp only [code] at h; omega))

instance : Ord Route := ⟨compareOn code⟩

instance : Std.TransOrd Route := inferInstanceAs (Std.TransCmp (compareOn code))

instance : Std.LawfulEqOrd Route where
  eq_of_compare h := code_inj (Std.LawfulEqOrd.eq_of_compare (α := Nat) h)

end Route

inductive Destination where
  | decoder (name : String)
  | data
  deriving DecidableEq

structure Router (σ : Type) where
  decoders : Std.TreeMap Route (Decoder σ) := ∅
  memory : σ
  /-- The messages that no decoder took, in their order. -/
  unclaimed : List Message := []

namespace Router

variable {σ : Type}

/-- Registers a decoder; the answer is the one it replaces. -/
def insert (r : Router σ) (route : Route) (decoder : Decoder σ) : Option (Decoder σ) × Router σ :=
  (r.decoders[route]?, { r with decoders := r.decoders.insert route decoder })

def erase (r : Router σ) (route : Route) : Option (Decoder σ) × Router σ :=
  (r.decoders[route]?, { r with decoders := r.decoders.erase route })

/-- The routes of a message, the most specific one first. -/
def routes (m : Message) : List Route :=
  match m.medium with
  | .pduTransport | .iPduM => [.pdu m.id, .medium m.medium]
  | medium => [.medium medium]

def candidates (r : Router σ) (m : Message) : List (Decoder σ) :=
  (routes m).filterMap (r.decoders[·]?)

def offer (m : Message) : List (Decoder σ) → σ → Option String × σ
  | [], s => (none, s)
  | decoder :: decoders, s =>
    match decoder.decode m s with
    | (true, s) => (some decoder.name, s)
    | (false, s) => offer m decoders s

def collect (r : Router σ) (m : Message) : Router σ := { r with unclaimed := r.unclaimed ++ [m] }

def deliver (r : Router σ) (m : Message) : Destination × Router σ :=
  let (taken, memory) := offer m (r.candidates m) r.memory
  let r := { r with memory }
  match taken with
  | some name => (.decoder name, r)
  | none => (.data, r.collect m)

theorem deliver_decoders (r : Router σ) (m : Message) : (r.deliver m).2.decoders = r.decoders := by
  unfold deliver
  dsimp only
  split <;> rfl

def takeUnclaimed (r : Router σ) : List Message × Router σ :=
  (r.unclaimed, { r with unclaimed := [] })

end Router

end IsoTransport
