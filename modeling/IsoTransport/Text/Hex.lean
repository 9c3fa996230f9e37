/-!
Numbers in base sixteen, as messages and identifier lists show them.
-/

namespace IsoTransport.Text

def hexDigits (n : Nat) : List Char := Nat.toDigits 16 n

def hex (n : Nat) : String := String.ofList ('0' :: 'x' :: hexDigits n)

def hexByte (b : UInt8) : String :=
  String.ofList ('0' :: 'x' :: (if b < 16 then ['0'] else []) ++ hexDigits b.toNat)

def digitValue? (c : Char) : Option Nat :=
  if '0' ≤ c ∧ c ≤ '9' then some (c.toNat - '0'.toNat)
  else if 'a' ≤ c ∧ c ≤ 'f' then some (c.toNat - 'a'.toNat + 10)
  else if 'A' ≤ c ∧ c ≤ 'F' then some (c.toNat - 'A'.toNat + 10)
  else none

/-- The value of `c` as a digit of base `base`, at most sixteen, in either case. -/
def digitOf? (base : Nat) (c : Char) : Option Nat :=
  (digitValue? c).filter (· < base)

def readDigits? (base : Nat) (cs : List Char) : Option Nat :=
  if cs.isEmpty then none
  else (cs.mapM (digitOf? base)).map (·.foldl (fun n d => base * n + d) 0)

end IsoTransport.Text
