import IsoTransport.Json.Reader

/-!
Numbers of a document. A lexeme holds the digits as they are written; it stands for an integer if it
is written as one and has 64 bits, otherwise for a floating point value.
-/

namespace IsoTransport.Json

structure Exponent where
  negative : Bool
  digits : List Nat
  deriving DecidableEq

structure Lexeme where
  negative : Bool
  whole : List Nat
  fraction : List Nat := []
  exponent : Option Exponent := none
  deriving DecidableEq

/-! ### Reading the digits -/

namespace Reader

variable {ε : Type}

def digitValue (c : Char) : Nat := c.toNat - '0'.toNat

def digits (early : Fault ε) : Reader ε (List Nat) := do
  let c ← next early
  if c.isDigit then
    modifyGet fun cs =>
      ((c :: cs.takeWhile Char.isDigit).map digitValue, cs.dropWhile Char.isDigit)
  else fail .malformed

def exponent (early : Fault ε) : Reader ε Exponent := do
  let negative ← takes (· = '-')
  let _ ← if negative then pure false else takes (· = '+')
  return { negative, digits := ← digits early }

/-- A number without needless zeros in front; `early` is the fault of a text that ends inside it. -/
def lexeme (early : Fault ε) : Reader ε Lexeme := do
  let negative ← takes (· = '-')
  let whole ← digits early
  if whole.head? = some 0 ∧ 1 < whole.length then fail .malformed
  let fraction ← if ← takes (· = '.') then digits early else pure []
  let exponent ← if ← takes (fun c => c = 'e' || c = 'E') then some <$> exponent early else pure none
  return { negative, whole, fraction, exponent }

end Reader

/-! ### The value -/

def Exponent.value (e : Exponent) : Int :=
  let n : Nat := e.digits.foldl (fun n d => 10 * n + d) 0
  if e.negative then -n else n

namespace Lexeme

/-- Appends digits while the number stays below `2 ^ 64`, and counts those that are left out. -/
def gather (n : Nat) : List Nat → Nat × Nat
  | [] => (n, 0)
  | d :: ds => if 10 * n + d < UInt64.size then gather (10 * n + d) ds else (n, ds.length + 1)

/-- A negative integer is one that has 63 bits and is not zero. -/
def value? (x : Lexeme) : Option Found := do
  let (n, dropped) := gather 0 x.whole
  let float (n : Nat) (e : Int) := do
    return Found.float x.negative (← Text.Binary64.ofScientific? n e)
  match x.fraction, x.exponent with
  | [], none =>
    if dropped = 0 ∧ !x.negative then return .integer n
    else if dropped = 0 ∧ 0 < n ∧ n ≤ 1 <<< 63 then return .integer (-n)
    else float n dropped
  | fraction, exponent =>
    let (m, unread) := gather n fraction
    let written : Int := (exponent.map Exponent.value).getD 0
    float m (written + dropped + unread - fraction.length)

end Lexeme

end IsoTransport.Json
