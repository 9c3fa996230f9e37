/-!
Binary floating point with 53 bits of precision, in exact arithmetic. `ofRatio?` rounds a quotient
to the nearest value, a tie to the even neighbour; products and quotients are rounded once.
-/

namespace IsoTransport.Text

/-- The value `mantissa * 2 ^ exponent`. -/
structure Binary64 where
  mantissa : Nat
  exponent : Int
  deriving DecidableEq

namespace Binary64

def zero : Binary64 := ⟨0, -1074⟩

def isZero (x : Binary64) : Bool := x.mantissa = 0

/-- The integer nearest to `num / den`, of two the even one. -/
def roundDiv (num den : Nat) : Nat :=
  let q := num / den
  let r := num % den
  if den < 2 * r ∨ (2 * r = den ∧ q % 2 = 1) then q + 1 else q

/-- `num / den`, counted in units of `2 ^ e`. -/
def scaled (num den : Nat) (e : Int) : Nat × Nat :=
  (num <<< (-e).toNat, den <<< e.toNat)

def ofRatio? (num den : Nat) : Option Binary64 :=
  if num = 0 then some zero
  else
    let low : Int := (num.log2 : Int) - den.log2 - 53
    let (n, d) := scaled num den low
    let e := max (-1074) (if d <<< 53 ≤ n then low + 1 else low)
    let (n, d) := scaled num den e
    let m := roundDiv n d
    let x : Binary64 := if m = 1 <<< 53 then ⟨1 <<< 52, e + 1⟩ else ⟨m, e⟩
    if 971 < x.exponent then none else some x

def ratio (x : Binary64) : Nat × Nat :=
  (x.mantissa <<< x.exponent.toNat, 1 <<< (-x.exponent).toNat)

def mul? (x y : Binary64) : Option Binary64 :=
  ofRatio? (x.ratio.1 * y.ratio.1) (x.ratio.2 * y.ratio.2)

def div? (x y : Binary64) : Option Binary64 :=
  ofRatio? (x.ratio.1 * y.ratio.2) (x.ratio.2 * y.ratio.1)

def ten (n : Nat) : Binary64 := (ofRatio? (Nat.pow 10 n) 1).getD zero

/-- `x / 10 ^ n`, in steps of at most `10 ^ 308`, each of them rounded. -/
def divTen (x : Binary64) (n : Nat) : Binary64 :=
  if n ≤ 308 then (x.div? (ten n)).getD zero
  else if x.isZero then x
  else divTen ((x.div? (ten 308)).getD zero) (n - 308)
  termination_by n

/-- `n * 10 ^ e`, where `n` is rounded first, unless it is beyond the greatest value. -/
def ofScientific? (n : Nat) (e : Int) : Option Binary64 := do
  let x ← ofRatio? n 1
  if e < 0 then return x.divTen (-e).toNat
  else if e ≤ 308 then x.mul? (ten e.toNat)
  else if x.isZero then return x
  else none

end Binary64

end IsoTransport.Text
