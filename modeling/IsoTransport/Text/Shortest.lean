import IsoTransport.Text.Binary64

/-!
The decimal text of a floating point value: the fewest digits that read back as the value, and of
those the ones nearest to it.
-/

namespace IsoTransport.Text

namespace Binary64

/-- The width of one step of the grid of multiples of `10 ^ k`, and a quarter of the unit of `x`,
both in the same units. -/
def gridSteps (x : Binary64) (k : Int) : Nat × Nat :=
  (Nat.pow 10 k.toNat <<< (2 - x.exponent).toNat, Nat.pow 10 (-k).toNat <<< (x.exponent - 2).toNat)

/-- Whether `c * 10 ^ k` is rounded to `x`. The ends of the interval count if the mantissa is even,
and the interval is half as wide below a power of two. -/
def readsBack (x : Binary64) (k : Int) (c : Nat) : Bool :=
  let (step, unit) := x.gridSteps k
  let below := if x.mantissa = 1 <<< 52 ∧ -1074 < x.exponent then 1 else 2
  let low := (4 * x.mantissa - below) * unit
  let high := (4 * x.mantissa + 2) * unit
  if x.mantissa % 2 = 0 then low ≤ c * step && c * step ≤ high
  else low < c * step && c * step < high

/-- The multiple of `10 ^ k` that reads back as `x`: of two, the nearer one, and of two as near,
the even one. -/
def onGrid? (x : Binary64) (k : Int) : Option Nat :=
  let (step, unit) := x.gridSteps k
  let value := 4 * x.mantissa * unit
  let c := value / step
  match x.readsBack k c, x.readsBack k (c + 1) with
  | false, false => none
  | true, false => some c
  | false, true => some (c + 1)
  | true, true => some (roundDiv value step)

/-- The coarsest grid, from `10 ^ k` down, with a point that reads back. -/
def coarsest (x : Binary64) : (tries : Nat) → (k : Int) → Nat × Int
  | 0, k => (0, k)
  | tries + 1, k =>
    match x.onGrid? k with
    | some c => (c, k)
    | none => coarsest x tries (k - 1)

def shortest (x : Binary64) : Nat × Int := x.coarsest 700 309

end Binary64

/-- The text of a value: digits around a point from `10 ^ -5` up to `10 ^ 16`, otherwise one digit
before the point and an exponent with its sign. -/
def floatText (negative : Bool) (x : Binary64) : String :=
  let sign := if negative then "-" else ""
  if x.isZero then sign ++ "0.0"
  else
    let (c, k) := x.shortest
    let digits := Nat.toDigits 10 c
    let point : Int := digits.length + k
    let body :=
      if 0 ≤ k ∧ point ≤ 16 then digits ++ List.replicate k.toNat '0' ++ ['.', '0']
      else if 0 < point ∧ point ≤ 16 then
        digits.take point.toNat ++ '.' :: digits.drop point.toNat
      else if -5 < point ∧ point ≤ 0 then
        '0' :: '.' :: List.replicate (-point).toNat '0' ++ digits
      else
        let fraction := if digits.length = 1 then [] else '.' :: digits.drop 1
        let e := point - 1
        digits.take 1 ++ fraction ++ 'e' :: (if e < 0 then '-' else '+') :: Nat.toDigits 10 e.natAbs
    sign ++ String.ofList body

end IsoTransport.Text
