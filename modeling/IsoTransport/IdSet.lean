import IsoTransport.Text.Blank
import IsoTransport.Fault

/-!
Sets of identifiers, kept as the ranges they are written with, as in `0x7e0-0x7ef,0x7df`.
-/

namespace IsoTransport

structure IdRange where
  first : UInt32
  last : UInt32
  deriving DecidableEq

namespace IdRange

def contains (r : IdRange) (id : UInt32) : Bool := r.first ≤ id && id ≤ r.last

/-- A range of one identifier is written as that identifier. -/
def text (r : IdRange) : String :=
  if r.first = r.last then Text.hex r.first.toNat
  else Text.hex r.first.toNat ++ "-" ++ Text.hex r.last.toNat

/-- A number is decimal, or hexadecimal after a mark; a plus sign may stand before the digits. -/
def readId? (cs : List Char) : Option UInt32 := do
  let (base, digits) := match Text.trim cs with
    | '0' :: 'x' :: digits | '0' :: 'X' :: digits => (16, digits)
    | digits => (10, digits)
  let n ← Text.readDigits? base (if digits.head? = some '+' then digits.drop 1 else digits)
  if n < UInt32.size then some (UInt32.ofNat n) else none

/-- An identifier, or the two ends of a range around the first dash. -/
def read? (part : List Char) : Option IdRange :=
  match part.span (· ≠ '-') with
  | (_, []) => (readId? part).map fun id => ⟨id, id⟩
  | (first, _ :: last) => do
    let range : IdRange := ⟨← readId? first, ← readId? last⟩
    if range.first ≤ range.last then some range else none

end IdRange

structure IdSet where
  ranges : List IdRange := []
  deriving DecidableEq

namespace IdSet

def contains (s : IdSet) (id : UInt32) : Bool := s.ranges.any (·.contains id)

def isEmpty (s : IdSet) : Bool := s.ranges.isEmpty

def max? (s : IdSet) : Option UInt32 := (s.ranges.map (·.last)).max?

def text (s : IdSet) : String := ",".intercalate (s.ranges.map IdRange.text)

def parts : List Char → List (List Char)
  | [] => [[]]
  | c :: cs =>
    if c = ',' then [] :: parts cs
    else match parts cs with
      | [] => [[c]]
      | part :: rest => (c :: part) :: rest

/-- Reads the ranges between the commas; blanks around a part, and blank parts, mean nothing. -/
def read (text : String) : Except SettingFault IdSet := do
  let written := ((parts text.toList).map Text.trim).filter (!·.isEmpty)
  let ranges ← written.mapM fun part =>
    match IdRange.read? part with
    | some range => .ok range
    | none => .error (.invalidRange (String.ofList part))
  return ⟨ranges⟩

end IdSet

end IsoTransport
