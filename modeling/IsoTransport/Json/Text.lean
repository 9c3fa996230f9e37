import IsoTransport.Json.Reader
import IsoTransport.Text.Hex

/-!
Text of a document, after its opening quote. Controls may only be written as escapes; a character
beyond sixteen bits is written as two units.
-/

namespace IsoTransport.Json.Reader

variable {ε : Type}

def letterEscape? : Char → Option Char
  | '"' => some '"'
  | '\\' => some '\\'
  | '/' => some '/'
  | 'b' => some '\x08'
  | 'f' => some '\x0c'
  | 'n' => some '\n'
  | 'r' => some '\r'
  | 't' => some '\t'
  | _ => none

/-- The four digits of a unit. The text ends too early if it has not even four bytes left. -/
def unit : Reader ε Nat := fun cs =>
  let four := cs.take 4
  if (String.ofList four).utf8ByteSize < 4 then .error .unfinished
  else match IsoTransport.Text.readDigits? 16 four with
    | some n => .ok (n, cs.drop 4)
    | none => .error .malformed

def isLeading (n : Nat) : Bool := 0xd800 ≤ n && n ≤ 0xdbff

def isTrailing (n : Nat) : Bool := 0xdc00 ≤ n && n ≤ 0xdfff

/-- A character written by its number: a leading unit needs a trailing one behind it, and a trailing
unit does not stand alone. -/
def numericEscape : Reader ε Char := do
  let n ← unit
  if isTrailing n then fail .malformed
  else if isLeading n then
    word ['\\', 'u']
    let m ← unit
    if isTrailing m then return Char.ofNat (0x10000 + (n - 0xd800) * 0x400 + (m - 0xdc00))
    else fail .malformed
  else return Char.ofNat n

def escape : Reader ε Char := do
  let c ← next .unfinished
  if c = 'u' then numericEscape
  else match letterEscape? c with
    | some d => return d
    | none => fail .malformed

def textLoop : Steps → List Char → Reader ε (List Char)
  | [], _ => fail .unfinished
  | _ :: steps, acc => do
    let c ← next .unfinished
    if c = '"' then return acc
    else if c = '\\' then textLoop steps ((← escape) :: acc)
    else if c.toNat < 0x20 then fail .malformed
    else textLoop steps (c :: acc)

def textBody : Reader ε String := do
  let cs ← withSteps fun steps => textLoop steps []
  return String.ofList cs.reverse

/-! ### Text that is not kept -/

/-- Units of an escape are not paired. -/
def skipEscape : Reader ε Unit := do
  let c ← next .unfinished
  if c = 'u' then let _ ← unit
  else if (letterEscape? c).isNone then fail .malformed

def skipTextLoop : Steps → Reader ε Unit
  | [] => fail .unfinished
  | _ :: steps => do
    let c ← next .unfinished
    if c = '"' then pure ()
    else if c = '\\' then
      skipEscape
      skipTextLoop steps
    else if c.toNat < 0x20 then fail .malformed
    else skipTextLoop steps

def skipText : Reader ε Unit := withSteps skipTextLoop

end IsoTransport.Json.Reader
