import IsoTransport.Json.Skip

/-!
Readers for values of a wanted type. Where another value stands, its first part is read to say what
it is: a scalar as a whole, of a sequence or a map only the bracket.
-/

namespace IsoTransport.Json.Reader

variable {ε α : Type}

def number : Reader ε Found := do
  match (← lexeme .unfinished).value? with
  | some found => return found
  | none => fail .malformed

def startsNumber (c : Char) : Bool := c = '-' || c.isDigit

def found : Reader ε Found := do
  match ← peek with
  | 'n' => word ['n', 'u', 'l', 'l'] *> pure .null
  | 't' => word ['t', 'r', 'u', 'e'] *> pure (.boolean true)
  | 'f' => word ['f', 'a', 'l', 's', 'e'] *> pure (.boolean false)
  | '"' => do
    expect '"'
    return .text (← textBody)
  | '[' => return .sequence
  | '{' => return .map
  | c => if startsNumber c then number else fail .malformed

def mismatch (wanted : Wanted) : Reader ε α := do
  fail (.mismatch (← found) wanted)

def unsigned (bits : Nat) : Reader ε Nat := do
  if startsNumber (← peek) then
    match ← number with
    | .integer n =>
      if 0 ≤ n ∧ n < Nat.pow 2 bits then return n.toNat else fail (.outOfRange n (.unsigned bits))
    | other => fail (.mismatch other (.unsigned bits))
  else mismatch (.unsigned bits)

def boolean : Reader ε Bool := do
  match ← peek with
  | 't' => word ['t', 'r', 'u', 'e'] *> pure true
  | 'f' => word ['f', 'a', 'l', 's', 'e'] *> pure false
  | _ => mismatch .boolean

def text : Reader ε String := do
  if (← peek) = '"' then
    expect '"'
    textBody
  else mismatch .text

/-- `null`, or a value of the given kind. -/
def optional (r : Reader ε α) : Reader ε (Option α) := do
  if (← peek) = 'n' then word ['n', 'u', 'l', 'l'] *> pure none
  else some <$> r

/-! ### Choices -/

/-- One of the given names. Where a name has to stand, anything but text breaks the grammar and is
not told as a mismatch. -/
def variant (choices : List (String × α)) : Reader ε α := do
  expect '"'
  let name ← textBody
  match choices.lookup name with
  | some a => return a
  | none => fail (.unknownVariant name (choices.map (·.1)))

/-- A name, or an object that holds `null` under a name and nothing else. -/
def choice (choices : List (String × α)) : Reader ε α := do
  match ← peek with
  | '"' => variant choices
  | '{' => do
    expect '{'
    let a ← variant choices
    expect ':'
    if (← peek) = 'n' then word ['n', 'u', 'l', 'l'] else mismatch .null
    expect '}'
    return a
  | _ => fail .malformed

/-! ### Sequences -/

/-- After a comma there must be something other than the closing bracket. -/
def afterComma (closing : Char) : Reader ε Unit := do
  if (← peek) = closing then fail .malformed

def moreItems (item : Reader ε α) : Steps → Reader ε (List α)
  | [] => fail .malformed
  | _ :: steps => do
    match ← symbol with
    | ']' => return []
    | ',' => do
      afterComma ']'
      let a ← item
      return a :: (← moreItems item steps)
    | _ => fail .malformed

def sequence (item : Reader ε α) : Reader ε (List α) := do
  if (← peek) ≠ '[' then mismatch .sequence
  else
    expect '['
    if (← peek) = ']' then
      expect ']'
      return []
    else
      let a ← item
      return a :: (← withSteps (moreItems item))

end Reader

end IsoTransport.Json
