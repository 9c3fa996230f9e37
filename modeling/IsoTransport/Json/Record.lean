import IsoTransport.Json.Typed

/-!
Readers for records: objects with known fields, each at most once and in any order, or sequences of
the values in the order of the fields. What is not written keeps its default.
-/

namespace IsoTransport.Json

structure Field (ε σ : Type) where
  name : String
  read : Reader ε (σ → σ)

namespace Field

variable {ε σ α : Type}

def of (name : String) (value : Reader ε α) (put : σ → α → σ) : Field ε σ where
  name
  read := do
    let a ← value
    return fun s => put s a

end Field

structure RecordShape (ε σ : Type) where
  name : String
  fields : List (Field ε σ)
  /-- Whether fields that are not known are read over. -/
  lenient : Bool
  default : σ

namespace Reader

variable {ε σ : Type}

/-- One field with its value: a name that is not known, or that was there before, is refused where
it stands. -/
def fieldOf (shape : RecordShape ε σ) (seen : List String) (s : σ) : Reader ε (List String × σ) := do
  expect '"'
  let name ← textBody
  match shape.fields.find? (·.name = name) with
  | some field =>
    if name ∈ seen then fail (.duplicateField name)
    expect ':'
    let update ← field.read
    return (name :: seen, update s)
  | none =>
    if !shape.lenient then fail (.unknownField name (shape.fields.map (·.name)))
    expect ':'
    skipValue
    return (seen, s)

def moreFields (shape : RecordShape ε σ) : Steps → List String → σ → Reader ε σ
  | [], _, _ => fail .malformed
  | _ :: steps, seen, s => do
    match ← symbol with
    | '}' => return s
    | ',' => do
      let (seen, s) ← fieldOf shape seen s
      moreFields shape steps seen s
    | _ => fail .malformed

def objectOf (shape : RecordShape ε σ) : Reader ε σ := do
  expect '{'
  if (← peek) = '}' then
    expect '}'
    return shape.default
  else
    let (seen, s) ← fieldOf shape [] shape.default
    withSteps fun steps => moreFields shape steps seen s

def moreValues : List (Field ε σ) → σ → Reader ε σ
  | [], s => do
    expect ']'
    return s
  | field :: fields, s => do
    match ← symbol with
    | ']' => return s
    | ',' => do
      afterComma ']'
      let update ← field.read
      moreValues fields (update s)
    | _ => fail .malformed

def valuesOf (shape : RecordShape ε σ) : Reader ε σ := do
  expect '['
  if (← peek) = ']' then
    expect ']'
    return shape.default
  else
    match shape.fields with
    | [] => fail .malformed
    | field :: fields =>
      let update ← field.read
      moreValues fields (update shape.default)

def record (shape : RecordShape ε σ) : Reader ε σ := do
  match ← peek with
  | '{' => objectOf shape
  | '[' => valuesOf shape
  | _ => mismatch (.record shape.name)

end Reader

end IsoTransport.Json
