import IsoTransport.Text.Hex

/-!
Documents as values, and their written form: one item a line, indented by two blanks a level.
-/

namespace IsoTransport.Json

inductive Value where
  | null
  | boolean (b : Bool)
  | number (n : Nat)
  | text (s : String)
  | sequence (items : List Value)
  | map (fields : List (String × Value))

/-! ### Text -/

/-- Quotes, backslashes and controls are escaped. -/
def escapeChar (c : Char) : List Char :=
  match c with
  | '"' => ['\\', '"']
  | '\\' => ['\\', '\\']
  | '\x08' => ['\\', 'b']
  | '\x0c' => ['\\', 'f']
  | '\n' => ['\\', 'n']
  | '\r' => ['\\', 'r']
  | '\t' => ['\\', 't']
  | c =>
    if c.toNat < 0x10 then ['\\', 'u', '0', '0', '0'] ++ Text.hexDigits c.toNat
    else if c.toNat < 0x20 then ['\\', 'u', '0', '0'] ++ Text.hexDigits c.toNat
    else [c]

def writeText (s : String) : List Char := '"' :: s.toList.flatMap escapeChar ++ ['"']

/-! ### Values -/

def newline (level : Nat) : List Char := '\n' :: List.replicate (2 * level) ' '

mutual

def Value.write (level : Nat) : Value → List Char
  | .null => ['n', 'u', 'l', 'l']
  | .boolean true => ['t', 'r', 'u', 'e']
  | .boolean false => ['f', 'a', 'l', 's', 'e']
  | .number n => Nat.toDigits 10 n
  | .text s => writeText s
  | .sequence [] => ['[', ']']
  | .sequence (item :: items) =>
      '[' :: newline (level + 1) ++ item.write (level + 1) ++ writeItems (level + 1) items
        ++ newline level ++ [']']
  | .map [] => ['{', '}']
  | .map ((name, value) :: fields) =>
      '{' :: newline (level + 1) ++ writeText name ++ ':' :: ' ' :: value.write (level + 1)
        ++ writeFields (level + 1) fields ++ newline level ++ ['}']

def writeItems (level : Nat) : List Value → List Char
  | [] => []
  | item :: items => ',' :: newline level ++ item.write level ++ writeItems level items

def writeFields (level : Nat) : List (String × Value) → List Char
  | [] => []
  | (name, value) :: fields =>
      ',' :: newline level ++ writeText name ++ ':' :: ' ' :: value.write level
        ++ writeFields level fields

end

def Value.pretty (v : Value) : String := String.ofList (v.write 0)

end IsoTransport.Json
