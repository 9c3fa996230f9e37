import IsoTransport.Text.Hex
import IsoTransport.Text.Hidden

/-!
Text between quotes, as fault messages show it.
-/

namespace IsoTransport.Text

/-- A quote, a backslash and the usual controls have an escape of their own, hidden characters are
shown by their number, all else stands for itself. -/
def quoteChar (c : Char) : List Char :=
  match c with
  | '"' => ['\\', '"']
  | '\\' => ['\\', '\\']
  | '\n' => ['\\', 'n']
  | '\r' => ['\\', 'r']
  | '\t' => ['\\', 't']
  | '\x00' => ['\\', '0']
  | c => if isHidden c then ['\\', 'u', '{'] ++ hexDigits c.toNat ++ ['}'] else [c]

def quoted (s : String) : String := String.ofList ('"' :: s.toList.flatMap quoteChar ++ ['"'])

end IsoTransport.Text
