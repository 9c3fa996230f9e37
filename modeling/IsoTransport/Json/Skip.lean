import IsoTransport.Json.Number
import IsoTransport.Json.Text

/-!
Values that are read over. The open brackets are kept in a list, so the depth of a value does not
matter.
-/

namespace IsoTransport.Json

inductive Bracket where
  | square | curly
  deriving DecidableEq

def Bracket.closing : Bracket → Char
  | square => ']'
  | curly => '}'

namespace Reader

variable {ε : Type}

def skipKey : Bracket → Reader ε Unit
  | .square => pure ()
  | .curly => do
    expect '"'
    skipText
    expect ':'

/-- After a value inside the brackets: closes those that end here. The answer is the brackets inside
which another value follows, if there is one. -/
def skipClosing : List Bracket → Reader ε (List Bracket)
  | [] => pure []
  | b :: outer => do
    let c ← symbol
    if c = ',' then
      skipKey b
      return b :: outer
    else if c = b.closing then skipClosing outer
    else fail .malformed

def skipScalar (c : Char) : Reader ε Unit :=
  match c with
  | 'n' => word ['n', 'u', 'l', 'l']
  | 't' => word ['t', 'r', 'u', 'e']
  | 'f' => word ['f', 'a', 'l', 's', 'e']
  | '"' => do
    expect '"'
    skipText
  | c => if c = '-' || c.isDigit then discard (lexeme .malformed) else fail .malformed

def bracketOf? : Char → Option Bracket
  | '[' => some .square
  | '{' => some .curly
  | _ => none

/-- Reads over a scalar or an opening bracket. The answer is as in `skipClosing`. -/
def skipStep (outer : List Bracket) : Reader ε (List Bracket) := do
  let c ← peek
  match bracketOf? c with
  | none =>
    skipScalar c
    skipClosing outer
  | some b =>
    expect c
    if (← peek) = b.closing then
      expect b.closing
      skipClosing outer
    else
      skipKey b
      return b :: outer

def skipLoop : Steps → List Bracket → Reader ε Unit
  | [], _ => fail .malformed
  | _ :: steps, outer => do
    match ← skipStep outer with
    | [] => pure ()
    | inner => skipLoop steps inner

def skipValue : Reader ε Unit := withSteps fun steps => skipLoop steps []

end Reader

end IsoTransport.Json
