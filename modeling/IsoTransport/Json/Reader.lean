import IsoTransport.Json.Fault

/-!
Readers: functions that take characters from the front of a text. The first fault on the way ends
the reading, so of two faults in a document the earlier one is reported.
-/

namespace IsoTransport.Json

abbrev Reader (ε α : Type) := StateT (List Char) (Except (Fault ε)) α

def isBlank (c : Char) : Bool := c = ' ' || c = '\n' || c = '\t' || c = '\r'

namespace Reader

variable {ε α β : Type}

def fail (f : Fault ε) : Reader ε α := fun _ => .error f

/-- The next character; `early` is the fault of a text without one. -/
def next (early : Fault ε) : Reader ε Char
  | [] => .error early
  | c :: cs => .ok (c, cs)

def takes (p : Char → Bool) : Reader ε Bool
  | [] => .ok (false, [])
  | c :: cs => .ok (if p c then (true, cs) else (false, c :: cs))

/-- The next character after blanks, which stays in place. -/
def peek : Reader ε Char := fun cs =>
  match cs.dropWhile Json.isBlank with
  | [] => .error .unfinished
  | c :: rest => .ok (c, c :: rest)

def symbol : Reader ε Char := fun cs =>
  match cs.dropWhile Json.isBlank with
  | [] => .error .unfinished
  | c :: rest => .ok (c, rest)

def expect (c : Char) : Reader ε Unit := do
  if (← symbol) = c then pure () else fail .malformed

def word : List Char → Reader ε Unit
  | [] => pure ()
  | w :: ws => do
    if (← next .unfinished) = w then word ws else fail .malformed

def refine (r : Reader ε α) (f : α → Except ε β) : Reader ε β := do
  match f (← r) with
  | .ok b => pure b
  | .error e => fail (.refused e)

/-- The steps a loop may still take, one for every item. -/
abbrev Steps := List Char

def withSteps (r : Steps → Reader ε α) : Reader ε α := fun cs => r (' ' :: cs) cs

def document (r : Reader ε α) (text : String) : Except (Fault ε) α := do
  let (a, rest) ← r text.toList
  if rest.all Json.isBlank then return a else throw .malformed

end Reader

end IsoTransport.Json
