import IsoTransport.Text.Shortest
import IsoTransport.Text.Quoted

/-!
Why a document cannot be read as the value that is wanted. The type `ε` holds the reasons that the
values themselves bring.
-/

namespace IsoTransport.Json

inductive Found where
  | null
  | boolean (b : Bool)
  | integer (n : Int)
  | float (negative : Bool) (x : Text.Binary64)
  | text (s : String)
  | sequence
  | map
  deriving DecidableEq

inductive Wanted where
  | unsigned (bits : Nat)
  | boolean
  | text
  | sequence
  | null
  | record (name : String)
  deriving DecidableEq

inductive Fault (ε : Type) where
  | malformed
  | unfinished
  | mismatch (found : Found) (wanted : Wanted)
  | outOfRange (value : Int) (wanted : Wanted)
  | unknownField (name : String) (known : List String)
  | unknownVariant (name : String) (known : List String)
  | duplicateField (name : String)
  | refused (cause : ε)
  deriving DecidableEq

def Found.message : Found → String
  | null => "null"
  | boolean b => "boolean `" ++ toString b ++ "`"
  | integer n => "integer `" ++ toString n ++ "`"
  | float negative x => "floating point `" ++ Text.floatText negative x ++ "`"
  | text s => "string " ++ Text.quoted s
  | sequence => "sequence"
  | map => "map"

def Wanted.message : Wanted → String
  | unsigned bits => "u" ++ toString bits
  | boolean => "a boolean"
  | text => "a string"
  | sequence => "a sequence"
  | null => "unit"
  | record name => "struct " ++ name

/-- Two choices are joined by "or", more are listed. -/
def expectedNames (names : List String) : String :=
  match names.map fun name => "`" ++ name ++ "`" with
  | [a] => a
  | [a, b] => a ++ " or " ++ b
  | all => "one of " ++ ", ".intercalate all

def Fault.message {ε : Type} (reason : ε → String) : Fault ε → String
  | malformed => "malformed document"
  | unfinished => "unfinished document"
  | mismatch found wanted => "invalid type: " ++ found.message ++ ", expected " ++ wanted.message
  | outOfRange value wanted =>
      "invalid value: " ++ (Found.integer value).message ++ ", expected " ++ wanted.message
  | unknownField name known =>
      "unknown field `" ++ name ++ "`, expected " ++ expectedNames known
  | unknownVariant name known =>
      "unknown variant `" ++ name ++ "`, expected " ++ expectedNames known
  | duplicateField name => "duplicate field `" ++ name ++ "`"
  | refused cause => reason cause

end IsoTransport.Json
