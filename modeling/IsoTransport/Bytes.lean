/-!
Byte strings and the big-endian numbers in them.
-/

namespace IsoTransport

abbrev Bytes := List UInt8

namespace Bytes

/-- The number whose base 256 digits are the bytes, most significant first. -/
def bigEndian (bytes : Bytes) : Nat := bytes.foldl (fun n b => 256 * n + b.toNat) 0

/-- The low `width` base 256 digits of `n`, most significant first. -/
def ofNat : (width n : Nat) → Bytes
  | 0, _ => []
  | width + 1, n => ofNat width (n / 256) ++ [UInt8.ofNat (n % 256)]

def slice? (data : Bytes) (start width : Nat) : Option Bytes :=
  if start + width ≤ data.length then some ((data.drop start).take width) else none

theorem length_of_slice? {data piece : Bytes} {start width : Nat}
    (h : slice? data start width = some piece) : piece.length = width := by
  grind [slice?]

end Bytes

end IsoTransport
