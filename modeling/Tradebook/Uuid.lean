import Tradebook.Text.Hex

/-!
# Random ids

An id of 128 bits, of which all but six are random; those six tell which kind of
id it is. It is written as five groups of hexadecimal digits.
-/

namespace Tradebook.Uuid

open Tradebook.Text

/-- A byte with its upper bits replaced: `mark` holds them, and `free` tells which bits stay. -/
def marked (mark free byte : UInt8) : UInt8 :=
  mark ||| (byte &&& free)

/-- Sixteen bytes with the bits that mark a random id in the seventh and the ninth. -/
def stamped (bytes : List UInt8) : List UInt8 :=
  (bytes.modify 6 (marked 0x40 0x0F)).modify 8 (marked 0x80 0x3F)

/-- The id that sixteen random bytes make. -/
def text (bytes : List UInt8) : String :=
  let digits := hexBytes (stamped bytes)
  let group := fun start length => (digits.drop start).take length
  .ofList (group 0 8 ++ '-' :: group 8 4 ++ '-' :: group 12 4 ++ '-' :: group 16 4 ++
    '-' :: group 20 12)

end Tradebook.Uuid
