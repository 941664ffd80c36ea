import Tradebook.Decimal
import Tradebook.Text.Digits

/-!
# Decimals as text

A decimal is written with exactly the decimals it shows. It is read more freely:
a sign in front, underscores between digits, a missing whole or fractional part,
a power of ten behind. A fraction that is too long for the type is rounded at the
first digit that does not fit, half a unit upwards, and what follows that digit
is not looked at.
-/

namespace Tradebook.Decimal

open Tradebook.Text

/-- The digits with the point set, at least one digit before it. -/
def magnitudeChars (magnitude scale : Nat) : List Char :=
  let digits := padZeros (scale + 1) (decimalDigits magnitude)
  let whole := digits.take (digits.length - scale)
  if scale = 0 then whole else whole ++ '.' :: digits.drop (digits.length - scale)

/-- The number as it is written. -/
def chars (a : Decimal) : List Char :=
  if a.negative then '-' :: magnitudeChars a.magnitude a.scale
  else magnitudeChars a.magnitude a.scale

/-- The number as it is written. -/
def text (a : Decimal) : String :=
  .ofList (chars a)

/-- Ends the reading at a digit that does not fit any more, rounding half a unit up. Where the
rounded coefficient is too large as well, one more decimal goes. -/
def roundAway (magnitude scale digit : Nat) : Option (Nat × Nat) :=
  if digit < 5 then some (magnitude, scale)
  else if magnitude + 1 < bound then some (magnitude + 1, scale)
  else if scale = 0 then none
  else some ((magnitude + 5) / 10, scale - 1)

/-- From this coefficient on a grouping mark does not end a full fraction. -/
def wideFrom : Nat :=
  0xFFFFFFFFFFFFFFFF / 10 - 255

/-- Reads digits, one point and grouping underscores: `point` once the point was seen, `seen`
once a digit was. -/
def readDigits (point seen : Bool) (magnitude scale : Nat) : List Char → Option (Nat × Nat)
  | [] => if seen then some (magnitude, scale) else none
  | c :: rest =>
    if point && maxScale ≤ scale then
      if c.isDigit then roundAway magnitude scale (digitValue c)
      else if c = '.' then some (magnitude, scale)
      else if c = '_' then
        if magnitude < wideFrom then some (magnitude, scale)
        else readDigits point seen magnitude scale rest
      else none
    else if c.isDigit then
      let next := 10 * magnitude + digitValue c
      if next < bound then readDigits point true next (if point then scale + 1 else 0) rest
      else if point then roundAway magnitude scale (digitValue c)
      else none
    else if c = '.' && !point then readDigits true seen magnitude scale rest
    else if c = '_' && seen then readDigits point seen magnitude scale rest
    else none

/-- Reads a number without a power of ten. -/
def ofPlain? (cs : List Char) : Option Decimal :=
  match cs with
  | '-' :: rest => do
    let (magnitude, scale) ← readDigits false false 0 0 rest
    ofParts? (-(magnitude : Int)) scale
  | '+' :: rest => do
    let (magnitude, scale) ← readDigits false false 0 0 rest
    ofParts? magnitude scale
  | rest => do
    let (magnitude, scale) ← readDigits false false 0 0 rest
    ofParts? magnitude scale

/-- Reads the digits of an exponent, a plus sign allowed, as a number of 32 bits. -/
def readExponent? (cs : List Char) : Option Nat :=
  let digits := match cs with
    | '+' :: rest => rest
    | rest => rest
  if digits ≠ [] ∧ digits.all Char.isDigit ∧ ofDigits digits < 0x100000000 then
    some (ofDigits digits)
  else none

/-- Reads a number with a power of ten behind the letter e. A power that the decimals do not
absorb makes a whole number. -/
def ofScientific? (cs : List Char) : Option Decimal :=
  let isMark := fun c : Char => c == 'e' || c == 'E'
  match cs.dropWhile (!isMark ·) with
  | [] => none
  | _ :: exponent => do
    let base ← ofPlain? (cs.takeWhile (!isMark ·))
    match exponent with
    | '-' :: exponent => ofParts? base.coefficient (base.scale + (← readExponent? exponent))
    | exponent =>
      let power ← readExponent? exponent
      if power ≤ base.scale then ofParts? base.coefficient (base.scale - power)
      else if power ≤ maxScale then ofParts? (base.shifted (power - base.scale)) 0
      else none

/-- Reads a number in either form. -/
def ofText? (s : String) : Option Decimal :=
  match ofPlain? s.toList with
  | some a => some a
  | none => ofScientific? s.toList

end Tradebook.Decimal
