import Tradebook.Decimal.Shortest
import Tradebook.Json

/-!
# What a JSON number means

A whole number of at most 64 bits is exact. Every other number is a double: of
its digits as many count as make a number of 64 bits, and this number is then
multiplied by a power of ten, or divided by one, in the arithmetic of doubles.
Where that leaves their range the number means nothing.
-/

namespace Tradebook.JsonNumber

open Tradebook.Text

/-- The meanings of a number. -/
inductive Meaning where
  | natural (n : Nat)
  | negative (n : Nat)
  | double (f : Float)

/-- The first number that 64 bits do not hold. -/
def wordBound : Nat :=
  0x10000000000000000

/-- Digits as far as they make a number of 64 bits, and the digits that are left. -/
def fitDigits (n : Nat) : List Char → Nat × List Char
  | [] => (n, [])
  | c :: rest =>
    let next := 10 * n + digitValue c
    if next < wordBound then fitDigits next rest else (n, c :: rest)

/-- Largest power of ten that a double holds. -/
def greatestPower : Nat :=
  308

/-- A power of ten as a double. -/
def tenTo (n : Nat) : Float :=
  .ofScientific 1 false n

/-- Divides by powers of ten. -/
def divide (f : Float) (power : Nat) : Float :=
  if power ≤ greatestPower then f / tenTo power
  else if f == 0 then f
  else divide (f / tenTo greatestPower) (power - greatestPower)
termination_by power
decreasing_by
  simp only [greatestPower] at *
  omega

/-- Scales a number by a power of ten, if the result is finite. -/
def scale? (significand : Nat) (power : Int) : Option Float :=
  let f := Float.ofNat significand
  match power with
  | .ofNat n =>
    if n ≤ greatestPower then
      let g := f * tenTo n
      if g.isInf then none else some g
    else if significand = 0 then some f
    else none
  | .negSucc n => some (divide f (n + 1))

/-- The greatest exponent that is counted. -/
def greatestExponent : Int :=
  0x7FFFFFFF

/-- The double that a number with a point, an exponent or too many digits means. -/
def magnitude? (n : JsonNumber) : Option Float :=
  let (whole, left) := fitDigits 0 (decimalDigits n.whole)
  let (significand, power) : Nat × Int :=
    match fitDigits whole n.fraction with
    | (significand, rest) =>
      (significand, (left.length : Int) - (n.fraction.length - rest.length : Nat))
  match n.exponent with
  | none => scale? significand power
  | some e =>
    if greatestExponent < e then if significand = 0 then some 0 else none
    else if e < -greatestExponent then some 0
    else scale? significand (power + e)

/-- What the number means, if anything. -/
def meaning? (n : JsonNumber) : Option Meaning :=
  if n.fraction = [] ∧ n.exponent = none ∧ !n.negative ∧ n.whole < wordBound then
    some (.natural n.whole)
  else if n.fraction = [] ∧ n.exponent = none ∧ n.negative ∧ 0 < n.whole ∧
      n.whole ≤ 0x8000000000000000 then
    some (.negative n.whole)
  else
    (magnitude? n).map fun f => .double (if n.negative then -f else f)

/-- A number with the digits of a double, written with a point where it stands among the first
sixteen digits or behind at most four zeros, and else with an exponent. -/
def ofDouble (f : Float) : JsonNumber :=
  let negative := 0x8000000000000000 ≤ f.toBits.toNat
  let b := Binary.ofFloat f
  if b.significand = 0 then ⟨negative, 0, ['0'], none⟩
  else
    let (n, power) := b.shortest false
    let digits := decimalDigits n
    let point := power + digits.length
    if 0 ≤ power ∧ point ≤ 16 then ⟨negative, n * Nat.pow 10 power.toNat, ['0'], none⟩
    else if 0 < point ∧ point ≤ 16 then
      ⟨negative, ofDigits (digits.take point.toNat), digits.drop point.toNat, none⟩
    else if -5 < point ∧ point ≤ 0 then
      ⟨negative, 0, List.replicate (-point).toNat '0' ++ digits, none⟩
    else ⟨negative, ofDigits (digits.take 1), digits.drop 1, some (point - 1)⟩

/-- The number in the form that its meaning has; a number without meaning as it is. -/
def settled (n : JsonNumber) : JsonNumber :=
  match n.meaning? with
  | some (.double f) => ofDouble f
  | _ => n

end Tradebook.JsonNumber

namespace Tradebook.Decimal

/-- The decimal that a JSON number means. -/
def ofJsonNumber? (n : JsonNumber) : Option Decimal :=
  match n.meaning? with
  | some (.natural n) => ofParts? n 0
  | some (.negative n) => ofParts? (-(n : Int)) 0
  | some (.double f) => ofDouble? f
  | none => none

end Tradebook.Decimal
