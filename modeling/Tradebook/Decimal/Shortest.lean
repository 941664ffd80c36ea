import Tradebook.Decimal.Text

/-!
# Shortest decimals of binary numbers

A double is shown by the fewest digits that lead back to it, and among those by
the ones nearest to it. All reals between the midpoints to its neighbours lead
back to a double, the midpoints themselves only where its last bit is zero. On
the grid of decimals with a given number of digits, only the two neighbours of
the value need to be looked at: if any point of the grid lies in the interval,
one of these does.
-/

namespace Tradebook

open Tradebook.Text

/-- The positive real `significand * 2 ^ exponent` of a double. -/
structure Binary where
  significand : Nat
  exponent : Int
  deriving DecidableEq, Repr

namespace Binary

/-- The magnitude of a finite double. -/
def ofFloat (f : Float) : Binary :=
  let bits : Nat := f.toBits.toNat
  let fraction : Nat := bits % 0x10000000000000
  let power : Nat := bits / 0x10000000000000 % 0x800
  if power = 0 then ⟨fraction, -1074⟩ else ⟨0x10000000000000 + fraction, (power : Int) - 1075⟩

/-- The interval of the reals that lead back to the double, and the double itself, each over the
denominator that stands last. -/
structure Interval where
  low : Nat
  value : Nat
  high : Nat
  denominator : Nat
  closed : Bool

/-- The interval of a double, in quarters of its last place. Below a power of two the doubles are
twice as close. -/
def interval (b : Binary) : Interval :=
  let value := 4 * b.significand
  let below := if b.significand = 0x10000000000000 ∧ -1074 < b.exponent then 1 else 2
  let scale := Nat.pow 2 (b.exponent - 2).toNat
  ⟨(value - below) * scale, value * scale, (value + 2) * scale,
    Nat.pow 2 (2 - b.exponent).toNat, b.significand % 2 == 0⟩

/-- The interval with everything divided by a power of ten. -/
def Interval.shift (i : Interval) (power : Int) : Interval :=
  let up := Nat.pow 10 (-power).toNat
  ⟨i.low * up, i.value * up, i.high * up, i.denominator * Nat.pow 10 power.toNat, i.closed⟩

/-- Whether a whole number lies in the interval. -/
def Interval.holds (i : Interval) (n : Nat) : Bool :=
  if i.closed then i.low ≤ n * i.denominator && n * i.denominator ≤ i.high
  else i.low < n * i.denominator && n * i.denominator < i.high

/-- The whole number of the interval that is nearest to its value, if there is one. Of two as near
the upper one counts where `up` holds and else the even one. -/
def Interval.nearest? (up : Bool) (i : Interval) : Option Nat :=
  let n := i.value / i.denominator
  let rest := 2 * (i.value % i.denominator)
  match i.holds n, i.holds (n + 1) with
  | true, true =>
    if rest < i.denominator then some n
    else if i.denominator < rest then some (n + 1)
    else if up then some (n + 1)
    else some (n + n % 2)
  | true, false => some n
  | false, true => some (n + 1)
  | false, false => none

/-- The shortest decimal with at least `digits` digits: tries so many numbers of digits, one after
the other. The value is below `10 ^ top`. -/
def search (up : Bool) (i : Interval) (top : Int) : Nat → Nat → Nat × Int
  | 0, digits =>
    ((i.shift (top - digits)).value / (i.shift (top - digits)).denominator, top - digits)
  | steps + 1, digits =>
    match (i.shift (top - digits)).nearest? up with
    | some n => (n, top - digits)
    | none => search up i top steps (digits + 1)

/-- The least power of ten above the value. -/
def decimalTop (i : Interval) : Int :=
  if i.denominator ≤ i.value then (decimalDigits (i.value / i.denominator)).length
  else
    let zeros := (decimalDigits (i.denominator / i.value)).length
    if i.value * Nat.pow 10 (zeros - 1) < i.denominator then 1 - (zeros : Int)
    else 2 - (zeros : Int)

/-- The shortest decimal of a positive double, as digits and a power of ten. -/
def shortest (up : Bool) (b : Binary) : Nat × Int :=
  let i := b.interval
  search up i (decimalTop i) 17 1

end Binary

namespace Decimal

/-- A natural with a power of ten, written without an exponent. -/
def positional (digits : Nat) (power : Int) : List Char :=
  match power with
  | .ofNat zeros => decimalDigits digits ++ List.replicate zeros '0'
  | .negSucc n => magnitudeChars digits (n + 1)

/-- A double without an exponent, by its shortest digits. -/
def doubleChars (f : Float) : List Char :=
  let b := Binary.ofFloat f
  let magnitude :=
    if b.significand = 0 then ['0']
    else
      let (digits, power) := b.shortest true
      positional digits power
  if f.toBits.toNat < 0x8000000000000000 then magnitude else '-' :: magnitude

/-- The decimal of the shortest digits of a double. -/
def ofDouble? (f : Float) : Option Decimal :=
  ofText? (.ofList (doubleChars f))

end Decimal

end Tradebook
