/-!
# Decimal numbers

Prices and quantities are decimal numbers as people write them: a sign, digits and
a number of decimals. `1.50` and `1.5` are equal in value and still two numbers,
because what an exchange wrote is kept. So are `0` and `-0`, although no zero that
is read has a sign. The digits make a number of 96 bits and there are at most 28
decimals; both bounds are part of the type.
-/

namespace Tradebook

/-- The number `magnitude / 10 ^ scale` or its opposite, with `scale` decimals shown. -/
structure Decimal where
  negative : Bool
  magnitude : Nat
  scale : Nat
  magnitude_lt : magnitude < 0x1000000000000000000000000
  scale_le : scale ≤ 28
  deriving DecidableEq, Repr

namespace Decimal

/-- What a coefficient stays below. -/
def bound : Nat :=
  0x1000000000000000000000000

/-- The most decimals there can be. -/
def maxScale : Nat :=
  28

/-- The digits as a number, with the sign. -/
def coefficient (a : Decimal) : Int :=
  if a.negative then -(a.magnitude : Int) else a.magnitude

theorem natAbs_coefficient (a : Decimal) : a.coefficient.natAbs = a.magnitude := by
  unfold coefficient
  split <;> omega

/-- The number of the given parts, if they are within the bounds. Zero gets no sign. -/
def ofParts? (coefficient : Int) (scale : Nat) : Option Decimal :=
  if h : coefficient.natAbs < 0x1000000000000000000000000 ∧ scale ≤ 28 then
    some ⟨coefficient < 0, coefficient.natAbs, scale, h.1, h.2⟩
  else none

/-- Zero without decimals. -/
def zero : Decimal :=
  ⟨false, 0, 0, by decide, by decide⟩

instance : Inhabited Decimal := ⟨zero⟩

/-- A whole number of at most 64 bits. -/
def ofWord (n : Nat) (h : n < 0x10000000000000000) : Decimal :=
  ⟨false, n, 0, by omega, by decide⟩

/-- The coefficient with zeros behind it. -/
def shifted (a : Decimal) (zeros : Nat) : Int :=
  a.coefficient * Nat.pow 10 zeros

/-- Numeric order, whatever decimals are shown. -/
def le (a b : Decimal) : Prop :=
  a.shifted b.scale ≤ b.shifted a.scale

/-- Strict numeric order. -/
def lt (a b : Decimal) : Prop :=
  a.shifted b.scale < b.shifted a.scale

instance : LE Decimal := ⟨le⟩

instance : LT Decimal := ⟨lt⟩

instance (a b : Decimal) : Decidable (a ≤ b) :=
  inferInstanceAs (Decidable (a.shifted b.scale ≤ b.shifted a.scale))

instance (a b : Decimal) : Decidable (a < b) :=
  inferInstanceAs (Decidable (a.shifted b.scale < b.shifted a.scale))

/-- Whether the number is above zero. -/
def isPositive (a : Decimal) : Bool :=
  0 < a.coefficient

/-- The number with the other sign. A zero stays as it is. -/
def neg (a : Decimal) : Decimal :=
  { a with negative := if a.magnitude = 0 then a.negative else !a.negative }

end Decimal

end Tradebook
