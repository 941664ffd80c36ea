import Tradebook.Decimal

/-!
# Adding decimals

The sum shows as many decimals as the more precise operand, and it is exact
whenever its coefficient fits. Where it does not, as few decimals as necessary
are dropped, and half a unit goes to the even neighbour. Nothing is left to drop
where the whole part alone is too large: then there is no sum. A zero operand
leaves the other one as it is written.
-/

namespace Tradebook.Decimal

/-- The quotient rounded to the nearest integer, half a unit to the even one. -/
def divHalfEven (n d : Nat) : Nat :=
  if 2 * (n % d) < d then n / d
  else if d < 2 * (n % d) then n / d + 1
  else n / d + n / d % 2

/-- Drops decimals until the coefficient fits: `scale` are left and `dropped` are gone. -/
def squeeze (magnitude : Nat) (scale dropped : Nat) : Option (Nat × Nat) :=
  let coefficient := divHalfEven magnitude (Nat.pow 10 dropped)
  if coefficient < bound then some (coefficient, scale)
  else
    match scale with
    | 0 => none
    | scale + 1 => squeeze magnitude scale (dropped + 1)

/-- The number nearest to `coefficient / 10 ^ scale` that fits. -/
def fit? (coefficient : Int) (scale : Nat) : Option Decimal :=
  match squeeze coefficient.natAbs scale 0 with
  | some (magnitude, scale) =>
    ofParts? (if coefficient < 0 then -(magnitude : Int) else magnitude) scale
  | none => none

/-- The sum, if its whole part fits. -/
def add? (a b : Decimal) : Option Decimal :=
  if a.coefficient = 0 then some b
  else if b.coefficient = 0 then some a
  else
    let scale := max a.scale b.scale
    fit? (a.shifted (scale - a.scale) + b.shifted (scale - b.scale)) scale

/-- The difference, if its whole part fits. -/
def sub? (a b : Decimal) : Option Decimal :=
  add? a b.neg

/-- The number, or zero where it is below zero. -/
def atLeastZero (a : Decimal) : Decimal :=
  if a.coefficient < 0 then zero else a

end Tradebook.Decimal
