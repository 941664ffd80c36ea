import Mathlib
import Tradebook.Decimal.Arith

/-!
# The sign of a rounded sum

A sum that does not fit is rounded, and what rounding must never do is to make something of
nothing or nothing of something. It does not: decimals are dropped one by one and only as long
as the coefficient is too large, so what is left is nearly as large as a coefficient can be
(`squeeze_spec`), which is far from zero. So a sum is above zero exactly if the exact sum of the
two numbers is (`toRat_add_pos_iff`).
-/

namespace Tradebook.Decimal

/-- The number that a decimal stands for, whatever decimals it shows. -/
def toRat (a : Decimal) : ℚ :=
  a.coefficient / 10 ^ a.scale

theorem toRat_pos_iff (a : Decimal) : 0 < a.toRat ↔ 0 < a.coefficient := by
  have hscale : (0 : ℚ) < 10 ^ a.scale := by positivity
  rw [toRat, div_pos_iff_of_pos_right hscale, Int.cast_pos]

theorem isPositive_iff (a : Decimal) : a.isPositive = true ↔ 0 < a.toRat := by
  rw [toRat_pos_iff, isPositive, decide_eq_true_iff]

/-! ## Rounding -/

theorem le_divHalfEven (n d : Nat) : n / d ≤ divHalfEven n d := by
  unfold divHalfEven
  split_ifs <;> omega

theorem divHalfEven_le (n d : Nat) : divHalfEven n d ≤ n / d + 1 := by
  unfold divHalfEven
  split_ifs <;> omega

theorem divHalfEven_one (n : Nat) : divHalfEven n 1 = n := by
  simp [divHalfEven, Nat.mod_one]

theorem divHalfEven_zero (d : Nat) : divHalfEven 0 d = 0 := by
  unfold divHalfEven
  split_ifs <;> simp_all

/-- Decimals are dropped until the coefficient fits, and no more of them than that takes. -/
theorem squeeze_spec {magnitude scale dropped coefficient left : Nat}
    (h : squeeze magnitude scale dropped = some (coefficient, left)) :
    ∃ all, dropped ≤ all ∧ left + all = scale + dropped ∧ coefficient < bound ∧
      coefficient = divHalfEven magnitude (10 ^ all) ∧
      ∀ d, dropped ≤ d → d < all → bound ≤ divHalfEven magnitude (10 ^ d) := by
  induction scale generalizing dropped with
  | zero =>
      rw [squeeze] at h
      split at h
      · next hsmall =>
          cases h
          exact ⟨dropped, le_refl _, rfl, hsmall, rfl,
            fun d hd hd' => absurd hd' (Nat.not_lt.2 hd)⟩
      · cases h
  | succ scale ih =>
      rw [squeeze] at h
      split at h
      · next hsmall =>
          cases h
          exact ⟨dropped, le_refl _, rfl, hsmall, rfl,
            fun d hd hd' => absurd hd' (Nat.not_lt.2 hd)⟩
      · next hlarge =>
          obtain ⟨all, hall, hleft, hsmall, hcoefficient, hbefore⟩ := ih h
          refine ⟨all, Nat.le_of_succ_le hall, by omega, hsmall, hcoefficient, fun d hd hd' => ?_⟩
          rcases Nat.eq_or_lt_of_le hd with rfl | hd
          · exact Nat.not_lt.1 hlarge
          · exact hbefore d hd hd'

theorem squeeze_none {magnitude scale dropped : Nat} (h : squeeze magnitude scale dropped = none) :
    bound ≤ divHalfEven magnitude (10 ^ (scale + dropped)) := by
  induction scale generalizing dropped with
  | zero =>
      rw [squeeze] at h
      split at h
      · cases h
      · next hlarge =>
          rw [Nat.zero_add]
          exact Nat.not_lt.1 hlarge
  | succ scale ih =>
      rw [squeeze] at h
      split at h
      · cases h
      · rw [Nat.succ_add_eq_add_succ]
        exact ih h

/-- What fits is zero only if it was zero. -/
theorem squeeze_pos_iff {magnitude scale coefficient left : Nat}
    (h : squeeze magnitude scale 0 = some (coefficient, left)) :
    0 < coefficient ↔ 0 < magnitude := by
  obtain ⟨all, -, -, -, rfl, hbefore⟩ := squeeze_spec h
  constructor
  · intro hpos
    by_contra hzero
    rw [Nat.eq_zero_of_not_pos hzero, divHalfEven_zero] at hpos
    exact Nat.lt_irrefl 0 hpos
  · intro hpos
    cases all with
    | zero => rwa [Nat.pow_zero, divHalfEven_one]
    | succ all =>
        -- With one decimal more the coefficient was too large, so a tenth of it is not small.
        have hlarge := hbefore all (Nat.zero_le _) (Nat.lt_succ_self _)
        have hquotient := divHalfEven_le magnitude (10 ^ all)
        have htenth := le_divHalfEven magnitude (10 ^ (all + 1))
        rw [Nat.pow_succ, ← Nat.div_div_eq_div_mul] at htenth
        unfold bound at hlarge
        rw [Nat.pow_succ]
        omega

theorem parts_of_ofParts? {coefficient : Int} {scale : Nat} {a : Decimal}
    (h : ofParts? coefficient scale = some a) : a.coefficient = coefficient ∧ a.scale = scale := by
  unfold ofParts? at h
  split at h
  · rw [← Option.some.inj h, Decimal.coefficient]
    simp only [decide_eq_true_eq]
    exact ⟨by split <;> omega, trivial⟩
  · cases h

theorem fit_pos_iff {coefficient : Int} {scale : Nat} {a : Decimal}
    (h : fit? coefficient scale = some a) : 0 < a.coefficient ↔ 0 < coefficient := by
  unfold fit? at h
  split at h
  · next magnitude left hsqueeze =>
      have hpos := squeeze_pos_iff hsqueeze
      rw [(parts_of_ofParts? h).1]
      split_ifs <;> omega
  · cases h

/-! ## The sum -/

theorem shifted_div (a : Decimal) (zeros : Nat) :
    (a.shifted zeros : ℚ) = a.toRat * 10 ^ (a.scale + zeros) := by
  have hscale : (10 : ℚ) ^ a.scale ≠ 0 := by positivity
  rw [shifted, toRat, Nat.pow_eq, pow_add]
  push_cast
  field_simp

/-- Both operands at the larger scale make the exact sum. -/
theorem shifted_add (a b : Decimal) :
    ((a.shifted (max a.scale b.scale - a.scale) +
      b.shifted (max a.scale b.scale - b.scale) : Int) : ℚ) =
        (a.toRat + b.toRat) * 10 ^ max a.scale b.scale := by
  rw [Int.cast_add, shifted_div, shifted_div, Nat.add_sub_cancel' (le_max_left _ _),
    Nat.add_sub_cancel' (le_max_right _ _), add_mul]

/-- A sum is above zero exactly if the exact sum is, rounded or not. -/
theorem toRat_add_pos_iff {a b c : Decimal} (h : add? a b = some c) :
    0 < c.toRat ↔ 0 < a.toRat + b.toRat := by
  unfold add? at h
  split at h
  · next hzero =>
      cases h
      simp [toRat, hzero]
  · split at h
    · next hzero =>
        cases h
        simp [toRat, hzero]
    · have hfit := fit_pos_iff h
      have hscale : (0 : ℚ) < 10 ^ max a.scale b.scale := by positivity
      rw [toRat_pos_iff, hfit, ← Int.cast_pos (R := ℚ), shifted_add,
        mul_pos_iff_of_pos_right hscale]

end Tradebook.Decimal
