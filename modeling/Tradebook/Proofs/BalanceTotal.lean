import Tradebook.Ftx.Row
import Tradebook.Proofs.RoundedSum

/-!
# The total of a balance

An exchange reports what is free of a coin and what there is in all. What is kept of that is
what is free and what is locked, and the total is worked out again by adding them. So the total
goes through two roundings, that of the difference and that of the sum.

They cancel as far as a decimal can hold what is reported (`total_of_row`): the total is above
zero just if the reported one is, and it is the reported one if that fits with all decimals of
the row. But they do not cancel at the upper end. Where the reported total is the largest number
that there is, a difference that ends in a half may be rounded up, and then the sum is rounded up
to what there is no number for (`total_of_full_row`).
-/

namespace Tradebook

namespace Decimal

theorem toRat_neg (a : Decimal) : a.neg.toRat = -a.toRat := by
  have hcoefficient : a.neg.coefficient = -a.coefficient := by
    unfold neg coefficient
    split_ifs <;> simp_all
  rw [toRat, toRat, hcoefficient, neg, Int.cast_neg, neg_div]

/-- A number with decimals is no more than a tenth of what there is. -/
theorem toRat_le_tenth {a : Decimal} (h : a.scale ≠ 0) : a.toRat ≤ ((bound : ℚ) - 1) / 10 := by
  have hten : (10 : ℚ) ≤ 10 ^ a.scale := by
    calc (10 : ℚ) = 10 ^ 1 := (pow_one _).symm
      _ ≤ 10 ^ a.scale := pow_le_pow_right₀ (by norm_num) (Nat.one_le_iff_ne_zero.2 h)
  exact a.toRat_le.trans (div_le_div_of_nonneg_left (by norm_num [bound]) (by norm_num) hten)

theorem atLeastZero_of_nonneg {a : Decimal} (h : 0 ≤ a.toRat) : a.atLeastZero = a := by
  have hcoefficient : ¬ a.coefficient < 0 := by
    intro hneg
    have hscale : (0 : ℚ) < 10 ^ a.scale := by positivity
    have hneg' : (a.coefficient : ℚ) < 0 := by exact_mod_cast hneg
    exact absurd h (not_le.2 (div_neg_of_neg_of_pos hneg' hscale))
  rw [atLeastZero, if_neg hcoefficient]

/-- A sum is not rounded below zero. -/
theorem add?_nonneg {a b c : Decimal} (h : 0 ≤ a.toRat + b.toRat) (hsum : add? a b = some c) :
    0 ≤ c.toRat := by
  rcases h.eq_or_lt with hzero | hpos
  · obtain ⟨c', hsome, hexact, -⟩ := add?_exact h (by rw [← hzero, zero_mul]; norm_num [bound])
    obtain rfl : c' = c := Option.some.inj (hsome.symm.trans hsum)
    rw [hexact, ← hzero]
  · exact ((toRat_add_pos_iff hsum).2 hpos).le

/-- A number that ends in a half has decimals. -/
theorem scale_ne_zero_of_half {a : Decimal} {n : ℕ} (h : a.toRat = 2 * n + 3 / 2) :
    a.scale ≠ 0 := by
  intro hscale
  rw [toRat_of_scale_eq_zero hscale] at h
  have htwice : (2 * a.coefficient : ℚ) = 4 * n + 3 := by linarith
  have htwice' : 2 * a.coefficient = 4 * (n : Int) + 3 := by exact_mod_cast htwice
  omega

end Decimal

namespace Ftx

open Decimal

namespace BalanceRow

variable {r : BalanceRow}

/-- What is locked is the difference, rounded. -/
theorem locked_of_row (hfree : 0 ≤ r.free.toRat) (hle : r.free.toRat ≤ r.total.toRat) :
    ∃ locked, sub? r.total r.free = some locked ∧
      r.toBalance? = some ⟨r.coin, r.free, locked⟩ ∧ 0 ≤ locked.toRat ∧
      Rounds (r.total.toRat - r.free.toRat) locked := by
  have hdiff : r.total.toRat + r.free.neg.toRat = r.total.toRat - r.free.toRat := by
    rw [toRat_neg, sub_eq_add_neg]
  have hnonneg : 0 ≤ r.total.toRat + r.free.neg.toRat := by
    rw [hdiff]
    linarith
  cases hsub : sub? r.total r.free with
  | none =>
      have hlarge := (add?_none_iff hnonneg).1 hsub
      have hsmall := r.total.toRat_le_bound
      rw [hdiff] at hlarge
      linarith
  | some locked =>
      have hlocked := add?_nonneg hnonneg hsub
      refine ⟨locked, rfl, ?_, hlocked, hdiff ▸ add?_rounds hnonneg hsub⟩
      unfold toBalance?
      rw [hsub]
      dsimp only
      rw [atLeastZero_of_nonneg hlocked]

/-- The reported total is the largest number that there is, and what is free ends in a half above
an odd number. -/
def Overfull (r : BalanceRow) : Prop :=
  r.total.toRat = (bound : ℚ) - 1 ∧ ∃ n : ℕ, r.free.toRat = 2 * n + 3 / 2

theorem overfull_of_bound_le {locked : Decimal}
    (hrounds : Rounds (r.total.toRat - r.free.toRat) locked)
    (hlarge : (bound : ℚ) - 1 / 2 ≤ r.free.toRat + locked.toRat) : r.Overfull := by
  obtain ⟨hlow, hhigh⟩ := hrounds.bounds
  have htotal := r.total.toRat_le_bound
  obtain ⟨half, hhalf⟩ : ∃ half, bound = 2 * half := ⟨bound / 2, by decide⟩
  have hfull : r.total.toRat = (bound : ℚ) - 1 := by linarith
  have hup : locked.toRat = r.total.toRat - r.free.toRat + 1 / 2 := by linarith
  obtain ⟨k, hk⟩ := hrounds.even (by rw [hup, add_sub_cancel_left]; norm_num)
  have hroom : 2 * k + 1 ≤ bound := by
    have hmost := locked.toRat_le_bound
    rw [hk] at hmost
    have hroom' : (2 * k + 1 : ℚ) ≤ bound := by linarith
    exact_mod_cast hroom'
  obtain ⟨n, hn⟩ : ∃ n, 2 * n + 2 + 2 * k = bound := ⟨half - 1 - k, by omega⟩
  refine ⟨hfull, n, ?_⟩
  have hn' : (2 * n + 2 + 2 * k : ℚ) = bound := by exact_mod_cast hn
  linarith

theorem Overfull.le_sum {locked : Decimal} (h : r.Overfull)
    (hrounds : Rounds (r.total.toRat - r.free.toRat) locked) :
    (bound : ℚ) - 1 / 2 ≤ r.free.toRat + locked.toRat := by
  obtain ⟨hfull, n, hn⟩ := h
  obtain ⟨hlow, hhigh⟩ := hrounds.bounds
  have hfree := toRat_le_tenth (scale_ne_zero_of_half hn)
  have hbound : (100 : ℚ) ≤ bound := by norm_num [bound]
  have hscale : locked.scale = 0 := by
    by_contra hdecimals
    have hmost := toRat_le_tenth hdecimals
    linarith
  -- the difference ends in a half above an odd number
  obtain ⟨m, hm⟩ : ∃ m, bound = 2 * (m + n + 2) := by
    have hroom : (2 * n + 4 : ℚ) ≤ bound := by linarith
    have hroom' : 2 * n + 4 ≤ bound := by exact_mod_cast hroom
    have heven : bound % 2 = 0 := by decide
    exact ⟨bound / 2 - n - 2, by omega⟩
  have hm' : (bound : ℚ) = 2 * (m + n + 2) := by exact_mod_cast hm
  have hdiff : r.total.toRat - r.free.toRat = 2 * m + 1 + 1 / 2 := by
    rw [hfull, hn, hm']
    ring
  rw [hdiff] at hrounds
  rw [hrounds.half_up hscale, hn, hm']
  linarith

/-- The two roundings lead beyond the largest number just for such a row. -/
theorem overfull_iff {locked : Decimal}
    (hrounds : Rounds (r.total.toRat - r.free.toRat) locked) :
    (bound : ℚ) - 1 / 2 ≤ r.free.toRat + locked.toRat ↔ r.Overfull :=
  ⟨overfull_of_bound_le hrounds, fun h => h.le_sum hrounds⟩

/-- The total that is worked out again for a row: above zero just if the reported one is, equal to
it where that fits with all decimals of the row, and missing for nothing but an overfull row. -/
theorem total_of_row (hfree : 0 ≤ r.free.toRat) (hle : r.free.toRat ≤ r.total.toRat) :
    ∃ b, r.toBalance? = some b ∧ (b.total? = none ↔ r.Overfull) ∧
      ∀ t, b.total? = some t → (0 < t.toRat ↔ 0 < r.total.toRat) ∧
        (r.total.toRat * 10 ^ max r.total.scale r.free.scale < bound →
          t.toRat = r.total.toRat) := by
  obtain ⟨locked, hsub, hbalance, hlocked, hrounds⟩ := locked_of_row hfree hle
  have hnonneg : 0 ≤ r.free.toRat + locked.toRat := add_nonneg hfree hlocked
  refine ⟨_, hbalance, (add?_none_iff hnonneg).trans (overfull_iff hrounds), ?_⟩
  intro t htotal
  have hpositive := toRat_add_pos_iff hsub
  rw [toRat_neg, ← sub_eq_add_neg] at hpositive
  refine ⟨(toRat_add_pos_iff htotal).trans ⟨fun h => ?_, fun h => ?_⟩, fun hfits => ?_⟩
  · by_contra hnone
    have hzero : ¬ 0 < locked.toRat := fun hsome => by linarith [hpositive.1 hsome]
    linarith
  · rcases hfree.eq_or_lt with hzero | hsome
    · have hsome := hpositive.2 (by linarith)
      linarith
    · linarith
  · -- neither rounding has anything to drop
    obtain ⟨locked', hsome, hexact, hscale⟩ := add?_exact (a := r.total) (b := r.free.neg)
      (by rw [toRat_neg]; linarith) (lt_of_le_of_lt (by
        rw [toRat_neg]
        exact mul_le_mul_of_nonneg_right (by linarith) (by positivity)) hfits)
    obtain rfl : locked' = locked := Option.some.inj (hsome.symm.trans hsub)
    have hsum : r.free.toRat + locked'.toRat = r.total.toRat := by
      rw [hexact, toRat_neg]
      ring
    obtain ⟨t', hsome', hexact', -⟩ := add?_exact hnonneg (lt_of_le_of_lt (by
      rw [hsum]
      exact mul_le_mul_of_nonneg_left
        (pow_le_pow_right₀ (by norm_num) (max_le (le_max_right _ _) hscale))
        (hfree.trans hle)) hfits)
    obtain rfl : t' = t := Option.some.inj (hsome'.symm.trans htotal)
    exact hexact'.trans hsum

/-- Two and a quarter are free of ten and a half. -/
theorem total_of_row_mixed :
    let r : BalanceRow :=
      ⟨"BTC", ⟨false, 225, 2, by decide, by decide⟩, ⟨false, 105, 1, by decide, by decide⟩⟩
    0 ≤ r.free.toRat ∧ r.free.toRat ≤ r.total.toRat ∧
      ∃ b t, r.toBalance? = some b ∧ b.total? = some t ∧ t.toRat = 21 / 2 := by
  intro r
  have hfree : r.free.toRat = 9 / 4 := by norm_num [r, toRat, coefficient]
  have htotal : r.total.toRat = 21 / 2 := by norm_num [r, toRat, coefficient]
  have hnonneg : 0 ≤ r.free.toRat := by norm_num [hfree]
  have hle : r.free.toRat ≤ r.total.toRat := by norm_num [hfree, htotal]
  obtain ⟨b, hbalance, hnone, hsome⟩ := total_of_row hnonneg hle
  cases hsum : b.total? with
  | none =>
      have hfull := (hnone.1 hsum).1
      norm_num [htotal, bound] at hfull
  | some t =>
      have hexact := (hsome t hsum).2 (by
        rw [htotal]
        norm_num [r, bound])
      exact ⟨hnonneg, hle, b, t, hbalance, hsum, hexact.trans htotal⟩

/-- All but one and a half of the largest number there is are locked. The half is rounded up, and
there is no number for the sum. -/
theorem total_of_full_row :
    let r : BalanceRow :=
      ⟨"USDT", ⟨false, 15, 1, by decide, by decide⟩, ⟨false, bound - 1, 0, by decide, by decide⟩⟩
    0 ≤ r.free.toRat ∧ r.free.toRat ≤ r.total.toRat ∧
      ∃ b, r.toBalance? = some b ∧ b.total? = none := by
  intro r
  have hfree : r.free.toRat = 3 / 2 := by norm_num [r, toRat, coefficient]
  have htotal : r.total.toRat = (bound : ℚ) - 1 := by
    norm_num [r, toRat, coefficient, bound]
  have hbalance : r.toBalance? =
      some ⟨"USDT", r.free, ⟨false, bound - 2, 0, by decide, by decide⟩⟩ := by
    decide +kernel
  exact ⟨by norm_num [hfree], by norm_num [hfree, htotal, bound], _, hbalance, by decide +kernel⟩

end BalanceRow

end Ftx

end Tradebook
