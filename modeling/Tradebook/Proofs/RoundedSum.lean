import Tradebook.Proofs.DecimalSum

/-!
# The value of a rounded sum

What a sum of decimals is worth, where it is not below zero. It is as near to the exact sum as
its decimals allow, and half a unit away only from an even number (`Rounds`). It is exact where
the exact sum fits with all its decimals (`add?_exact`), and there is none just where the exact
sum would be rounded up to what no coefficient can be (`add?_none_iff`).
-/

namespace Tradebook.Decimal

/-! ## Rounding to the nearest -/

/-- Rounding, with the quotient and the remainder at hand. -/
theorem divHalfEven_parts (n : Nat) {d : Nat} (hd : 0 < d) :
    ∃ q r, n = q * d + r ∧ r < d ∧
      ((2 * r < d ∧ divHalfEven n d = q) ∨ (d < 2 * r ∧ divHalfEven n d = q + 1) ∨
        (2 * r = d ∧ divHalfEven n d = q + q % 2)) := by
  refine ⟨n / d, n % d, (Nat.div_add_mod' n d).symm, Nat.mod_lt n hd, ?_⟩
  unfold divHalfEven
  split_ifs with hbelow habove
  · exact Or.inl ⟨hbelow, rfl⟩
  · exact Or.inr (Or.inl ⟨habove, rfl⟩)
  · exact Or.inr (Or.inr ⟨by omega, rfl⟩)

/-- The nearest multiple, and an even one where two are equally near. -/
theorem divHalfEven_near (n : Nat) {d : Nat} (hd : 0 < d) :
    2 * n ≤ 2 * (divHalfEven n d * d) + d ∧ 2 * (divHalfEven n d * d) ≤ 2 * n + d ∧
      (2 * n = 2 * (divHalfEven n d * d) + d ∨ 2 * (divHalfEven n d * d) = 2 * n + d →
        divHalfEven n d % 2 = 0) := by
  obtain ⟨q, r, hn, hr, ⟨hbelow, h⟩ | ⟨habove, h⟩ | ⟨htie, h⟩⟩ := divHalfEven_parts n hd
  · rw [h]
    omega
  · rw [h, Nat.add_mul]
    omega
  · rw [h, Nat.add_mul]
    rcases Nat.mod_two_eq_zero_or_one q with heven | hodd
    · rw [heven]
      omega
    · rw [hodd]
      omega

/-- Half a unit below an even number is rounded up to it. -/
theorem le_divHalfEven_iff {b n d : Nat} (hb : b % 2 = 0) (hd : 0 < d) :
    b ≤ divHalfEven n d ↔ 2 * (b * d) ≤ 2 * n + d := by
  obtain ⟨hlow, hhigh, htie⟩ := divHalfEven_near n hd
  constructor
  · intro h
    have hmul := Nat.mul_le_mul_right d h
    omega
  · intro h
    by_contra hless
    have hless := Nat.lt_of_not_le hless
    -- one less than `b` is odd, so it is no neighbour of half a unit
    have hmul := Nat.mul_le_mul_right d hless
    rw [Nat.succ_mul] at hmul
    have heven := htie (Or.inl (by omega))
    have hmul' := Nat.mul_le_mul_right d (show divHalfEven n d + 2 ≤ b by omega)
    rw [Nat.add_mul] at hmul'
    omega

/-- What is too large without a few decimals is too large with them. -/
theorem le_divHalfEven_pow {b m d e : Nat} (hb : b % 2 = 0) (hde : d ≤ e)
    (h : b ≤ divHalfEven m (10 ^ e)) : b ≤ divHalfEven m (10 ^ d) := by
  obtain ⟨k, rfl⟩ := Nat.exists_eq_add_of_le hde
  have hd : 0 < 10 ^ d := Nat.pow_pos (by decide)
  have hk : 0 < 10 ^ k := Nat.pow_pos (by decide)
  rw [Nat.pow_add, le_divHalfEven_iff hb (Nat.mul_pos hd hk)] at h
  rw [le_divHalfEven_iff hb hd]
  rcases Nat.eq_zero_or_pos b with rfl | hpos
  · omega
  · obtain ⟨c, hc⟩ : ∃ c, 2 * b = c + 1 := ⟨2 * b - 1, by omega⟩
    rw [← Nat.mul_assoc, hc, Nat.succ_mul] at h ⊢
    have hgrow : c * 10 ^ d ≤ c * (10 ^ d * 10 ^ k) :=
      Nat.mul_le_mul_left c (Nat.le_mul_of_pos_right _ hk)
    omega

/-! ## What fits -/

/-- A decimal as near to a number as its decimals allow. -/
structure Rounds (x : ℚ) (c : Decimal) : Prop where
  near : |c.toRat - x| ≤ 1 / 2 / 10 ^ c.scale
  even : |c.toRat - x| = 1 / 2 → ∃ k : ℕ, c.toRat = 2 * k

theorem Rounds.of_eq {x : ℚ} {c : Decimal} (h : c.toRat = x) : Rounds x c where
  near := by
    rw [h, sub_self, abs_zero]
    positivity
  even htie := by
    rw [h, sub_self, abs_zero] at htie
    norm_num at htie

theorem Rounds.bounds {x : ℚ} {c : Decimal} (h : Rounds x c) :
    x - 1 / 2 ≤ c.toRat ∧ c.toRat ≤ x + 1 / 2 := by
  have hscale : (1 : ℚ) ≤ 10 ^ c.scale := one_le_pow₀ (by norm_num)
  have hhalf : (1 / 2 : ℚ) / 10 ^ c.scale ≤ 1 / 2 := div_le_self (by norm_num) hscale
  obtain ⟨hlow, hhigh⟩ := abs_le.1 (h.near.trans hhalf)
  constructor <;> linarith

theorem toRat_of_scale_eq_zero {a : Decimal} (h : a.scale = 0) : a.toRat = a.coefficient := by
  rw [toRat, h, pow_zero, div_one]

/-- A half above an odd number is rounded up to a whole number. -/
theorem Rounds.half_up {c : Decimal} {m : ℕ} (h : Rounds (2 * m + 1 + 1 / 2) c)
    (hscale : c.scale = 0) : c.toRat = 2 * m + 2 := by
  obtain ⟨hlow, hhigh⟩ := h.bounds
  have hwhole := toRat_of_scale_eq_zero hscale
  rw [hwhole] at hlow hhigh
  have hlow : (2 * m + 1 : ℚ) ≤ c.coefficient := by linarith
  have hhigh : (c.coefficient : ℚ) ≤ 2 * m + 2 := by linarith
  have hlow : (2 * m + 1 : Int) ≤ c.coefficient := by exact_mod_cast hlow
  have hhigh : c.coefficient ≤ (2 * m + 2 : Int) := by exact_mod_cast hhigh
  obtain hdown | hup : c.coefficient = (2 * m + 1 : Int) ∨ c.coefficient = (2 * m + 2 : Int) := by
    omega
  · obtain ⟨k, hk⟩ := h.even (by
      rw [hwhole, hdown]
      push_cast
      rw [sub_add_cancel_left, abs_neg, abs_of_pos (by norm_num)])
    rw [hwhole, hdown] at hk
    have hodd : (2 * m + 1 : Int) = 2 * k := by exact_mod_cast hk
    omega
  · rw [hwhole, hup]
    push_cast
    rfl

/-- The quotient is rounded to the nearest number, and to an even one from the middle. -/
theorem abs_divHalfEven_sub (n : Nat) {d : Nat} (hd : 0 < d) :
    |(divHalfEven n d : ℚ) - n / d| ≤ 1 / 2 ∧
      (|(divHalfEven n d : ℚ) - n / d| = 1 / 2 → divHalfEven n d % 2 = 0) := by
  obtain ⟨hlow, hhigh, htie⟩ := divHalfEven_near n hd
  generalize divHalfEven n d = q at hlow hhigh htie
  have hd' : (0 : ℚ) < d := by exact_mod_cast hd
  have hlow' : (2 * n : ℚ) ≤ 2 * (q * d) + d := by exact_mod_cast hlow
  have hhigh' : (2 * (q * d) : ℚ) ≤ 2 * n + d := by exact_mod_cast hhigh
  have hdiff : (q : ℚ) - n / d = (q * d - n) / d := by
    rw [sub_div, mul_div_cancel_right₀ _ hd'.ne']
  rw [hdiff]
  constructor
  · rw [abs_le, le_div_iff₀ hd', div_le_iff₀ hd']
    constructor <;> linarith
  · intro h
    rw [abs_eq (by norm_num), div_eq_iff hd'.ne', div_eq_iff hd'.ne'] at h
    apply htie
    rcases h with h | h
    · refine Or.inr ?_
      have hup : (2 * (q * d) : ℚ) = 2 * n + d := by linarith
      exact_mod_cast hup
    · refine Or.inl ?_
      have hdown : (2 * n : ℚ) = 2 * (q * d) + d := by linarith
      exact_mod_cast hdown

/-- Dropping decimals is rounding. -/
theorem rounds_of_dropped {m left all : Nat} {c : Decimal}
    (hcoefficient : c.coefficient = divHalfEven m (10 ^ all)) (hscale : c.scale = left) :
    Rounds ((m : ℚ) / 10 ^ (left + all)) c := by
  obtain ⟨hhalf, htie⟩ := abs_divHalfEven_sub m (show 0 < 10 ^ all from Nat.pow_pos (by decide))
  generalize divHalfEven m (10 ^ all) = n at hcoefficient hhalf htie
  push_cast at hhalf htie
  have hdiff : c.toRat - (m : ℚ) / 10 ^ (left + all) = (n - m / 10 ^ all) / 10 ^ left := by
    rw [toRat, hcoefficient, hscale, pow_add, sub_div, div_div, mul_comm (10 ^ all : ℚ)]
    push_cast
    rfl
  have habs : |c.toRat - (m : ℚ) / 10 ^ (left + all)| = |(n : ℚ) - m / 10 ^ all| / 10 ^ left := by
    rw [hdiff, abs_div, abs_of_pos (show (0 : ℚ) < 10 ^ left by positivity)]
  refine ⟨?_, fun h => ?_⟩
  · rw [habs, hscale]
    exact div_le_div_of_nonneg_right hhalf (by positivity)
  · -- half a unit of the last decimal is half of one only where no decimal is left
    rw [habs, div_eq_iff (by positivity)] at h
    obtain rfl : left = 0 := by
      by_contra hleft
      have hten : (10 : ℚ) ≤ 10 ^ left := by
        calc (10 : ℚ) = 10 ^ 1 := (pow_one _).symm
          _ ≤ 10 ^ left := pow_le_pow_right₀ (by norm_num) (Nat.one_le_iff_ne_zero.2 hleft)
      linarith
    rw [pow_zero, mul_one] at h
    have heven := htie h
    have htwo : n = 2 * (n / 2) := by omega
    refine ⟨n / 2, ?_⟩
    rw [toRat, hcoefficient, hscale, pow_zero, div_one, Int.cast_natCast, ← Nat.cast_ofNat,
      ← Nat.cast_mul, ← htwo]

section Fit

variable {m s : Nat}

/-- The two ends of fitting: as many decimals are dropped as it takes, or all are and it is not
enough. -/
theorem fit?_end (hs : s ≤ maxScale) :
    (∃ c all, fit? (m : Int) s = some c ∧ c.coefficient = divHalfEven m (10 ^ all) ∧
      c.scale + all = s ∧ divHalfEven m (10 ^ all) < bound ∧
      ∀ d < all, bound ≤ divHalfEven m (10 ^ d)) ∨
    (fit? (m : Int) s = none ∧ bound ≤ divHalfEven m (10 ^ s)) := by
  unfold fit?
  rw [Int.natAbs_natCast]
  cases hsqueeze : squeeze m s 0 with
  | none => exact Or.inr ⟨rfl, squeeze_none hsqueeze⟩
  | some parts =>
      obtain ⟨coefficient, left⟩ := parts
      obtain ⟨all, -, hleft, hsmall, rfl, hbefore⟩ := squeeze_spec hsqueeze
      refine Or.inl ?_
      dsimp only
      rw [if_neg (by omega)]
      have hbounds : (divHalfEven m (10 ^ all) : Int).natAbs < 0x1000000000000000000000000 ∧
          left ≤ 28 := by
        unfold bound at hsmall
        unfold maxScale at hs
        omega
      obtain ⟨c, hc⟩ : ∃ c, ofParts? (divHalfEven m (10 ^ all)) left = some c :=
        ⟨_, dif_pos hbounds⟩
      obtain ⟨hcoefficient, rfl⟩ := parts_of_ofParts? hc
      exact ⟨c, all, hc, hcoefficient, hleft, hsmall, fun d hd => hbefore d (Nat.zero_le d) hd⟩

theorem fit?_rounds (hs : s ≤ maxScale) {c : Decimal} (h : fit? (m : Int) s = some c) :
    Rounds ((m : ℚ) / 10 ^ s) c := by
  rcases fit?_end (m := m) hs with ⟨c', all, hfit, hcoefficient, hscale, -, -⟩ | ⟨hnone, -⟩
  · obtain rfl : c' = c := Option.some.inj (hfit.symm.trans h)
    rw [← hscale]
    exact rounds_of_dropped hcoefficient rfl
  · rw [hnone] at h
    cases h

theorem fit?_exact (hs : s ≤ maxScale) (hm : m < bound) :
    ∃ c, fit? (m : Int) s = some c ∧ c.coefficient = m ∧ c.scale = s := by
  have hwhole : divHalfEven m (10 ^ 0) = m := by rw [pow_zero, divHalfEven_one]
  rcases fit?_end (m := m) hs with ⟨c, all, hfit, hcoefficient, hscale, -, hbefore⟩ | ⟨-, hlarge⟩
  · cases all with
    | zero => exact ⟨c, hfit, by rw [hcoefficient, hwhole], hscale⟩
    | succ all =>
        have hfirst := hbefore 0 (Nat.succ_pos all)
        rw [hwhole] at hfirst
        exact absurd hm (Nat.not_lt.2 hfirst)
  · have hfirst := le_divHalfEven_pow (by decide) (Nat.zero_le s) hlarge
    rw [hwhole] at hfirst
    exact absurd hm (Nat.not_lt.2 hfirst)

theorem fit?_none_iff (hs : s ≤ maxScale) :
    fit? (m : Int) s = none ↔ (bound : ℚ) - 1 / 2 ≤ (m : ℚ) / 10 ^ s := by
  have hpow : 0 < 10 ^ s := Nat.pow_pos (by decide)
  have hpow' : (0 : ℚ) < 10 ^ s := by positivity
  have hlarge : bound ≤ divHalfEven m (10 ^ s) ↔ (bound : ℚ) - 1 / 2 ≤ (m : ℚ) / 10 ^ s := by
    rw [le_divHalfEven_iff (by decide) hpow, le_div_iff₀ hpow', ← Nat.cast_le (α := ℚ)]
    push_cast
    constructor <;> intro h <;> linarith
  rw [← hlarge]
  rcases fit?_end (m := m) hs with ⟨c, all, hfit, -, hscale, hsmall, -⟩ | ⟨hnone, hnot⟩
  · rw [hfit]
    refine ⟨nofun, fun h => ?_⟩
    have hfirst := le_divHalfEven_pow (by decide) (show all ≤ s by omega) h
    exact absurd hsmall (Nat.not_lt.2 hfirst)
  · exact ⟨fun _ => hnot, fun _ => hnone⟩

end Fit

/-! ## Sums that are not below zero -/

/-- No decimal is larger than all digits allow. -/
theorem toRat_le (a : Decimal) : a.toRat ≤ ((bound : ℚ) - 1) / 10 ^ a.scale := by
  have hcoefficient : a.coefficient ≤ (bound : Int) - 1 := by
    have hmagnitude := a.natAbs_coefficient
    have hsmall := a.magnitude_lt
    unfold bound
    omega
  unfold toRat
  gcongr
  exact_mod_cast hcoefficient

theorem toRat_le_bound (a : Decimal) : a.toRat ≤ (bound : ℚ) - 1 := by
  refine a.toRat_le.trans (div_le_self ?_ (one_le_pow₀ (by norm_num)))
  norm_num [bound]

section Sum

variable {a b : Decimal}

/-- A sum is that of two operands at one scale, or one of them where the other one is zero. -/
theorem add?_end (h : 0 ≤ a.toRat + b.toRat) :
    (∃ c, add? a b = some c ∧ c.toRat = a.toRat + b.toRat ∧ c.scale ≤ max a.scale b.scale) ∨
    ∃ m : Nat, add? a b = fit? (m : Int) (max a.scale b.scale) ∧
      (m : ℚ) / 10 ^ max a.scale b.scale = a.toRat + b.toRat := by
  unfold add?
  split
  · next hzero => exact Or.inl ⟨b, rfl, by simp [toRat, hzero], le_max_right _ _⟩
  · split
    · next hzero => exact Or.inl ⟨a, rfl, by simp [toRat, hzero], le_max_left _ _⟩
    · dsimp only
      have hscale : (0 : ℚ) < 10 ^ max a.scale b.scale := by positivity
      have hexact := shifted_add a b
      generalize a.shifted (max a.scale b.scale - a.scale) +
        b.shifted (max a.scale b.scale - b.scale) = n at hexact
      have hn : 0 ≤ n := by
        rw [← Int.cast_nonneg_iff (R := ℚ), hexact]
        positivity
      obtain ⟨m, rfl⟩ := Int.eq_ofNat_of_zero_le hn
      refine Or.inr ⟨m, rfl, ?_⟩
      rw [div_eq_iff hscale.ne', ← hexact]
      rfl

/-- A sum is as near to the exact sum as its decimals allow. -/
theorem add?_rounds (h : 0 ≤ a.toRat + b.toRat) {c : Decimal} (hsum : add? a b = some c) :
    Rounds (a.toRat + b.toRat) c := by
  rcases add?_end h with ⟨c', hsome, hexact, -⟩ | ⟨m, hfit, hexact⟩
  · obtain rfl : c' = c := Option.some.inj (hsome.symm.trans hsum)
    exact .of_eq hexact
  · rw [← hexact]
    exact fit?_rounds (max_le a.scale_le b.scale_le) (hfit.symm.trans hsum)

/-- There is no sum just where the exact one is rounded up to what no coefficient can be. -/
theorem add?_none_iff (h : 0 ≤ a.toRat + b.toRat) :
    add? a b = none ↔ (bound : ℚ) - 1 / 2 ≤ a.toRat + b.toRat := by
  rcases add?_end h with ⟨c, hsome, hexact, -⟩ | ⟨m, hfit, hexact⟩
  · rw [hsome, ← hexact]
    refine ⟨nofun, fun hlarge => ?_⟩
    have hsmall := c.toRat_le_bound
    linarith
  · rw [hfit, ← hexact]
    exact fit?_none_iff (max_le a.scale_le b.scale_le)

/-- A sum that fits with all its decimals is exact. -/
theorem add?_exact (h : 0 ≤ a.toRat + b.toRat)
    (hfits : (a.toRat + b.toRat) * 10 ^ max a.scale b.scale < bound) :
    ∃ c, add? a b = some c ∧ c.toRat = a.toRat + b.toRat ∧ c.scale ≤ max a.scale b.scale := by
  rcases add?_end h with hend | ⟨m, hfit, hexact⟩
  · exact hend
  · rw [← hexact, div_mul_cancel₀ _ (by positivity), Nat.cast_lt] at hfits
    obtain ⟨c, hsome, hcoefficient, hscale⟩ := fit?_exact (max_le a.scale_le b.scale_le) hfits
    refine ⟨c, hfit.trans hsome, ?_, hscale.le⟩
    rw [← hexact, toRat, hcoefficient, hscale]
    rfl

end Sum

end Tradebook.Decimal
