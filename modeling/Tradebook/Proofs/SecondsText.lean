import Mathlib
import Tradebook.Proofs.TimeParameter

/-!
# The number that names an instant

In a request an instant is the text of a number of seconds: its whole seconds, a point, and its
microseconds. From the epoch on that number is the instant, cut off to the microsecond. Before
the epoch it is not: the seconds are rounded down and are negative, and the decimals, which count
forward from there, are read backward, with the sign. So the two halves of a second before the
epoch change places. A leap second has a seventh decimal, which makes of more than a second less
than a fifth of one.

`secondsOf?` reads any number with a point, and `secondsOf?_timeParameter` says what it reads. All
decimals together are less than one (`decimals_lt_one`), and therefore the order of two instants is
only ever lost within one second.
-/

namespace Tradebook

open Text

namespace Timestamp

/-- Seconds since the epoch, with all nanoseconds; those of a leap second count on. -/
def epochSeconds (t : Timestamp) : ℚ :=
  t.seconds + t.nanos / 1000000000

/-- What stands behind the point: six decimals, or seven in a leap second. -/
def decimals (t : Timestamp) : ℚ :=
  (t.nanos / 1000 : ℕ) / 10 ^ (if t.Plain then 6 else 7)

/-- The number that names an instant. The sign of the seconds is that of the decimals too. -/
def told (t : Timestamp) : ℚ :=
  if 0 ≤ t.seconds then t.seconds + t.decimals else t.seconds - t.decimals

theorem decimals_nonneg (t : Timestamp) : 0 ≤ t.decimals := by
  unfold decimals
  positivity

theorem decimals_of_plain {t : Timestamp} (h : t.Plain) :
    t.decimals = (t.nanos / 1000 : ℕ) / 1000000 := by
  unfold decimals
  rw [if_pos h]
  norm_num

theorem decimals_of_leap {t : Timestamp} (h : ¬ t.Plain) :
    t.decimals = (t.nanos / 1000 : ℕ) / 10000000 := by
  unfold decimals
  rw [if_neg h]
  norm_num

theorem decimals_lt_one (t : Timestamp) : t.decimals < 1 := by
  by_cases h : t.Plain
  · have hmicros : t.nanos / 1000 < 1000000 := by
      unfold Plain at h
      omega
    rw [decimals_of_plain h, div_lt_one (by norm_num)]
    exact_mod_cast hmicros
  · have hmicros : t.nanos / 1000 < 10000000 := by
      have := t.nanos_lt
      omega
    rw [decimals_of_leap h, div_lt_one (by norm_num)]
    exact_mod_cast hmicros

end Timestamp

namespace Ftx

/-! ## Reading the number -/

/-- Reads digits, a point and more digits. -/
def pointNumber? (cs : List Char) : Option ℚ :=
  let whole := cs.takeWhile (· ≠ '.')
  let fraction := (cs.dropWhile (· ≠ '.')).drop 1
  if whole ≠ [] ∧ fraction ≠ [] ∧ (whole ++ fraction).all Char.isDigit then
    some ((ofDigits (whole ++ fraction) : ℚ) / 10 ^ fraction.length)
  else none

/-- Reads a number with a point, perhaps with a sign in front. -/
def secondsOf? (text : String) : Option ℚ :=
  if text.toList.head? = some '-' then (pointNumber? text.toList.tail).map (-·)
  else pointNumber? text.toList

theorem pointNumber?_digits {whole fraction : List Char} (hwhole : whole ≠ [])
    (hfraction : fraction ≠ []) (hdigits : ∀ c ∈ whole ++ fraction, c.isDigit = true) :
    pointNumber? (whole ++ '.' :: fraction) =
      some ((ofDigits whole : ℚ) + ofDigits fraction / 10 ^ fraction.length) := by
  have hpoint : ∀ c ∈ whole, c ≠ '.' := by
    intro c hc
    exact isDigit_ne (hdigits c (List.mem_append_left _ hc)) (by decide)
  have htake : (whole ++ '.' :: fraction).takeWhile (· ≠ '.') = whole := by
    rw [List.takeWhile_append_of_pos (by simpa using hpoint)]
    simp
  have hdrop : ((whole ++ '.' :: fraction).dropWhile (· ≠ '.')).drop 1 = fraction := by
    rw [List.dropWhile_append_of_pos (by simpa using hpoint)]
    simp
  unfold pointNumber?
  simp only [htake, hdrop]
  rw [if_pos ⟨hwhole, hfraction, List.all_eq_true.2 hdigits⟩, ofDigits_append]
  push_cast
  rw [add_div, mul_div_assoc, div_self (by positivity), mul_one]

/-- The microseconds of an instant as they are written: more than six only in a leap second. -/
theorem length_decimals (t : Timestamp) :
    (padZeros 6 (decimalDigits (t.nanos / 1000))).length = if t.Plain then 6 else 7 := by
  have hnanos := t.nanos_lt
  split
  · next hplain =>
      unfold Timestamp.Plain at hplain
      exact length_padZeros (length_decimalDigits_le 5 (by omega))
  · next hleap =>
      unfold Timestamp.Plain at hleap
      have hmost : (decimalDigits (t.nanos / 1000)).length ≤ 7 :=
        length_decimalDigits_le 6 (by omega)
      have hleast : 6 < (decimalDigits (t.nanos / 1000)).length := by
        by_contra hshort
        have hlt := ofDigits_lt (isDigit_of_mem_decimalDigits (t.nanos / 1000))
        have hpow : 10 ^ (decimalDigits (t.nanos / 1000)).length ≤ 10 ^ 6 :=
          Nat.pow_le_pow_right (by decide) (by omega)
        rw [ofDigits_decimalDigits] at hlt
        omega
      rw [padZeros, List.length_append, List.length_replicate]
      omega

theorem pointNumber?_timeParameter (n : ℕ) (t : Timestamp) :
    pointNumber? (decimalDigits n ++ '.' :: padZeros 6 (decimalDigits (t.nanos / 1000))) =
      some ((n : ℚ) + t.decimals) := by
  have hlength := length_decimals t
  have hdigits : ∀ c ∈ decimalDigits n ++ padZeros 6 (decimalDigits (t.nanos / 1000)),
      c.isDigit = true := by
    intro c hc
    rcases List.mem_append.1 hc with hc | hc
    · exact isDigit_of_mem_decimalDigits n c hc
    · exact isDigit_of_mem_padZeros (isDigit_of_mem_decimalDigits _) c hc
  have hfraction : padZeros 6 (decimalDigits (t.nanos / 1000)) ≠ [] := by
    intro hnone
    rw [hnone] at hlength
    split at hlength <;> cases hlength
  rw [pointNumber?_digits (decimalDigits_ne_nil n) hfraction hdigits, hlength, ofDigits_padZeros,
    ofDigits_decimalDigits, ofDigits_decimalDigits]
  rfl

/-- Every instant is named by a number, and this is the one. -/
theorem secondsOf?_timeParameter (t : Timestamp) :
    secondsOf? (timeParameter t) = some t.told := by
  unfold secondsOf? Timestamp.told
  rw [toList_timeParameter]
  cases hseconds : t.seconds with
  | ofNat n =>
      have hdigits : (intText (.ofNat n)).toList = decimalDigits n := by simp [intText, natText]
      have hhead : (decimalDigits n ++ '.' :: padZeros 6 (decimalDigits (t.nanos / 1000))).head? ≠
          some '-' := by
        obtain ⟨c, cs, hcs⟩ := List.exists_cons_of_ne_nil (decimalDigits_ne_nil n)
        have hc := isDigit_of_mem_decimalDigits n c (by rw [hcs]; exact List.mem_cons_self)
        rw [hcs, List.cons_append, List.head?_cons]
        intro heq
        exact isDigit_ne hc (by decide) (Option.some.inj heq)
      rw [hdigits, if_neg hhead, pointNumber?_timeParameter, Int.ofNat_eq_natCast,
        if_pos (Int.natCast_nonneg n), Int.cast_natCast]
  | negSucc n =>
      have hdigits : (intText (.negSucc n)).toList = '-' :: decimalDigits (n + 1) := by
        simp [intText, natText]
      rw [hdigits, List.cons_append, List.head?_cons, if_pos rfl, List.tail_cons,
        pointNumber?_timeParameter, if_neg (by omega), Option.map_some, Int.cast_negSucc]
      congr 1
      push_cast
      ring

/-! ## The number and the instant -/

end Ftx

namespace Timestamp

theorem told_since_epoch {t : Timestamp} (h : 0 ≤ t.seconds) :
    t.told = t.seconds + t.decimals := by
  unfold told
  rw [if_pos h]

theorem told_before_epoch {t : Timestamp} (h : t.seconds < 0) :
    t.told = t.seconds - t.decimals := by
  unfold told
  rw [if_neg (not_le.2 h)]

/-- Microseconds are nanoseconds cut off. -/
theorem micros_bounds (t : Timestamp) :
    ((t.nanos / 1000 : ℕ) : ℚ) * 1000 ≤ t.nanos ∧
      (t.nanos : ℚ) < ((t.nanos / 1000 : ℕ) : ℚ) * 1000 + 1000 := by
  constructor
  · exact_mod_cast Nat.div_mul_le_self t.nanos 1000
  · have hlt : t.nanos < t.nanos / 1000 * 1000 + 1000 := by omega
    exact_mod_cast hlt

/-- The number is the instant cut off to the microsecond just if the decimals count forward or
there are none, and no leap second counts on. -/
theorem told_truncated_iff (t : Timestamp) :
    (t.told ≤ t.epochSeconds ∧ t.epochSeconds < t.told + 1 / 1000000) ↔
      t.Plain ∧ (0 ≤ t.seconds ∨ t.nanos < 1000) := by
  obtain ⟨hlow, hhigh⟩ := t.micros_bounds
  unfold epochSeconds
  by_cases hplain : t.Plain
  · have hdecimals := decimals_of_plain hplain
    rcases le_or_gt 0 t.seconds with hsince | hbefore
    · rw [told_since_epoch hsince]
      refine iff_of_true ⟨?_, ?_⟩ ⟨hplain, Or.inl hsince⟩
      · linarith
      · linarith
    · rw [told_before_epoch hbefore]
      constructor
      · rintro ⟨-, hclose⟩
        have hsmall : (t.nanos : ℚ) < 1000 := by
          have := t.decimals_nonneg
          linarith
        exact ⟨hplain, Or.inr (by exact_mod_cast hsmall)⟩
      · rintro ⟨-, hsince | hsmall⟩
        · exact absurd hsince (not_le.2 hbefore)
        · have hnone : t.decimals = 0 := by
            rw [hdecimals, Nat.div_eq_of_lt hsmall, Nat.cast_zero, zero_div]
          have hnanos : (t.nanos : ℚ) < 1000 := by exact_mod_cast hsmall
          have hfew : (0 : ℚ) ≤ t.nanos := Nat.cast_nonneg _
          rw [hnone]
          constructor
          · linarith
          · linarith
  · have hlate : (1000000000 : ℚ) ≤ t.nanos := by exact_mod_cast not_lt.1 hplain
    have hdecimals := decimals_of_leap hplain
    refine iff_of_false ?_ fun h => hplain h.1
    rintro ⟨-, hclose⟩
    -- either way the number is at most a fifth of a second late where the instant is a whole one
    have hmost : t.told ≤ t.seconds + t.decimals := by
      have := t.decimals_nonneg
      rcases le_or_gt 0 t.seconds with hsince | hbefore
      · rw [told_since_epoch hsince]
      · rw [told_before_epoch hbefore]
        linarith
    linarith

/-- Between different seconds the order is kept; within one it is that of the decimals from the
epoch on, and before the epoch the opposite. -/
theorem told_le_iff {a b : Timestamp} (h : a ≤ b) :
    a.told ≤ b.told ↔
      a.seconds < b.seconds ∨
        if 0 ≤ a.seconds then a.decimals ≤ b.decimals else b.decimals ≤ a.decimals := by
  have ha := a.decimals_nonneg
  have hb := b.decimals_nonneg
  have ha' := a.decimals_lt_one
  have hb' := b.decimals_lt_one
  rcases (seconds_le_of_le h).lt_or_eq with hlt | heq
  · have hstep : (a.seconds : ℚ) + 1 ≤ b.seconds := by exact_mod_cast hlt
    refine iff_of_true ?_ (Or.inl hlt)
    unfold told
    split_ifs with hasince hbsince
    · linarith
    · exact absurd (le_trans hasince hlt.le) hbsince
    · linarith
    · linarith
  · unfold told
    rw [← heq]
    simp only [lt_self_iff_false, false_or]
    split_ifs
    · exact add_le_add_iff_left _
    · exact sub_le_sub_iff_left _

theorem decimals_le_iff {a b : Timestamp} (ha : a.Plain) (hb : b.Plain) :
    a.decimals ≤ b.decimals ↔ a.nanos / 1000 ≤ b.nanos / 1000 := by
  rw [decimals_of_plain ha, decimals_of_plain hb, div_le_div_iff_of_pos_right (by norm_num),
    Nat.cast_le]

/-- Outside leap seconds the order is lost just between two microseconds of one second before the
epoch. -/
theorem told_le_iff_of_plain {a b : Timestamp} (h : a ≤ b) (ha : a.Plain) (hb : b.Plain) :
    a.told ≤ b.told ↔
      a.seconds < b.seconds ∨ 0 ≤ a.seconds ∨ a.nanos / 1000 = b.nanos / 1000 := by
  rw [told_le_iff h]
  refine or_congr_right' fun hlt => ?_
  have heq : a.seconds = b.seconds := le_antisymm (seconds_le_of_le h) (not_lt.1 hlt)
  have hnanos : a.nanos ≤ b.nanos := by
    rw [le_iff_rank] at h
    unfold rank at h
    omega
  rw [decimals_le_iff ha hb, decimals_le_iff hb ha]
  have hmicros := Nat.div_le_div_right (c := 1000) hnanos
  split_ifs with hsince
  · exact iff_of_true hmicros (Or.inl hsince)
  · simp only [hsince, false_or]
    exact ⟨fun hle => le_antisymm hmicros hle, fun heq => heq.ge⟩

end Timestamp

namespace Ftx

/-- An instant is named by a number. It is the instant cut off to the microsecond just if that is
not from before the epoch, or has no microseconds, and is in no leap second. Of two instants in
order the numbers are in order too if the seconds differ; within one second they are as the
decimals are from the epoch on, and before it the other way round. -/
theorem time_parameter_told (t : Timestamp) :
    ∃ q, secondsOf? (timeParameter t) = some q ∧
      ((q ≤ t.epochSeconds ∧ t.epochSeconds < q + 1 / 1000000) ↔
        t.Plain ∧ (0 ≤ t.seconds ∨ t.nanos < 1000)) ∧
      ∀ later, t ≤ later → ∃ p, secondsOf? (timeParameter later) = some p ∧
        (q ≤ p ↔ t.seconds < later.seconds ∨
          if 0 ≤ t.seconds then t.decimals ≤ later.decimals else later.decimals ≤ t.decimals) ∧
        (t.Plain → later.Plain → (q ≤ p ↔
          t.seconds < later.seconds ∨ 0 ≤ t.seconds ∨ t.nanos / 1000 = later.nanos / 1000)) := by
  refine ⟨t.told, secondsOf?_timeParameter t, t.told_truncated_iff, ?_⟩
  intro later hlater
  exact ⟨later.told, secondsOf?_timeParameter later, Timestamp.told_le_iff hlater,
    Timestamp.told_le_iff_of_plain hlater⟩

/-- Two seconds before the epoch. -/
def twoBefore : Timestamp :=
  { Timestamp.epoch with seconds := -2, first_le := by decide, le_last := by decide }

/-- One and a half seconds before the epoch. -/
def oneAndHalfBefore : Timestamp :=
  ⟨-2, 500000000, by decide, by decide, by decide⟩

/-- The middle of the leap second at the end of 2016. -/
def inLeapSecond : Timestamp :=
  ⟨1483228799, 1500000000, by decide, by decide, by decide⟩

theorem time_parameter_told_across_epoch :
    twoBefore ≤ .epoch ∧ twoBefore.Plain ∧ Timestamp.epoch.Plain ∧ ∃ p q,
      secondsOf? (timeParameter twoBefore) = some p ∧
      secondsOf? (timeParameter .epoch) = some q ∧ p ≤ q := by
  have horder : twoBefore ≤ .epoch := by decide
  have hplain : twoBefore.Plain ∧ Timestamp.epoch.Plain := by decide
  obtain ⟨p, hp, -, hlater⟩ := time_parameter_told twoBefore
  obtain ⟨q, hq, -, hiff⟩ := hlater .epoch horder
  exact ⟨horder, hplain.1, hplain.2, p, q, hp, hq,
    (hiff hplain.1 hplain.2).2 (Or.inl (by decide))⟩

/-- What is half a second later is named by a number that is half a second earlier, and is a second
away from the instant. In a leap second the number is more than a second short. -/
theorem half_second_before_epoch_goes_back :
    twoBefore ≤ oneAndHalfBefore ∧
    secondsOf? (timeParameter twoBefore) = some (-2) ∧
    secondsOf? (timeParameter oneAndHalfBefore) = some (-5 / 2) ∧
    oneAndHalfBefore.epochSeconds = -3 / 2 ∧
    secondsOf? (timeParameter inLeapSecond) = some (1483228799 + 15 / 100) ∧
    inLeapSecond.epochSeconds = 1483228799 + 3 / 2 := by
  simp only [secondsOf?_timeParameter, Option.some.injEq]
  refine ⟨by decide, ?_, ?_, ?_, ?_, ?_⟩
  · rw [Timestamp.told_before_epoch (by decide), Timestamp.decimals_of_plain (by decide)]
    norm_num [twoBefore, Timestamp.epoch]
  · rw [Timestamp.told_before_epoch (by decide), Timestamp.decimals_of_plain (by decide)]
    norm_num [oneAndHalfBefore]
  · norm_num [Timestamp.epochSeconds, oneAndHalfBefore]
  · rw [Timestamp.told_since_epoch (by decide), Timestamp.decimals_of_leap (by decide)]
    norm_num [inLeapSecond]
  · norm_num [Timestamp.epochSeconds, inLeapSecond]

end Ftx

end Tradebook
