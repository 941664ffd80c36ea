import Mathlib.Tactic.SplitIfs
import Tradebook.Time.Calendar

/-!
# Days counted and counted back

The date of a day count has this count (`dayNumber_ofDayNumber`). The calendar is taken
apart twice: a count into a year that starts in March and a day of it, and such a day
into a month and its day. Each way back is a lemma of its own, and both are linear
arithmetic once the quotients are named.

The counts of the instants that are handled lead to the years that are handled
(`year_ofDayNumber`); this is what lets a date that was written be read again.
-/

namespace Tradebook.Date

/-- A day of the count is that many days behind the beginning of its year. -/
theorem marchYear_days (n : Int) :
    365 * (marchYear n).1 + (marchYear n).1 / 4 - (marchYear n).1 / 100 + (marchYear n).1 / 400 +
      (marchYear n).2 = n + 719468 := by
  unfold marchYear
  dsimp only
  have hsplit := Int.mul_ediv_add_emod (n + 719468) 146097
  have hlow : 0 ≤ (n + 719468) % 146097 := Int.emod_nonneg _ (by decide)
  generalize (n + 719468) / 146097 = cycles at *
  generalize (n + 719468) % 146097 = cycleDay at *
  obtain ⟨day, rfl⟩ := Int.eq_ofNat_of_zero_le hlow
  rw [Int.toNat_natCast]
  -- What is taken off at each level is bounded, so the quotients of the year can be read off.
  generalize hcentury : min 3 (day / 36524) = century
  generalize hrest : day - 36524 * century = rest
  have h1 : century ≤ 3 ∧ day = 36524 * century + rest := by omega
  generalize hleap : min 24 (rest / 1461) = leap
  generalize hdays : rest - 1461 * leap = days
  have h2 : leap ≤ 24 ∧ rest = 1461 * leap + days := by omega
  generalize hsingle : min 3 (days / 365) = single
  have h3 : single ≤ 3 ∧ 365 * single ≤ days := by omega
  clear hcentury hrest hleap hdays hsingle
  have hquarter : (400 * cycles + ((100 * century + 4 * leap + single : Nat) : Int)) / 4 =
      100 * cycles + 25 * century + leap := by omega
  have hhundred : (400 * cycles + ((100 * century + 4 * leap + single : Nat) : Int)) / 100 =
      4 * cycles + century := by omega
  have hcycle : (400 * cycles + ((100 * century + 4 * leap + single : Nat) : Int)) / 400 =
      cycles := by omega
  rw [hquarter, hhundred, hcycle]
  omega

/-- The months from March on and the day of a month make the day of the year. -/
theorem monthAndDay_days {day : Nat} (h : day ≤ 365) :
    daysBeforeMonth (if (monthAndDay day).1 ≤ 2 then (monthAndDay day).1 + 9
      else (monthAndDay day).1 - 3) + (monthAndDay day).2 = day + 1 := by
  unfold monthAndDay
  dsimp only
  generalize hmonths : (5 * day + 2) / 153 = months
  have hback : (if (if months < 10 then months + 3 else months - 9) ≤ 2
      then (if months < 10 then months + 3 else months - 9) + 9
      else (if months < 10 then months + 3 else months - 9) - 3) = months := by
    split_ifs <;> omega
  rw [hback]
  unfold daysBeforeMonth
  omega

theorem dayNumber_ofDayNumber (n : Int) : (ofDayNumber n).dayNumber = n := by
  have hyear := marchYear_days n
  have hmonth := monthAndDay_days (marchYear_bounds n).1
  unfold dayNumber ofDayNumber
  dsimp only
  split
  · next hearly =>
      rw [if_pos hearly] at hmonth
      omega
  · next hlate =>
      rw [if_neg hlate] at hmonth
      omega

/-- From January on a day belongs to the year after the one that its year started in. -/
theorem year_ofDayNumber_eq (n : Int) :
    (ofDayNumber n).year =
      if (marchYear n).2 < 306 then (marchYear n).1 else (marchYear n).1 + 1 := by
  have hyear : (ofDayNumber n).year =
      if (monthAndDay (marchYear n).2).1 ≤ 2 then (marchYear n).1 + 1 else (marchYear n).1 := rfl
  have hmonth : (monthAndDay (marchYear n).2).1 =
      if (5 * (marchYear n).2 + 2) / 153 < 10 then (5 * (marchYear n).2 + 2) / 153 + 3
      else (5 * (marchYear n).2 + 2) / 153 - 9 := rfl
  have hday := (marchYear_bounds n).1
  rw [hyear]
  by_cases hearly : (marchYear n).2 < 306
  · rw [if_pos hearly, if_neg]
    rw [hmonth, if_pos (by omega)]
    omega
  · rw [if_neg hearly, if_pos]
    rw [hmonth, if_neg (by omega)]
    omega

/-- The days of the instants that are handled are days of the years that are handled. -/
theorem year_ofDayNumber {n : Int} (hfirst : -96465292 ≤ n) (hlast : n ≤ 95026236) :
    firstYear ≤ (ofDayNumber n).year ∧ (ofDayNumber n).year ≤ lastYear := by
  have hyear := marchYear_days n
  have hday := (marchYear_bounds n).1
  rw [year_ofDayNumber_eq]
  unfold firstYear lastYear
  generalize (marchYear n).1 = year at *
  generalize (marchYear n).2 = day at *
  have hlow : -262144 ≤ year := by omega
  have hhigh : year ≤ 262142 := by omega
  -- Of the first and the last of these years only one end is handled.
  rcases Int.lt_or_eq_of_le hlow with hlow | rfl
  · rcases Int.lt_or_eq_of_le hhigh with hhigh | rfl
    · split
      · omega
      · omega
    · rw [if_pos (by omega)]
      omega
  · rw [if_neg (by omega)]
    omega

end Tradebook.Date
