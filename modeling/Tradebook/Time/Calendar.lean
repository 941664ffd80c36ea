import Tradebook.Text.Digits

/-!
# The calendar

Dates of the Gregorian calendar, carried on without a break before its
introduction and past the year zero, and the day count that turns a span of days
into arithmetic. Day 0 is 1970-01-01.

The count starts a year in March, so that the leap day is the last day of its
year: then the length of the months before a month does not depend on the year,
and a date is found again by taking off cycles of 400, 100, 4 and 1 years.
-/

namespace Tradebook

open Tradebook.Text

/-- Every fourth year has a leap day, but of the years divisible by 100 only every fourth. -/
def isLeapYear (year : Int) : Bool :=
  year % 4 == 0 && (year % 100 != 0 || year % 400 == 0)

/-- The days of a month, counted from 1; of use for months 1 to 12. -/
def monthLength (year : Int) (month : Nat) : Nat :=
  if month = 2 then (if isLeapYear year then 29 else 28)
  else if month = 4 ∨ month = 6 ∨ month = 9 ∨ month = 11 then 30
  else 31

/-- A day of the calendar. -/
structure Date where
  year : Int
  month : Nat
  day : Nat
  month_mem : 1 ≤ month ∧ month ≤ 12
  day_mem : 1 ≤ day ∧ day ≤ monthLength year month
  deriving DecidableEq, Repr

namespace Date

/-- The first and the last year that dates are handled in. -/
def firstYear : Int :=
  -262143

/-- See `firstYear`. -/
def lastYear : Int :=
  262142

/-- The day with the given parts, if there is one in the years handled. -/
def ofParts? (year : Int) (month day : Nat) : Option Date :=
  if h : (1 ≤ month ∧ month ≤ 12) ∧ 1 ≤ day ∧ day ≤ monthLength year month then
    if firstYear ≤ year ∧ year ≤ lastYear then some ⟨year, month, day, h.1, h.2⟩ else none
  else none

/-- Days from the first of March of a year to the first of the month that is `months` later. -/
def daysBeforeMonth (months : Nat) : Nat :=
  (153 * months + 2) / 5

/-- Days since 1970-01-01, negative before it. -/
def dayNumber (d : Date) : Int :=
  let year := if d.month ≤ 2 then d.year - 1 else d.year
  let months := if d.month ≤ 2 then d.month + 9 else d.month - 3
  365 * year + year / 4 - year / 100 + year / 400 + daysBeforeMonth months + d.day - 719469

/-- A year that starts in March and a day of it, counted from 0. -/
def marchYear (n : Int) : Int × Nat :=
  let fromMarch := n + 719468
  let day := (fromMarch % 146097).toNat
  let century := min 3 (day / 36524)
  let day := day - 36524 * century
  let leap := min 24 (day / 1461)
  let day := day - 1461 * leap
  let single := min 3 (day / 365)
  (400 * (fromMarch / 146097) + (100 * century + 4 * leap + single : Nat), day - 365 * single)

/-- The month and its day that a day of a year starting in March falls on. -/
def monthAndDay (day : Nat) : Nat × Nat :=
  let months := (5 * day + 2) / 153
  (if months < 10 then months + 3 else months - 9, day - daysBeforeMonth months + 1)

theorem marchYear_bounds (n : Int) :
    (marchYear n).2 ≤ 365 ∧ ((marchYear n).2 = 365 → isLeapYear ((marchYear n).1 + 1) = true) := by
  unfold marchYear isLeapYear
  dsimp only
  have h0 : 0 ≤ (n + 719468) % 146097 := Int.emod_nonneg _ (by decide)
  have h1 : (n + 719468) % 146097 < 146097 := Int.emod_lt_of_pos _ (by decide)
  generalize (n + 719468) / 146097 = cycles
  generalize hday : ((n + 719468) % 146097).toNat = day
  have h2 : day < 146097 := by omega
  clear hday h0 h1
  generalize hc : min 3 (day / 36524) = century
  generalize hr : day - 36524 * century = rest
  have hcr : century ≤ 3 ∧ rest ≤ 36524 ∧ (rest = 36524 → century = 3) := by omega
  generalize hl : min 24 (rest / 1461) = leap
  generalize hs : rest - 1461 * leap = days
  have hls : leap ≤ 24 ∧ days ≤ 1460 ∧ (days = 1460 → leap = 24 → century = 3) := by omega
  generalize hg : min 3 (days / 365) = single
  have hgs : single ≤ 3 := by omega
  refine ⟨by omega, fun h => ?_⟩
  have h3 : single = 3 ∧ days = 1460 := by omega
  obtain ⟨rfl, rfl⟩ := h3
  simp only [Bool.and_eq_true, Bool.or_eq_true, beq_iff_eq, bne_iff_ne]
  refine ⟨by omega, ?_⟩
  by_cases hlast : leap = 24
  · right
    have := hls.2.2 rfl hlast
    omega
  · left
    omega

theorem monthAndDay_valid {day : Nat} (h : day ≤ 365) :
    1 ≤ (monthAndDay day).1 ∧ (monthAndDay day).1 ≤ 12 ∧ 1 ≤ (monthAndDay day).2 ∧
      ((monthAndDay day).1 = 2 → (monthAndDay day).2 ≤ day - 336 ∧ (monthAndDay day).2 ≤ 29 ∧
        ((monthAndDay day).2 = 29 → day = 365)) ∧
      ((monthAndDay day).1 = 4 ∨ (monthAndDay day).1 = 6 ∨ (monthAndDay day).1 = 9 ∨
        (monthAndDay day).1 = 11 → (monthAndDay day).2 ≤ 30) ∧ (monthAndDay day).2 ≤ 31 := by
  unfold monthAndDay daysBeforeMonth
  dsimp only
  generalize hm : (5 * day + 2) / 153 = months
  generalize hd : (153 * months + 2) / 5 = before
  have hb : months ≤ 11 ∧ before ≤ day := by omega
  by_cases late : months < 10
  · simp only [if_pos late]
    omega
  · simp only [if_neg late]
    omega

/-- The date of a day count. -/
def ofDayNumber (n : Int) : Date :=
  let year := marchYear n
  let month := monthAndDay year.2
  have valid := monthAndDay_valid (marchYear_bounds n).1
  ⟨if month.1 ≤ 2 then year.1 + 1 else year.1, month.1, month.2, ⟨valid.1, valid.2.1⟩,
    valid.2.2.1, by
      have leap := (marchYear_bounds n).2
      obtain ⟨_, _, _, february, thirty, any⟩ := valid
      unfold monthLength
      split
      · rename_i two
        have two' : (monthAndDay (marchYear n).2).1 = 2 := two
        have bound := february two'
        have small : month.1 ≤ 2 := by omega
        rw [if_pos small]
        split
        · exact bound.2.1
        · rename_i common
          have : (monthAndDay (marchYear n).2).2 ≠ 29 := fun h => common (leap (bound.2.2 h))
          have := bound.2.1
          show (monthAndDay (marchYear n).2).2 ≤ 28
          omega
      · split
        · rename_i h
          exact thirty h
        · exact any⟩

/-- The year as it is written: four digits, or with a sign where that is too few. -/
def yearText (year : Int) : String :=
  if 0 ≤ year ∧ year ≤ 9999 then .ofList (padZeros 4 (decimalDigits year.toNat))
  else .ofList ((if year < 0 then '-' else '+') :: padZeros 4 (decimalDigits year.natAbs))

/-- Two digits of a number below one hundred. -/
def twoDigits (n : Nat) : String :=
  .ofList (padZeros 2 (decimalDigits n))

/-- Year, month and day between hyphens. -/
def text (d : Date) : String :=
  yearText d.year ++ "-" ++ twoDigits d.month ++ "-" ++ twoDigits d.day

/-- The months since the beginning of the year zero. -/
def monthIndex (d : Date) : Int :=
  12 * d.year + (d.month - 1 : Nat)

end Date

end Tradebook
