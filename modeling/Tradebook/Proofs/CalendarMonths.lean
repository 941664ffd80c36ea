import Mathlib.Algebra.BigOperators.Intervals
import Mathlib.Tactic.IntervalCases
import Mathlib.Tactic.SplitIfs
import Tradebook.Proofs.CalendarDays

/-!
# Months one after the other

The months are numbered through from the beginning of the year zero (`monthIndex`), and
each begins on the day after the last one of the month before (`beforeMonth_succ`). That is the only
lemma here that looks into the count of days. It places every day in a stretch that belongs
to one month alone (`monthIndex_day_of_dayNumber`), and from this follow the way back from the
count to the date (`ofDayNumber_dayNumber`) and the order of days (`before_iff_dayNumber_lt`).
-/

namespace Tradebook.Date

/-- The day before the first of a month. -/
def beforeMonthOf (year : Int) (month : Nat) : Int :=
  let fromMarch := if month ≤ 2 then year - 1 else year
  let months := if month ≤ 2 then month + 9 else month - 3
  365 * fromMarch + fromMarch / 4 - fromMarch / 100 + fromMarch / 400 + daysBeforeMonth months -
    719469

/-- The same of the month with a number. -/
def beforeMonth (index : Int) : Int :=
  beforeMonthOf (index / 12) ((index % 12).toNat + 1)

def lengthOfMonth (index : Int) : Nat :=
  monthLength (index / 12) ((index % 12).toNat + 1)

theorem lengthOfMonth_bounds (index : Int) :
    28 ≤ lengthOfMonth index ∧ lengthOfMonth index ≤ 31 := by
  unfold lengthOfMonth monthLength
  split_ifs <;> omega

theorem index_parts (year : Int) {month : Nat} (hmonth : 1 ≤ month ∧ month ≤ 12) :
    (12 * year + (month - 1 : Nat)) / 12 = year ∧
      ((12 * year + (month - 1 : Nat)) % 12).toNat + 1 = month := by
  omega

theorem dayNumber_eq (d : Date) : d.dayNumber = beforeMonth d.monthIndex + d.day := by
  obtain ⟨hyear, hmonth⟩ := index_parts d.year d.month_mem
  unfold beforeMonth monthIndex
  rw [hyear, hmonth]
  unfold dayNumber beforeMonthOf
  dsimp only
  omega

theorem day_le_lengthOfMonth (d : Date) : d.day ≤ lengthOfMonth d.monthIndex := by
  obtain ⟨hyear, hmonth⟩ := index_parts d.year d.month_mem
  unfold lengthOfMonth monthIndex
  rw [hyear, hmonth]
  exact d.day_mem.2

/-- The leap day is the only day that depends on the year. -/
theorem beforeMonthOf_march (year : Int) :
    beforeMonthOf year 3 = beforeMonthOf year 2 + monthLength year 2 := by
  have hleap : isLeapYear year = true ↔ year % 4 = 0 ∧ (year % 100 ≠ 0 ∨ year % 400 = 0) := by
    simp [isLeapYear]
  have hlength : monthLength year 2 = if isLeapYear year then 29 else 28 := rfl
  have hmarch : beforeMonthOf year 3 =
      365 * year + year / 4 - year / 100 + year / 400 + 0 - 719469 := rfl
  have hfebruary : beforeMonthOf year 2 =
      365 * (year - 1) + (year - 1) / 4 - (year - 1) / 100 + (year - 1) / 400 + 337 - 719469 := rfl
  rw [hlength, hmarch, hfebruary]
  split
  · next hyes =>
      have := hleap.1 hyes
      omega
  · next hno =>
      have := mt hleap.2 hno
      omega

theorem beforeMonthOf_january (year : Int) :
    beforeMonthOf (year + 1) 1 = beforeMonthOf year 12 + monthLength year 12 := by
  have hlength : monthLength year 12 = 31 := rfl
  have hjanuary : beforeMonthOf (year + 1) 1 = 365 * (year + 1 - 1) + (year + 1 - 1) / 4 -
      (year + 1 - 1) / 100 + (year + 1 - 1) / 400 + 306 - 719469 := rfl
  have hdecember : beforeMonthOf year 12 =
      365 * year + year / 4 - year / 100 + year / 400 + 275 - 719469 := rfl
  rw [hlength, hjanuary, hdecember]
  omega

/-- Each month begins where the one before ends. -/
theorem beforeMonth_succ (index : Int) :
    beforeMonth (index + 1) = beforeMonth index + lengthOfMonth index := by
  obtain ⟨year, month, hmonth, rfl⟩ : ∃ (year : Int) (month : Nat), month < 12 ∧
      index = 12 * year + month := ⟨index / 12, (index % 12).toNat, by omega, by omega⟩
  have hyear : (12 * year + month) / 12 = year := by omega
  have hrest : ((12 * year + month) % 12).toNat = month := by omega
  unfold beforeMonth lengthOfMonth
  rw [hyear, hrest]
  -- only over the new year and over the leap day does the year matter
  by_cases hlast : month = 11
  · subst hlast
    have hnext : (12 * year + (11 : Nat) + 1) / 12 = year + 1 := by omega
    have hfirst : ((12 * year + (11 : Nat) + 1) % 12).toNat = 0 := by omega
    rw [hnext, hfirst]
    exact beforeMonthOf_january year
  · have hsame : (12 * year + month + 1) / 12 = year := by omega
    have hnext : ((12 * year + month + 1) % 12).toNat = month + 1 := by omega
    rw [hsame, hnext]
    by_cases hfebruary : month = 1
    · subst hfebruary
      exact beforeMonthOf_march year
    · unfold beforeMonthOf monthLength daysBeforeMonth
      interval_cases month <;> simp at hlast hfebruary ⊢ <;> omega

/-- The days of so many months before a month. -/
def daysOfMonthsBefore (index : Int) (months : Nat) : Nat :=
  ∑ k ∈ Finset.range months, lengthOfMonth (index - 1 - k)

theorem beforeMonth_sub (index : Int) (months : Nat) :
    beforeMonth (index - months) + daysOfMonthsBefore index months = beforeMonth index := by
  induction months with
  | zero => simp [daysOfMonthsBefore]
  | succ months ih =>
      have hnext := beforeMonth_succ (index - 1 - months)
      have hsame : index - 1 - months + 1 = index - months := by omega
      have hless : index - (months + 1 : Nat) = index - 1 - months := by omega
      rw [hsame] at hnext
      rw [hless, ← ih, hnext]
      unfold daysOfMonthsBefore
      rw [Finset.sum_range_succ]
      omega

/-- A month is over before a later one begins. -/
theorem beforeMonth_add_length_le {index later : Int} (h : index < later) :
    beforeMonth index + lengthOfMonth index ≤ beforeMonth later := by
  obtain ⟨months, rfl⟩ : ∃ months : Nat, later = index + 1 + months :=
    ⟨(later - index - 1).toNat, by omega⟩
  have hsub := beforeMonth_sub (index + 1 + months) months
  rw [add_sub_cancel_right, beforeMonth_succ] at hsub
  omega

theorem beforeMonth_mono {index later : Int} (h : index ≤ later) :
    beforeMonth index ≤ beforeMonth later := by
  rcases Int.lt_or_eq_of_le h with hlt | rfl
  · have := beforeMonth_add_length_le hlt
    omega
  · exact Int.le_refl _

/-- The days of some years are counted between the ends of these years. -/
theorem dayNumber_of_years {d : Date} {first last : Int} (h : first ≤ d.year ∧ d.year ≤ last) :
    beforeMonth (12 * first) < d.dayNumber ∧ d.dayNumber ≤ beforeMonth (12 * (last + 1)) := by
  have hmonth := d.month_mem
  have hindex : 12 * first ≤ d.monthIndex ∧ d.monthIndex < 12 * (last + 1) := by
    unfold monthIndex
    omega
  have hbegin := beforeMonth_mono hindex.1
  have hend := beforeMonth_add_length_le hindex.2
  have hone := d.day_mem.1
  have hlength := day_le_lengthOfMonth d
  rw [dayNumber_eq]
  omega

theorem ofParts?_first {index : Int} (h : firstYear ≤ index / 12 ∧ index / 12 ≤ lastYear) :
    ∃ first, ofParts? (index / 12) ((index % 12).toNat + 1) 1 = some first ∧
      first.monthIndex = index ∧ first.day = 1 := by
  have hone : 1 ≤ 1 ∧ 1 ≤ monthLength (index / 12) ((index % 12).toNat + 1) := by
    have := lengthOfMonth_bounds index
    unfold lengthOfMonth at this
    omega
  refine ⟨⟨index / 12, (index % 12).toNat + 1, 1, by omega, hone⟩, ?_, ?_, rfl⟩
  · unfold ofParts?
    rw [dif_pos ⟨by omega, hone⟩, if_pos h]
  · unfold monthIndex
    dsimp only
    omega

/-! ## Dates in order -/

theorem dayNumber_lt_of_monthIndex_lt {d e : Date} (h : d.monthIndex < e.monthIndex) :
    d.dayNumber < e.dayNumber := by
  have hover := beforeMonth_add_length_le h
  have hd := day_le_lengthOfMonth d
  have he := e.day_mem.1
  rw [dayNumber_eq, dayNumber_eq]
  omega

/-- A day of a month is known from its count. -/
theorem monthIndex_day_of_dayNumber {d : Date} {index : Int} {day : Nat}
    (hday : 1 ≤ day ∧ day ≤ lengthOfMonth index) (h : d.dayNumber = beforeMonth index + day) :
    d.monthIndex = index ∧ d.day = day := by
  have hd := day_le_lengthOfMonth d
  have hone := d.day_mem.1
  rw [dayNumber_eq] at h
  have hsame : d.monthIndex = index := by
    rcases Int.lt_trichotomy d.monthIndex index with hlt | heq | hgt
    · have := beforeMonth_add_length_le hlt
      omega
    · exact heq
    · have := beforeMonth_add_length_le hgt
      omega
  rw [hsame] at h
  exact ⟨hsame, by omega⟩

theorem ext_monthIndex {d e : Date} (hindex : d.monthIndex = e.monthIndex) (hday : d.day = e.day) :
    d = e := by
  obtain ⟨year, month, day, hmonth, hvalid⟩ := d
  obtain ⟨year', month', day', hmonth', hvalid'⟩ := e
  unfold monthIndex at hindex
  dsimp only at hindex hday
  obtain rfl : year = year' := by omega
  obtain rfl : month = month' := by omega
  subst hday
  rfl

theorem dayNumber_injective {d e : Date} (h : d.dayNumber = e.dayNumber) : d = e := by
  rw [dayNumber_eq e] at h
  obtain ⟨hindex, hday⟩ :=
    monthIndex_day_of_dayNumber ⟨e.day_mem.1, day_le_lengthOfMonth e⟩ h
  exact ext_monthIndex hindex hday

theorem ofDayNumber_dayNumber (d : Date) : ofDayNumber d.dayNumber = d :=
  dayNumber_injective (dayNumber_ofDayNumber d.dayNumber)

def Before (d e : Date) : Prop :=
  d.year < e.year ∨ d.year = e.year ∧ (d.month < e.month ∨ d.month = e.month ∧ d.day < e.day)

theorem before_iff_monthIndex (d e : Date) :
    d.Before e ↔ d.monthIndex < e.monthIndex ∨ d.monthIndex = e.monthIndex ∧ d.day < e.day := by
  have hd := d.month_mem
  have he := e.month_mem
  unfold Before monthIndex
  omega

theorem before_iff_dayNumber_lt (d e : Date) : d.Before e ↔ d.dayNumber < e.dayNumber := by
  rw [before_iff_monthIndex]
  constructor
  · rintro (hindex | ⟨hindex, hday⟩)
    · exact dayNumber_lt_of_monthIndex_lt hindex
    · rw [dayNumber_eq, dayNumber_eq, hindex]
      omega
  · intro h
    rcases Int.lt_trichotomy d.monthIndex e.monthIndex with hlt | heq | hgt
    · exact Or.inl hlt
    · rw [dayNumber_eq, dayNumber_eq, heq] at h
      exact Or.inr ⟨heq, by omega⟩
    · have := dayNumber_lt_of_monthIndex_lt hgt
      omega

end Tradebook.Date
