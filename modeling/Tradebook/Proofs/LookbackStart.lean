import Mathlib.Data.List.Basic
import Tradebook.Proofs.ZoneReadings
import Tradebook.StartTime

/-!
# Three months back

Without a date a run starts three calendar months before now, at the same time of day. The
way there goes by the number of the month; what comes out is said here in days
(`start_three_months_before`): the start lies before now by the days of the three months
that are over, neither more nor less, to the nanosecond. A day of the month that the
earlier month does not have is counted into the month after it (`carried_day`), and as
no month is shorter than that by more than three days, it never runs over that one too.
-/

namespace Tradebook

namespace Date

theorem lengthOfMonth_cases (index : Int) :
    (index % 12 = 1 ∧ 28 ≤ lengthOfMonth index ∧ lengthOfMonth index ≤ 29) ∨
      ((index % 12 = 3 ∨ index % 12 = 5 ∨ index % 12 = 8 ∨ index % 12 = 10) ∧
        lengthOfMonth index = 30) ∨
      ((index % 12 = 0 ∨ index % 12 = 2 ∨ index % 12 = 4 ∨ index % 12 = 6 ∨ index % 12 = 7 ∨
        index % 12 = 9 ∨ index % 12 = 11) ∧ lengthOfMonth index = 31) := by
  unfold lengthOfMonth monthLength
  split
  · left
    split <;> omega
  · split <;> omega

theorem daysOfMonthsBefore_three (index : Int) :
    daysOfMonthsBefore index 3 =
        lengthOfMonth (index - 1) + lengthOfMonth (index - 2) + lengthOfMonth (index - 3) ∧
      89 ≤ daysOfMonthsBefore index 3 ∧ daysOfMonthsBefore index 3 ≤ 92 := by
  have hsum : daysOfMonthsBefore index 3 =
      lengthOfMonth (index - 1) + lengthOfMonth (index - 2) + lengthOfMonth (index - 3) := by
    unfold daysOfMonthsBefore
    rw [Finset.sum_range_succ, Finset.sum_range_succ, Finset.sum_range_one]
    congr 2
    · congr 1
      omega
    · congr 1
      omega
    · omega
  have hfirst := lengthOfMonth_cases (index - 3)
  have hsecond := lengthOfMonth_cases (index - 2)
  have hlast := lengthOfMonth_cases (index - 1)
  refine ⟨hsum, ?_⟩
  rw [hsum]
  omega

/-- A day counted on from the first of a month stays in it if the month has it, and is a
day of the next month otherwise. -/
theorem carried_day {d e : Date} {index : Int} (h : e.dayNumber = beforeMonth index + d.day) :
    if d.day ≤ lengthOfMonth index then e.monthIndex = index ∧ e.day = d.day
    else e.monthIndex = index + 1 ∧ e.day = d.day - lengthOfMonth index := by
  have hday := d.day_mem.1
  split
  · next hfits => exact monthIndex_day_of_dayNumber ⟨hday, hfits⟩ h
  · next hover =>
      have hlong := day_le_lengthOfMonth d
      have hmost := (lengthOfMonth_bounds d.monthIndex).2
      have hleast := (lengthOfMonth_bounds index).1
      have hnext := (lengthOfMonth_bounds (index + 1)).1
      refine monthIndex_day_of_dayNumber ⟨by omega, by omega⟩ ?_
      rw [beforeMonth_succ]
      omega

end Date

namespace StartTime

open Date

theorem dayMonthsBefore?_eq {d : Date} {months : Nat}
    (h : firstYear ≤ (d.monthIndex - months) / 12 ∧ (d.monthIndex - months) / 12 ≤ lastYear) :
    ∃ e, dayMonthsBefore? d months = some e ∧
      e.dayNumber = beforeMonth (d.monthIndex - months) + d.day := by
  obtain ⟨first, hfirst, hindex, hday⟩ := ofParts?_first h
  have hcount : first.dayNumber = beforeMonth (d.monthIndex - months) + 1 := by
    rw [dayNumber_eq, hindex, hday]
    rfl
  have hone := d.day_mem.1
  refine ⟨ofDayNumber (first.dayNumber + (d.day - 1 : Nat)), ?_, ?_⟩
  · unfold dayMonthsBefore?
    dsimp only
    rw [hfirst]
  · rw [dayNumber_ofDayNumber, hcount]
    omega

/-- The same time of day some days earlier is an instant, where the clocks are not changed. -/
theorem toTimestamp?_days_before {now : Timestamp} {offset : Int} {clock : WallClock} {date : Date}
    {days : Nat} (hseconds : clock.seconds = now.seconds + offset)
    (hnanos : clock.nanos = now.nanos)
    (hdate : date.dayNumber + days = clock.date.dayNumber)
    (hfirst : -8334601228800 ≤ now.seconds - 86400 * days) :
    ∃ start, WallClock.toTimestamp? { clock with date } offset = some start ∧
      start.seconds = now.seconds - 86400 * days ∧ start.nanos = now.nanos := by
  have hvalid : (-8334601228800 ≤ now.seconds - 86400 * days ∧
      now.seconds - 86400 * days ≤ 8210266876799) ∧ now.nanos < 2000000000 := by
    have hlast := now.le_last
    exact ⟨⟨hfirst, by omega⟩, now.nanos_lt⟩
  have hback : WallClock.seconds { clock with date } - offset = now.seconds - 86400 * days := by
    unfold WallClock.seconds at hseconds ⊢
    dsimp only
    omega
  refine ⟨⟨_, _, hvalid.1.1, hvalid.1.2, hvalid.2⟩, ?_, rfl, rfl⟩
  unfold WallClock.toTimestamp? Timestamp.ofParts?
  rw [hback, hnanos]
  exact dif_pos hvalid

/-- Any number of months back is as many days back as these months have, as long as the years are
handled, where the clocks are not changed. -/
theorem monthsBefore?_fixed {offset : Int} {now : Timestamp} {clock : WallClock} (months : Nat)
    (hclock : (Zone.fixed offset).wallClock? now = some clock)
    (hyears : firstYear ≤ (clock.date.monthIndex - months) / 12 ∧
      (clock.date.monthIndex - months) / 12 ≤ lastYear)
    (hfirst : -8334601228800 ≤
      now.seconds - 86400 * (daysOfMonthsBefore clock.date.monthIndex months : Nat))
    (hshown : -8334601228800 ≤
      clock.seconds - 86400 * (daysOfMonthsBefore clock.date.monthIndex months : Nat))
    (hlast : clock.seconds ≤ 8210266876799) :
    ∃ start date,
      monthsBefore? (.fixed offset) clock months = some start ∧
      date.dayNumber = beforeMonth (clock.date.monthIndex - months) + clock.date.day ∧
      start.seconds =
        now.seconds - 86400 * (daysOfMonthsBefore clock.date.monthIndex months : Nat) ∧
      start.nanos = now.nanos ∧
      (Zone.fixed offset).wallClock? start = some { clock with date } := by
  obtain ⟨hseconds, hsecond, hnanos⟩ := Zone.wallClock?_eq_some hclock
  rw [Zone.offsetAt_fixed] at hseconds
  obtain ⟨date, hdate, hcount⟩ := dayMonthsBefore?_eq hyears
  have hdays : date.dayNumber + (daysOfMonthsBefore clock.date.monthIndex months : Nat) =
      clock.date.dayNumber := by
    have := beforeMonth_sub clock.date.monthIndex months
    rw [hcount, dayNumber_eq clock.date]
    omega
  obtain ⟨start, hstart, hsecs, hnano⟩ := toTimestamp?_days_before hseconds hnanos hdays hfirst
  have hfound : (Zone.fixed offset).earliest? { clock with date } = some start := by
    rw [Zone.earliest?_fixed, hstart]
  have hhandled : WallClock.Handled { clock with date } := by
    unfold WallClock.seconds at hshown hlast
    unfold WallClock.Handled WallClock.seconds
    dsimp only
    omega
  refine ⟨start, date, ?_, hcount, hsecs, hnano, ?_⟩
  · unfold monthsBefore?
    rw [hdate]
    dsimp only
    rw [hfound, Option.some_or]
  · have hordered : (Zone.fixed offset).Ordered := .nil
    exact Zone.wallClock?_of_mem_instants hordered (w := { clock with date }) hsecond hhandled
      (List.mem_of_head? hfound)

/-- Where the clocks are never changed, a run without a date starts just as many days before now as
the last three months have, at the same time of day: on the same day of the month, or, where the
earlier month is too short for it, on the day of the next month that the missing days lead to. -/
theorem start_three_months_before {offset : Int} (hoffset : -86400 < offset ∧ offset < 86400)
    {now : Timestamp} {clock : WallClock} (hclock : (Zone.fixed offset).wallClock? now = some clock)
    (hyear : 1 ≤ clock.date.year ∧ clock.date.year ≤ 9999) :
    let month := clock.date.monthIndex
    let days := lengthOfMonth (month - 1) + lengthOfMonth (month - 2) + lengthOfMonth (month - 3)
    ∃ start date,
      resolve none now (.fixed offset) = .ok start ∧
      start.seconds = now.seconds - 86400 * days ∧ start.nanos = now.nanos ∧
      (Zone.fixed offset).wallClock? start = some { clock with date } ∧
      89 ≤ days ∧ days ≤ 92 ∧
      if clock.date.day ≤ lengthOfMonth (month - 3) then
        date.monthIndex = month - 3 ∧ date.day = clock.date.day
      else date.monthIndex = month - 2 ∧ date.day = clock.date.day - lengthOfMonth (month - 3) := by
  intro month days
  obtain ⟨hsum, hdays⟩ := daysOfMonthsBefore_three clock.date.monthIndex
  obtain ⟨hseconds, hsecond, -⟩ := Zone.wallClock?_eq_some hclock
  rw [Zone.offsetAt_fixed] at hseconds
  have hcount := dayNumber_of_years hyear
  rw [show beforeMonth (12 * 1) = -719163 by decide,
    show beforeMonth (12 * (9999 + 1)) = 2932896 by decide] at hcount
  have hclockSeconds : clock.seconds = 86400 * clock.date.dayNumber + clock.second := rfl
  have hmonth : 12 ≤ clock.date.monthIndex ∧ clock.date.monthIndex < 12 * 10000 := by
    have := clock.date.month_mem
    unfold monthIndex
    omega
  obtain ⟨start, date, hstart, hdate, hsecs, hnanos, hshown⟩ :=
    monthsBefore?_fixed 3 hclock (by unfold firstYear lastYear; omega) (by omega)
      (by omega) (by omega)
  have hcarried := carried_day hdate
  rw [Nat.cast_ofNat, show month - 3 + 1 = month - 2 by omega] at hcarried
  refine ⟨start, date, ?_, ?_, hnanos, hshown, le_of_le_of_eq hdays.1 hsum,
    le_of_eq_of_le hsum.symm hdays.2, hcarried⟩
  · unfold resolve lookbackMonths
    rw [hclock]
    dsimp only [Option.map_none, Option.filter_none]
    rw [hstart]
    rfl
  · rw [hsecs, hsum]

/-- Midnight of the last day of May 2024 in Taipei: February has 29 days, so the start is
midnight of the second day of March. -/
theorem start_three_months_before_may :
    let now : Timestamp := ⟨1717084800, 0, by decide, by decide, by decide⟩
    let may : WallClock := ⟨⟨2024, 5, 31, by decide, by decide⟩, 0, 0⟩
    let march : WallClock := ⟨⟨2024, 3, 2, by decide, by decide⟩, 0, 0⟩
    (Zone.fixed 28800).wallClock? now = some may ∧
      ∃ start, resolve none now (.fixed 28800) = .ok start ∧
        start.seconds = now.seconds - 86400 * 90 ∧
        (Zone.fixed 28800).wallClock? start = some march := by
  intro now may march
  have hclock : (Zone.fixed 28800).wallClock? now = some may := by decide
  obtain ⟨start, date, hstart, hseconds, -, hshown, -, -, hdate⟩ :=
    start_three_months_before (by decide) hclock (by decide)
  rw [if_neg (by decide)] at hdate
  have hmarch : date = march.date :=
    ext_monthIndex (hdate.1.trans (by decide)) (hdate.2.trans (by decide))
  rw [hmarch] at hshown
  exact ⟨hclock, start, hstart, hseconds.trans (by decide), hshown⟩

end StartTime

end Tradebook
