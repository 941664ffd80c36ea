import Mathlib.Data.List.Basic
import Tradebook.Proofs.BlankText
import Tradebook.Proofs.DateForms
import Tradebook.Proofs.TimestampOrder
import Tradebook.Proofs.ZoneReadings
import Tradebook.Time.Zone.Taipei

/-!
# Midnight in Taipei

A run that is given a date starts when the clocks in Taipei show its midnight. The clocks went
forward and back at midnight itself, so some dates have no start; but where there is one it is
the right one, and since the clocks there were never less than eight and never more than nine hours
ahead, they cannot swap the starts of two dates, which are a day apart (`start_is_midnight`).
From 1980 on there is no change left (`single?_taipei_late`), and every date has its start.

Every date has a text that it is read from again (`ofText?_text`), so none of this is about
dates that cannot be asked for.
-/

namespace Tradebook

open Tradebook.Text

namespace Date

theorem toList_text (d : Date) :
    d.text.toList = (yearText d.year).toList ++
      '-' :: ((twoDigits d.month).toList ++ '-' :: (twoDigits d.day).toList) := by
  simp [text]

theorem ofText?_text {d : Date} (hfirst : firstYear ≤ d.year) (hlast : d.year ≤ lastYear) :
    ofText? d.text = some d := by
  have hmonth := d.month_mem
  have hhyphen (rest : List Char) : TimeReader.skip? '-' ('-' :: rest) = some rest := rfl
  have hpair (n : Nat) (hn : n < 100) (rest : List Char) :
      TimeReader.number? 2 (trimLeft ((twoDigits n).toList ++ rest)) = some (n, rest) :=
    TimeReader.pair?_twoDigits hn rest
  have hdate : TimeReader.datePrefix? d.text.toList = some (d, []) := by
    rw [toList_text]
    unfold TimeReader.datePrefix?
    rw [TimeReader.year?_yearText, Option.bind_eq_bind, Option.bind_some]
    dsimp only
    rw [hhyphen, Option.bind_eq_bind, Option.bind_some, hpair _ (by omega), Option.bind_eq_bind,
      Option.bind_some]
    dsimp only
    have hday := hpair d.day d.day_lt []
    rw [List.append_nil] at hday
    rw [hhyphen, Option.bind_some, hday, Option.bind_some]
    dsimp only
    rw [ofParts?_self hfirst hlast]
    rfl
  unfold ofText?
  rw [hdate]

theorem head?_yearText (year : Int) :
    ∃ c, (yearText year).toList.head? = some c ∧ isBlank c = false := by
  unfold yearText
  split
  · obtain ⟨d, ds, hds⟩ := List.exists_cons_of_ne_nil
      (TimeReader.padZeros_ne_nil (show 0 < 4 by decide) (decimalDigits year.toNat))
    have hdigit : d.isDigit = true :=
      isDigit_of_mem_padZeros (isDigit_of_mem_decimalDigits year.toNat) d (by rw [hds]; simp)
    exact ⟨d, by rw [String.toList_ofList, hds]; rfl, TimeReader.isBlank_of_isDigit hdigit⟩
  · refine ⟨_, by rw [String.toList_ofList]; rfl, ?_⟩
    split <;> decide

theorem getLast?_twoDigits (n : Nat) :
    ∃ c, (twoDigits n).toList.getLast? = some c ∧ isBlank c = false := by
  have hsome := TimeReader.padZeros_ne_nil (show 0 < 2 by decide) (decimalDigits n)
  have hdigit := isDigit_of_mem_padZeros (isDigit_of_mem_decimalDigits n) _
    (List.getLast_mem hsome)
  refine ⟨_, ?_, TimeReader.isBlank_of_isDigit hdigit⟩
  rw [twoDigits, String.toList_ofList, List.getLast?_eq_some_getLast hsome]

theorem trim_text (d : Date) : trim d.text = d.text := by
  obtain ⟨first, hyear, hfirst⟩ := head?_yearText d.year
  obtain ⟨last, hday, hlast⟩ := getLast?_twoDigits d.day
  have hend : d.text.toList =
      ((yearText d.year).toList ++ '-' :: ((twoDigits d.month).toList ++ ['-'])) ++
        (twoDigits d.day).toList := by
    rw [toList_text]
    simp
  refine trim_eq_self ?_ ?_
  · rw [toList_text, List.head?_append, hyear]
    rintro _ ⟨⟩
    exact hfirst
  · rw [hend, List.getLast?_append, hday]
    rintro _ ⟨⟩
    exact hlast

theorem year_of_ofText? {s : String} {d : Date} (h : ofText? s = some d) :
    firstYear ≤ d.year ∧ d.year ≤ lastYear := by
  have hform := ofText?_eq_some_iff.1 h
  generalize s.toList = cs at hform
  obtain ⟨-, -, -, -, -, -, hhandled⟩ := hform
  exact hhandled

theorem handled_midnight {d : Date} (h : firstYear ≤ d.year ∧ d.year ≤ lastYear) :
    WallClock.Handled ⟨d, 0, 0⟩ := by
  have hcount := dayNumber_of_years h
  rw [show beforeMonth (12 * firstYear) = -96465293 by decide,
    show beforeMonth (12 * (lastYear + 1)) = 95026236 by decide] at hcount
  unfold WallClock.Handled WallClock.seconds
  dsimp only
  omega

end Date

namespace Zone

theorem ordered_taipei : taipei.Ordered := by
  decide

/-- The clocks were always eight to nine hours ahead. -/
theorem offset_taipei {reading offset : Int}
    (h : offset ∈ offsetsFor reading none taipei.initial taipei.changes) :
    28800 ≤ offset ∧ offset ≤ 32400 := by
  have hall : ∀ offset ∈ taipei.initial :: taipei.changes.map Prod.snd,
      28800 ≤ offset ∧ offset ≤ 32400 := by decide
  exact hall offset (mem_of_mem_offsetsFor h)

/-- From 1980 on a reading shows once, eight hours ahead. -/
theorem offsetsFor_taipei_late {reading : Int} (h : 315532800 ≤ reading) :
    offsetsFor reading none taipei.initial taipei.changes = [28800] := by
  have hchanges : ∀ change ∈ taipei.changes, change.1 ≤ 307551600 ∧ change.2 ≤ 32400 := by decide
  refine offsetsFor_late 32400 nofun (by decide) fun change hchange => ?_
  have hlast := hchanges change hchange
  exact ⟨by omega, hlast.2⟩

end Zone

namespace StartTime

open Date

/-- The instant is where a run starts that is given the date, whatever the time is. -/
def StartsAt (d : Date) (t : Timestamp) : Prop :=
  ∃ s now zone, ofText? (trim s) = some d ∧ resolve (some s) now zone = .ok t

/-- A start lies eight to nine hours before the date begins at Greenwich, and the clocks in Taipei
show its midnight there. -/
theorem StartsAt.midnight {d : Date} {t : Timestamp} (h : StartsAt d t) :
    Zone.taipei.wallClock? t = some ⟨d, 0, 0⟩ ∧
      86400 * d.dayNumber - 32400 ≤ t.seconds ∧ t.seconds ≤ 86400 * d.dayNumber - 28800 ∧
      t.nanos = 0 := by
  obtain ⟨s, now, zone, hread, hstart⟩ := h
  rw [resolve_of_ofText? hread] at hstart
  have hmem : t ∈ Zone.taipei.instants ⟨d, 0, 0⟩ := by
    cases hsingle : Zone.taipei.single? ⟨d, 0, 0⟩ with
    | none =>
        rw [hsingle] at hstart
        cases hstart
    | some found =>
        rw [hsingle] at hstart
        cases hstart
        exact Zone.mem_instants_of_single? hsingle
  obtain ⟨offset, hfound, ht⟩ := Zone.mem_instants hmem
  obtain ⟨hseconds, hnanos⟩ := WallClock.toTimestamp?_eq_some ht
  have hbounds := Zone.offset_taipei hfound
  have hreading : WallClock.seconds ⟨d, 0, 0⟩ = 86400 * d.dayNumber := Int.add_zero _
  rw [hreading] at hseconds
  exact ⟨Zone.wallClock?_of_mem_instants Zone.ordered_taipei (show 0 < 86400 by decide)
    (handled_midnight (year_of_ofText? hread)) hmem, by omega, by omega, hnanos⟩

theorem StartsAt.lt {d e : Date} {t u : Timestamp} (hd : StartsAt d t) (he : StartsAt e u)
    (h : d.Before e) : t < u := by
  obtain ⟨-, -, hmost, hnanos⟩ := hd.midnight
  obtain ⟨-, hleast, -, hnanos'⟩ := he.midnight
  -- a day is longer than the hour by which the distances differ
  have hdays := (before_iff_dayNumber_lt d e).1 h
  rw [Timestamp.lt_iff_rank]
  unfold Timestamp.rank
  omega

/-- From 1980 on every date has its midnight, eight hours before the date begins at Greenwich. -/
theorem single?_taipei_late {d : Date} (hyear : 1980 ≤ d.year ∧ d.year ≤ lastYear) :
    ∃ t, Zone.taipei.single? ⟨d, 0, 0⟩ = some t ∧ t.seconds = 86400 * d.dayNumber - 8 * 3600 ∧
      t.nanos = 0 := by
  have hcount := dayNumber_of_years hyear
  rw [show beforeMonth (12 * 1980) = 3651 by decide,
    show beforeMonth (12 * (lastYear + 1)) = 95026236 by decide] at hcount
  have hreading : WallClock.seconds ⟨d, 0, 0⟩ = 86400 * d.dayNumber := Int.add_zero _
  have hvalid : (-8334601228800 ≤ 86400 * d.dayNumber - 28800 ∧
      86400 * d.dayNumber - 28800 ≤ 8210266876799) ∧ 0 < 2000000000 := by omega
  refine ⟨⟨_, _, hvalid.1.1, hvalid.1.2, hvalid.2⟩, ?_, rfl, rfl⟩
  have htime : WallClock.toTimestamp? ⟨d, 0, 0⟩ 28800 =
      some ⟨_, _, hvalid.1.1, hvalid.1.2, hvalid.2⟩ := by
    unfold WallClock.toTimestamp? Timestamp.ofParts?
    rw [hreading]
    exact dif_pos hvalid
  have hreached : 315532800 ≤ WallClock.seconds ⟨d, 0, 0⟩ := by omega
  unfold Zone.single? Zone.instants
  rw [Zone.offsetsFor_taipei_late hreached, List.map_singleton, htime]
  rfl

/-- Where a date has a start, it is the instant at which the clocks in Taipei show the midnight of
the date, and later dates start later. Every text that stands for a date from 1980 on leads to its
start, eight hours before the date begins at Greenwich, and there is such a text for every date. -/
theorem start_is_midnight :
    (∀ d t, StartsAt d t → Zone.taipei.wallClock? t = some ⟨d, 0, 0⟩) ∧
    (∀ d e t u, StartsAt d t → StartsAt e u → d.Before e → t < u) ∧
    (∀ s d now zone, ofText? (trim s) = some d → 1980 ≤ d.year →
      ∃ t, resolve (some s) now zone = .ok t ∧ t.seconds = 86400 * d.dayNumber - 8 * 3600 ∧
        t.nanos = 0) ∧
    ∀ d : Date, firstYear ≤ d.year → d.year ≤ lastYear → ofText? (trim d.text) = some d := by
  refine ⟨fun d t h => h.midnight.1, fun d e t u hd he h => hd.lt he h,
    fun s d now zone hread hyear => ?_, fun d hfirst hlast => ?_⟩
  · obtain ⟨t, hsingle, hseconds, hnanos⟩ :=
      single?_taipei_late ⟨hyear, (year_of_ofText? hread).2⟩
    exact ⟨t, by rw [resolve_of_ofText? hread, hsingle]; rfl, hseconds, hnanos⟩
  · rw [trim_text, ofText?_text hfirst hlast]

/-- In September 1945 the clocks went back from one o'clock to midnight. The day before and the day
after have their starts, 49 hours apart, and the day itself has none. In 2022 all is simple. -/
theorem start_is_midnight_around_change :
    let before : Date := ⟨1945, 9, 20, by decide, by decide⟩
    let after : Date := ⟨1945, 9, 22, by decide, by decide⟩
    let start : Timestamp := ⟨-766314000, 0, by decide, by decide, by decide⟩
    let later : Timestamp := ⟨-766137600, 0, by decide, by decide, by decide⟩
    StartsAt before start ∧ StartsAt after later ∧ start < later ∧
      Zone.taipei.wallClock? start = some ⟨before, 0, 0⟩ ∧
      Zone.taipei.wallClock? later = some ⟨after, 0, 0⟩ ∧
      resolve (some "1945-09-21") .epoch .utc =
        .error (.noMidnight ⟨1945, 9, 21, by decide, by decide⟩) ∧
      ∃ t, resolve (some "2022-01-01") .epoch .utc = .ok t ∧ t.seconds = 1640966400 := by
  intro before after start later
  have hstart : StartsAt before start := ⟨"1945-09-20", .epoch, .utc, by decide, by decide⟩
  have hlater : StartsAt after later := ⟨"1945-09-22", .epoch, .utc, by decide, by decide⟩
  obtain ⟨hmidnight, horder, hlate, -⟩ := start_is_midnight
  have hnewYear : ofText? (trim "2022-01-01") = some ⟨2022, 1, 1, by decide, by decide⟩ := by decide
  obtain ⟨t, ht, hseconds, -⟩ := hlate _ _ .epoch .utc hnewYear (by decide)
  refine ⟨hstart, hlater, ?_, hmidnight _ _ hstart, hmidnight _ _ hlater, by decide, t, ht, ?_⟩
  · exact horder before after start later hstart hlater (by unfold Date.Before; decide)
  · rw [hseconds]
    decide

end StartTime

end Tradebook
