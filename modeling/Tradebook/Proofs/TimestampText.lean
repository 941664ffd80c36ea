import Mathlib.Data.List.Basic
import Mathlib.Tactic.SplitIfs
import Tradebook.Proofs.CalendarDays
import Tradebook.Proofs.DigitText
import Tradebook.Time.Reader
import Tradebook.Time.Text

/-!
# An instant is read back

The reader of instants takes blanks, missing digits and other zones; the writer uses none
of that. Each part that is written is digits with something behind them that is no digit,
or just as many digits as are looked at, so a part is read as the number that it was
(`number?_digits`), and the parts come out one after the other.

What is left is that the parts make the instant again. The seconds of a day fall into
hours, minutes and seconds and back, the days into a date and back
(`Date.dayNumber_ofDayNumber`), and a sixtieth second is the leap second that it was
written for. Only a leap second that is not at the end of a minute is written like the
second behind it, and this is what it is read as (`asRead`).
-/

namespace Tradebook

open Tradebook.Text

namespace TimeReader

theorem isBlank_of_isDigit {c : Char} (h : c.isDigit = true) : isBlank c = false := by
  have hrange : 48 ≤ c.toNat ∧ c.toNat ≤ 57 := by
    simpa [Char.isDigit, UInt32.le_iff_toNat_le] using h
  unfold isBlank
  simp
  omega

theorem trimLeft_cons {c : Char} (h : isBlank c = false) (rest : List Char) :
    trimLeft (c :: rest) = c :: rest := by
  unfold trimLeft
  rw [List.dropWhile_cons_of_neg (by simp [h])]

theorem trimLeft_digits {digits : List Char} (hdigits : ∀ c ∈ digits, c.isDigit = true)
    (hsome : digits ≠ []) (rest : List Char) : trimLeft (digits ++ rest) = digits ++ rest := by
  obtain ⟨d, ds, rfl⟩ := List.exists_cons_of_ne_nil hsome
  exact trimLeft_cons (isBlank_of_isDigit (hdigits d (by simp))) _

/-- The digits that are looked at are all that there are where no more of them are looked at,
or no more follow. -/
theorem takeWhile_take_digits {digits : List Char} (hdigits : ∀ c ∈ digits, c.isDigit = true)
    {most : Nat} (hmost : digits.length ≤ most) {rest : List Char}
    (hend : digits.length = most ∨ ∀ c ∈ rest.head?, c.isDigit = false) :
    ((digits ++ rest).take most).takeWhile Char.isDigit = digits := by
  have hstop : (rest.take (most - digits.length)).takeWhile Char.isDigit = [] := by
    rcases hend with hend | hend
    · rw [hend, Nat.sub_self]
      rfl
    · cases rest with
      | nil => simp
      | cons c rest =>
          have hc : ¬ c.isDigit = true := by simp [hend c rfl]
          cases most - digits.length with
          | zero => rfl
          | succ k => rw [List.take_succ_cons, List.takeWhile_cons_of_neg hc]
  rw [List.take_append, List.take_of_length_le hmost, List.takeWhile_append_of_pos hdigits,
    hstop, List.append_nil]

theorem number?_digits {digits : List Char} (hdigits : ∀ c ∈ digits, c.isDigit = true)
    (hsome : digits ≠ []) {most : Nat} (hmost : digits.length ≤ most) {rest : List Char}
    (hend : digits.length = most ∨ ∀ c ∈ rest.head?, c.isDigit = false) :
    number? most (digits ++ rest) = some (ofDigits digits, rest) := by
  obtain ⟨d, ds, hds⟩ := List.exists_cons_of_ne_nil hsome
  unfold number?
  rw [takeWhile_take_digits hdigits hmost hend, hds]
  simp

/-! ## The parts -/

theorem separator?_cons {c : Char} (h : isBlank c = false) (rest : List Char) :
    separator? c (c :: rest) = some rest := by
  simp [separator?, trimLeft_cons h, skip?]

theorem pair?_twoDigits {n : Nat} (h : n < 100) (rest : List Char) :
    pair? ((Date.twoDigits n).toList ++ rest) = some (n, rest) := by
  have hlength : (padZeros 2 (decimalDigits n)).length = 2 :=
    length_padZeros (length_decimalDigits_le 1 h)
  have hdigits : ∀ c ∈ padZeros 2 (decimalDigits n), c.isDigit = true :=
    isDigit_of_mem_padZeros (isDigit_of_mem_decimalDigits n)
  have hsome : padZeros 2 (decimalDigits n) ≠ [] := by
    intro hnil
    rw [hnil] at hlength
    cases hlength
  unfold pair? Date.twoDigits
  rw [String.toList_ofList, trimLeft_digits hdigits hsome,
    number?_digits hdigits hsome (le_of_eq hlength) (Or.inl hlength), ofDigits_padZeros,
    ofDigits_decimalDigits]

theorem padZeros_ne_nil {width : Nat} (hwidth : 0 < width) (cs : List Char) :
    padZeros width cs ≠ [] := by
  intro hnil
  have hlength := le_length_padZeros width cs
  rw [hnil, List.length_nil] at hlength
  omega

theorem head?_cons_isDigit {c : Char} (h : c.isDigit = false) (rest : List Char) :
    ∀ d ∈ (c :: rest).head?, d.isDigit = false := by
  intro d hd
  obtain rfl : c = d := by simpa using hd
  exact h

/-- The digits of a year, with at least four of them. -/
theorem number?_year (n : Nat) {most : Nat}
    (hmost : (padZeros 4 (decimalDigits n)).length ≤ most) (rest : List Char) :
    number? most (padZeros 4 (decimalDigits n) ++ '-' :: rest) = some (n, '-' :: rest) := by
  have hdigits : ∀ c ∈ padZeros 4 (decimalDigits n), c.isDigit = true :=
    isDigit_of_mem_padZeros (isDigit_of_mem_decimalDigits n)
  rw [number?_digits hdigits (padZeros_ne_nil (by decide) _) hmost
    (Or.inr (head?_cons_isDigit (by decide) rest)), ofDigits_padZeros, ofDigits_decimalDigits]

theorem year?_yearText (year : Int) (rest : List Char) :
    year? ((Date.yearText year).toList ++ '-' :: rest) = some (year, '-' :: rest) := by
  have hsigned : ∀ n, number? (padZeros 4 (decimalDigits n) ++ '-' :: rest).length
      (padZeros 4 (decimalDigits n) ++ '-' :: rest) = some (n, '-' :: rest) := by
    intro n
    refine number?_year n ?_ rest
    rw [List.length_append]
    omega
  unfold Date.yearText year?
  split_ifs with hplain hneg
  · have hfour : (padZeros 4 (decimalDigits year.toNat)).length ≤ 4 :=
      le_of_eq (length_padZeros (length_decimalDigits_le 3 (by omega)))
    have hread := number?_year year.toNat hfour rest
    obtain ⟨d, ds, hds⟩ := List.exists_cons_of_ne_nil
      (padZeros_ne_nil (show 0 < 4 by decide) (decimalDigits year.toNat))
    have hmem : d ∈ padZeros 4 (decimalDigits year.toNat) := by simp [hds]
    have hd : d.isDigit = true :=
      isDigit_of_mem_padZeros (isDigit_of_mem_decimalDigits year.toNat) d hmem
    have hminus : d ≠ '-' := isDigit_ne hd (by decide)
    have hplus : d ≠ '+' := isDigit_ne hd (by decide)
    rw [hds, List.cons_append] at hread
    rw [String.toList_ofList, hds, List.cons_append, trimLeft_cons (isBlank_of_isDigit hd)]
    split
    · next heq => exact absurd (List.cons.inj heq).1 hminus
    · next heq => exact absurd (List.cons.inj heq).1 hplus
    · have hvalue : (year.toNat : Int) = year := by omega
      simp only [hread, Option.map_some, hvalue]
  · rw [String.toList_ofList, List.cons_append, trimLeft_cons (by decide)]
    have hvalue : -(year.natAbs : Int) = year := by omega
    simp only [hsigned, Option.map_some, hvalue]
  · rw [String.toList_ofList, List.cons_append, trimLeft_cons (by decide)]
    have hvalue : (year.natAbs : Int) = year := by omega
    simp only [hsigned, Option.map_some, hvalue]

/-- A fraction with as many digits as it needs. -/
theorem nanos?_decimals {width n : Nat} (hwidth : 0 < width) (hnine : width ≤ 9)
    (h : (decimalDigits n).length ≤ width) (rest : List Char) :
    nanos? ('.' :: (padZeros width (decimalDigits n) ++ 'Z' :: rest)) =
      some (n * 10 ^ (9 - width), 'Z' :: rest) := by
  have hdigits : ∀ c ∈ padZeros width (decimalDigits n), c.isDigit = true :=
    isDigit_of_mem_padZeros (isDigit_of_mem_decimalDigits n)
  have hlength : (padZeros width (decimalDigits n)).length = width := length_padZeros h
  have hvalue : ofDigits (padZeros width (decimalDigits n)) = n := by
    rw [ofDigits_padZeros, ofDigits_decimalDigits]
  have hend := head?_cons_isDigit (by decide : 'Z'.isDigit = false) rest
  have htaken := takeWhile_take_digits hdigits (le_of_eq_of_le hlength hnine) (Or.inr hend)
  have hrest := congrArg Prod.snd (spanDigits_append hdigits hend)
  obtain ⟨d, ds, hds⟩ := List.exists_cons_of_ne_nil (padZeros_ne_nil hwidth (decimalDigits n))
  rw [hds] at hlength hvalue htaken hrest ⊢
  simp only [nanos?, htaken, hvalue, hlength]
  exact congrArg some (Prod.ext rfl hrest)

theorem nanos?_fractionText {nanos : Nat} (h : nanos < 1000000000) (rest : List Char) :
    nanos? ((WallClock.fractionText nanos).toList ++ 'Z' :: rest) = some (nanos, 'Z' :: rest) := by
  unfold WallClock.fractionText
  split_ifs with hnone hmilli hmicro
  · subst hnone
    rfl
  · rw [String.toList_ofList, List.cons_append, nanos?_decimals (by decide) (by decide)
      (length_decimalDigits_le 2 (by omega))]
    rw [show nanos / 1000000 * 10 ^ (9 - 3) = nanos by omega]
  · rw [String.toList_ofList, List.cons_append, nanos?_decimals (by decide) (by decide)
      (length_decimalDigits_le 5 (by omega))]
    rw [show nanos / 1000 * 10 ^ (9 - 6) = nanos by omega]
  · rw [String.toList_ofList, List.cons_append, nanos?_decimals (by decide) (by decide)
      (length_decimalDigits_le 8 (by omega))]
    rw [show nanos * 10 ^ (9 - 9) = nanos by omega]

/-! ## The whole -/

/-- What is read of a date and a time of day that are written. -/
theorem timestamp?_parts {year : Int} {month day hour minute second nanos : Nat}
    (hmonth : month < 100) (hday : day < 100) (hhour : hour < 24) (hminute : minute < 60)
    (hsecond : second ≤ 60) (hnanos : nanos < 1000000000) {date : Date}
    (hdate : Date.ofParts? year month day = some date) :
    timestamp? ((Date.yearText year).toList ++ '-' :: ((Date.twoDigits month).toList ++ '-' ::
      ((Date.twoDigits day).toList ++ 'T' :: ((Date.twoDigits hour).toList ++ ':' ::
      ((Date.twoDigits minute).toList ++ ':' :: ((Date.twoDigits second).toList ++
      ((WallClock.fractionText nanos).toList ++ ['Z']))))))) =
      WallClock.toTimestamp? ⟨date, 3600 * hour + 60 * minute +
        (second - if second = 60 then 1 else 0),
        nanos + (if second = 60 then 1 else 0) * Timestamp.perSecond⟩ 0 := by
  have hhyphen : ∀ rest, separator? '-' ('-' :: rest) = some rest := separator?_cons (by decide)
  have hcolon : ∀ rest, separator? ':' (':' :: rest) = some rest := separator?_cons (by decide)
  have hmark : ∀ rest, clockMark? ('T' :: rest) = some rest := fun rest => rfl
  have hzone : offset? (trimLeft ['Z']) = some (0, []) := by decide
  unfold timestamp?
  rw [year?_yearText, Option.bind_eq_bind, Option.bind_some]
  dsimp only
  rw [hhyphen, Option.bind_eq_bind, Option.bind_some, pair?_twoDigits hmonth, Option.bind_eq_bind,
    Option.bind_some]
  dsimp only
  rw [hhyphen, Option.bind_some, pair?_twoDigits hday, Option.bind_some]
  dsimp only
  rw [hmark, Option.bind_some, pair?_twoDigits (by omega), Option.bind_some]
  dsimp only
  rw [hcolon, Option.bind_some, pair?_twoDigits (by omega), Option.bind_some]
  dsimp only
  rw [hcolon, Option.bind_some, pair?_twoDigits (by omega), Option.bind_some]
  dsimp only
  rw [nanos?_fractionText hnanos, Option.bind_some]
  dsimp only
  rw [hzone, Option.bind_some]
  dsimp only
  rw [if_pos ⟨rfl, hhour, hminute, hsecond⟩, hdate, Option.bind_eq_bind, Option.bind_some]

end TimeReader

theorem Date.ofParts?_self {d : Date} (hfirst : firstYear ≤ d.year) (hlast : d.year ≤ lastYear) :
    ofParts? d.year d.month d.day = some d := by
  unfold ofParts?
  rw [dif_pos ⟨d.month_mem, d.day_mem⟩, if_pos ⟨hfirst, hlast⟩]

theorem Date.day_lt (d : Date) : d.day < 100 := by
  have hday := d.day_mem.2
  unfold monthLength at hday
  split_ifs at hday <;> omega

namespace Timestamp

theorem toList_text (t : Timestamp) :
    t.text.toList =
      (Date.yearText t.wallClock.date.year).toList ++
        '-' :: ((Date.twoDigits t.wallClock.date.month).toList ++
        '-' :: ((Date.twoDigits t.wallClock.date.day).toList ++
        'T' :: ((Date.twoDigits (t.wallClock.second / 3600)).toList ++
        ':' :: ((Date.twoDigits (t.wallClock.second / 60 % 60)).toList ++
        ':' :: ((Date.twoDigits (t.wallClock.second % 60 + t.nanos / perSecond)).toList ++
        ((WallClock.fractionText (t.nanos % perSecond)).toList ++ ['Z'])))))) := by
  simp [text, textWith, Date.text, WallClock.timeText, wallClock, WallClock.ofSeconds]

/-- What the text of an instant is read as: within a minute a leap second is taken for the second
behind it. -/
def asRead (t : Timestamp) : Timestamp :=
  if h : perSecond ≤ t.nanos ∧ t.seconds % 60 ≠ 59 then
    { seconds := t.seconds + 1
      nanos := t.nanos - perSecond
      first_le := by
        have hfirst := t.first_le
        omega
      le_last := by
        have hlast := t.le_last
        omega
      nanos_lt := lt_of_le_of_lt (Nat.sub_le _ _) t.nanos_lt }
  else t

theorem asRead_parts (t : Timestamp) :
    ((t.nanos < perSecond ∨ t.seconds % 60 = 59) ∧ t.asRead = t) ∨
      (perSecond ≤ t.nanos ∧ t.seconds % 60 ≠ 59 ∧
        t.asRead.seconds = t.seconds + 1 ∧ t.asRead.nanos = t.nanos - perSecond) := by
  unfold asRead
  split
  · next h => exact Or.inr ⟨h.1, h.2, rfl, rfl⟩
  · next h => exact Or.inl ⟨by omega, rfl⟩

theorem asRead_eq_self_iff (t : Timestamp) :
    t.asRead = t ↔ t.nanos < perSecond ∨ t.seconds % 60 = 59 := by
  rcases t.asRead_parts with ⟨hplain, hsame⟩ | ⟨hleap, hwithin, hseconds, -⟩
  · exact iff_of_true hsame hplain
  · refine iff_of_false (fun hsame => ?_) (by omega)
    rw [hsame] at hseconds
    omega

/-- The date of an instant and a time of that day make an instant. -/
theorem toTimestamp?_wallClock {t read : Timestamp} {second nanos : Nat}
    (hseconds : 86400 * (t.seconds / 86400) + second = read.seconds) (hnanos : nanos = read.nanos) :
    WallClock.toTimestamp? ⟨t.wallClock.date, second, nanos⟩ 0 = some read := by
  have hread : WallClock.seconds ⟨t.wallClock.date, second, nanos⟩ - 0 = read.seconds := by
    unfold WallClock.seconds wallClock WallClock.ofSeconds
    dsimp only
    rw [Date.dayNumber_ofDayNumber]
    omega
  subst hnanos
  unfold WallClock.toTimestamp?
  rw [hread]
  exact dif_pos ⟨⟨read.first_le, read.le_last⟩, read.nanos_lt⟩

/-- An instant is read back, wherever it lies and however fine it is. -/
theorem ofText?_text (t : Timestamp) : ofText? t.text = some t.asRead := by
  have hfirst := t.first_le
  have hlast := t.le_last
  have hnanos := t.nanos_lt
  have hclock : t.wallClock.second = (t.seconds % 86400).toNat := rfl
  have hyear : Date.firstYear ≤ t.wallClock.date.year ∧ t.wallClock.date.year ≤ Date.lastYear :=
    Date.year_ofDayNumber (n := t.seconds / 86400) (by omega) (by omega)
  have hmonth := t.wallClock.date.month_mem
  have hperSecond : perSecond = 1000000000 := rfl
  have hwhole : t.nanos / perSecond = t.nanos / 1000000000 := rfl
  have hpart : t.nanos % perSecond = t.nanos % 1000000000 := rfl
  unfold ofText?
  rw [toList_text, TimeReader.timestamp?_parts (by omega) t.wallClock.date.day_lt (by omega)
    (by omega) (by omega) (by omega) (Date.ofParts?_self hyear.1 hyear.2)]
  rcases t.asRead_parts with ⟨hplain, hsame⟩ | ⟨hleap, hwithin, hseconds, hrest⟩
  · rw [hsame]
    refine toTimestamp?_wallClock ?_ ?_
    · split <;> omega
    · split <;> omega
  · refine toTimestamp?_wallClock ?_ ?_
    · split <;> omega
    · split <;> omega

/-- What the text of an instant is read as has the same text. -/
theorem text_asRead (t : Timestamp) : t.asRead.text = t.text := by
  rcases t.asRead_parts with ⟨-, hsame⟩ | ⟨hleap, hwithin, hseconds, hrest⟩
  · rw [hsame]
  · have hnanos := t.nanos_lt
    have hday : (t.seconds + 1) / 86400 = t.seconds / 86400 := by omega
    have hsecond : ((t.seconds + 1) % 86400).toNat = (t.seconds % 86400).toNat + 1 := by omega
    have hhour : ((t.seconds % 86400).toNat + 1) / 3600 = (t.seconds % 86400).toNat / 3600 := by
      omega
    have hminute : ((t.seconds % 86400).toNat + 1) / 60 = (t.seconds % 86400).toNat / 60 := by
      omega
    have hlast : ((t.seconds % 86400).toNat + 1) % 60 + (t.nanos - perSecond) / perSecond =
        (t.seconds % 86400).toNat % 60 + t.nanos / perSecond := by
      unfold perSecond at hleap ⊢
      omega
    have hpart : (t.nanos - perSecond) % perSecond = t.nanos % perSecond :=
      (Nat.mod_eq_sub_mod hleap).symm
    simp only [text, textWith, wallClock, WallClock.ofSeconds, WallClock.timeText, hseconds, hrest,
      hday, hsecond, hhour, hminute, hlast, hpart]

end Timestamp

end Tradebook
