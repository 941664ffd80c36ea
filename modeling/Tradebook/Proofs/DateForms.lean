import Mathlib.Data.List.Basic
import Mathlib.Data.List.TakeWhile
import Tradebook.Proofs.TimestampText
import Tradebook.Proofs.ZoneReadings
import Tradebook.StartTime

/-!
# The texts that stand for a date

A date is written `YYYY-MM-DD`, and its reader takes more than that. `LooseForm` describes
what it takes without it: blanks before each field, fields that are too short, a sign before
the year and then any number of digits. `ofText?_eq_some_iff` says that this is exactly the
language of the reader, so nothing else is ever taken for a date.

The documented form is `FullForm`. Of the texts that are taken it has those of ten characters
that are all digits and hyphens with a digit first (`LooseForm.full_iff`). All others are taken
for a date that may not be meant (`short_fields_are_taken`).
-/

namespace Tradebook

open Tradebook.Text

namespace TimeReader

/-- Some digits, but no more than so many. -/
structure Digits (most : Nat) (cs : List Char) : Prop where
  ne_nil : cs ≠ []
  length_le : cs.length ≤ most
  isDigit : ∀ c ∈ cs, c.isDigit = true

/-- Nothing but blanks, if anything. -/
def Blanks (cs : List Char) : Prop :=
  ∀ c ∈ cs, isBlank c = true

inductive YearForm (year : Int) : List Char → Prop
  | plain {digits : List Char} (hdigits : Digits 4 digits) (hvalue : year = ofDigits digits) :
      YearForm year digits
  | minus {digits : List Char} (hdigits : Digits digits.length digits)
      (hvalue : year = -(ofDigits digits : Int)) : YearForm year ('-' :: digits)
  | plus {digits : List Char} (hdigits : Digits digits.length digits)
      (hvalue : year = ofDigits digits) : YearForm year ('+' :: digits)

structure PairForm (n : Nat) (cs : List Char) : Prop extends Digits 2 cs where
  value : ofDigits cs = n

/-- How a date may be written for the reader to take it. -/
inductive LooseForm (date : Date) : List Char → Prop
  | mk {gap year gap' month gap'' day : List Char} (hgap : Blanks gap)
      (hyear : YearForm date.year year) (hgap' : Blanks gap') (hmonth : PairForm date.month month)
      (hgap'' : Blanks gap'') (hday : PairForm date.day day)
      (hhandled : Date.firstYear ≤ date.year ∧ date.year ≤ Date.lastYear) :
      LooseForm date (gap ++ (year ++ '-' :: (gap' ++ (month ++ '-' :: (gap'' ++ day)))))

/-- How a date is written: year, month and day in four, two and two digits between hyphens. -/
inductive FullForm (date : Date) : List Char → Prop
  | mk {year month day : List Char} (hyear : Digits 4 year) (hfour : year.length = 4)
      (hvalue : date.year = ofDigits year) (hmonth : PairForm date.month month)
      (htwo : month.length = 2) (hday : PairForm date.day day) (htwo' : day.length = 2) :
      FullForm date (year ++ '-' :: (month ++ '-' :: day))

/-! ## What is read has the form -/

theorem trimLeft_eq (cs : List Char) : ∃ gap, Blanks gap ∧ cs = gap ++ trimLeft cs :=
  ⟨cs.takeWhile isBlank, fun _ hc => List.mem_takeWhile_imp hc,
    List.takeWhile_append_dropWhile.symm⟩

theorem number?_eq_some {most n : Nat} {cs rest : List Char}
    (h : number? most cs = some (n, rest)) :
    ∃ digits, Digits most digits ∧ cs = digits ++ rest ∧ ofDigits digits = n := by
  unfold number? at h
  split at h
  · cases h
  · next digits hnone =>
      obtain ⟨rfl, rfl⟩ := Prod.mk.inj (Option.some.inj h)
      have hprefix : (cs.take most).takeWhile Char.isDigit <+: cs :=
        (List.takeWhile_prefix _).trans (List.take_prefix _ _)
      refine ⟨_, ⟨by simpa using hnone, ?_, fun _ hc => List.mem_takeWhile_imp hc⟩, ?_, rfl⟩
      · exact (List.takeWhile_prefix _).length_le.trans (List.length_take_le _ _)
      · exact (List.prefix_iff_eq_append.1 hprefix).symm

theorem year?_eq_some {year : Int} {cs rest : List Char} (h : year? cs = some (year, rest)) :
    ∃ gap form, Blanks gap ∧ YearForm year form ∧ cs = gap ++ (form ++ rest) := by
  obtain ⟨gap, hgap, hcs⟩ := trimLeft_eq cs
  have hexact {most : Nat} {digits : List Char} (hdigits : Digits most digits) :
      Digits digits.length digits := ⟨hdigits.ne_nil, le_rfl, hdigits.isDigit⟩
  unfold year? at h
  split at h
  · next after htrim =>
      obtain ⟨⟨n, behind⟩, hnumber, hyear⟩ := Option.map_eq_some_iff.1 h
      obtain ⟨digits, hdigits, rfl, rfl⟩ := number?_eq_some hnumber
      obtain ⟨rfl, rfl⟩ := Prod.mk.inj hyear
      exact ⟨gap, '-' :: digits, hgap, .minus (hexact hdigits) rfl, hcs.trans (by rw [htrim]; rfl)⟩
  · next after htrim =>
      obtain ⟨⟨n, behind⟩, hnumber, hyear⟩ := Option.map_eq_some_iff.1 h
      obtain ⟨digits, hdigits, rfl, rfl⟩ := number?_eq_some hnumber
      obtain ⟨rfl, rfl⟩ := Prod.mk.inj hyear
      exact ⟨gap, '+' :: digits, hgap, .plus (hexact hdigits) rfl, hcs.trans (by rw [htrim]; rfl)⟩
  · obtain ⟨⟨n, behind⟩, hnumber, hyear⟩ := Option.map_eq_some_iff.1 h
    obtain ⟨digits, hdigits, htrim, rfl⟩ := number?_eq_some hnumber
    obtain ⟨rfl, rfl⟩ := Prod.mk.inj hyear
    exact ⟨gap, digits, hgap, .plain hdigits rfl, hcs.trans (by rw [htrim])⟩

theorem pair_eq_some {n : Nat} {cs rest : List Char}
    (h : number? 2 (trimLeft cs) = some (n, rest)) :
    ∃ gap form, Blanks gap ∧ PairForm n form ∧ cs = gap ++ (form ++ rest) := by
  obtain ⟨gap, hgap, hcs⟩ := trimLeft_eq cs
  obtain ⟨digits, hdigits, htrim, hvalue⟩ := number?_eq_some h
  exact ⟨gap, digits, hgap, ⟨hdigits, hvalue⟩, hcs.trans (by rw [htrim])⟩

theorem skip?_eq_some {c : Char} {cs rest : List Char} (h : skip? c cs = some rest) :
    cs = c :: rest := by
  unfold skip? at h
  split at h
  · split at h
    · next hsame =>
        obtain rfl := Option.some.inj h
        rw [hsame]
    · cases h
  · cases h

theorem ofParts?_eq_some {year : Int} {month day : Nat} {date : Date}
    (h : Date.ofParts? year month day = some date) :
    date.year = year ∧ date.month = month ∧ date.day = day ∧
      Date.firstYear ≤ date.year ∧ date.year ≤ Date.lastYear := by
  unfold Date.ofParts? at h
  split at h
  · split at h
    · next hhandled =>
        obtain rfl := Option.some.inj h
        exact ⟨rfl, rfl, rfl, hhandled⟩
    · cases h
  · cases h

theorem looseForm_of_datePrefix? {cs : List Char} {date : Date}
    (h : datePrefix? cs = some (date, [])) : LooseForm date cs := by
  unfold datePrefix? at h
  obtain ⟨⟨year, behindYear⟩, hyear, h⟩ := Option.bind_eq_some_iff.1 h
  obtain ⟨beforeMonth, hskip, h⟩ := Option.bind_eq_some_iff.1 h
  obtain ⟨⟨month, behindMonth⟩, hmonth, h⟩ := Option.bind_eq_some_iff.1 h
  obtain ⟨beforeDay, hskip', h⟩ := Option.bind_eq_some_iff.1 h
  obtain ⟨⟨day, behindDay⟩, hday, h⟩ := Option.bind_eq_some_iff.1 h
  obtain ⟨found, hfound, h⟩ := Option.bind_eq_some_iff.1 h
  obtain ⟨rfl, rfl⟩ := Prod.mk.inj (Option.some.inj h)
  obtain ⟨rfl, rfl, rfl, hhandled⟩ := ofParts?_eq_some hfound
  obtain ⟨gap, yearForm, hgap, hyearForm, rfl⟩ := year?_eq_some hyear
  obtain rfl := skip?_eq_some hskip
  obtain ⟨gap', monthForm, hgap', hmonthForm, rfl⟩ := pair_eq_some hmonth
  obtain rfl := skip?_eq_some hskip'
  obtain ⟨gap'', dayForm, hgap'', hdayForm, rfl⟩ := pair_eq_some hday
  rw [List.append_nil]
  exact .mk hgap hyearForm hgap' hmonthForm hgap'' hdayForm hhandled

/-! ## What has the form is read -/

theorem trimLeft_blanks {gap : List Char} (hgap : Blanks gap) (cs : List Char) :
    trimLeft (gap ++ cs) = trimLeft cs :=
  List.dropWhile_append_of_pos hgap

theorem year?_form {year : Int} {gap form : List Char} (hgap : Blanks gap)
    (hform : YearForm year form) (rest : List Char) :
    year? (gap ++ (form ++ '-' :: rest)) = some (year, '-' :: rest) := by
  have hstop := head?_cons_isDigit (c := '-') (by decide) rest
  have hsigned {digits : List Char} (hdigits : Digits digits.length digits) :
      number? (digits ++ '-' :: rest).length (digits ++ '-' :: rest) =
        some (ofDigits digits, '-' :: rest) := by
    refine number?_digits hdigits.isDigit hdigits.ne_nil ?_ (Or.inr hstop)
    rw [List.length_append]
    omega
  unfold year?
  rw [trimLeft_blanks hgap]
  cases hform with
  | plain hdigits hvalue =>
      rw [trimLeft_digits hdigits.isDigit hdigits.ne_nil]
      have hread := number?_digits hdigits.isDigit hdigits.ne_nil hdigits.length_le (Or.inr hstop)
      obtain ⟨d, ds, rfl⟩ := List.exists_cons_of_ne_nil hdigits.ne_nil
      have hd : d.isDigit = true := hdigits.isDigit d List.mem_cons_self
      split
      · next heq => exact absurd (List.cons.inj heq).1 (isDigit_ne hd (by decide))
      · next heq => exact absurd (List.cons.inj heq).1 (isDigit_ne hd (by decide))
      · rw [hread, hvalue]
        rfl
  | minus hdigits hvalue =>
      rw [List.cons_append, trimLeft_cons (by decide)]
      simp only [hsigned hdigits, Option.map_some, hvalue]
  | plus hdigits hvalue =>
      rw [List.cons_append, trimLeft_cons (by decide)]
      simp only [hsigned hdigits, Option.map_some, hvalue]

theorem pair_form {n : Nat} {gap form : List Char} (hgap : Blanks gap) (hform : PairForm n form)
    (rest : List Char) (hrest : ∀ c ∈ rest.head?, c.isDigit = false) :
    number? 2 (trimLeft (gap ++ (form ++ rest))) = some (n, rest) := by
  rw [trimLeft_blanks hgap, trimLeft_digits hform.isDigit hform.ne_nil,
    number?_digits hform.isDigit hform.ne_nil hform.length_le (Or.inr hrest), hform.value]

theorem datePrefix?_of_looseForm {cs : List Char} {date : Date} (h : LooseForm date cs) :
    datePrefix? cs = some (date, []) := by
  obtain ⟨hgap, hyear, hgap', hmonth, hgap'', hday, hhandled⟩ := h
  have hhyphen (rest : List Char) : skip? '-' ('-' :: rest) = some rest := rfl
  have hstop := fun rest => head?_cons_isDigit (c := '-') (by decide) rest
  unfold datePrefix?
  rw [year?_form hgap hyear, Option.bind_eq_bind, Option.bind_some]
  dsimp only
  rw [hhyphen, Option.bind_eq_bind, Option.bind_some, pair_form hgap' hmonth _ (hstop _),
    Option.bind_eq_bind, Option.bind_some]
  dsimp only
  have hlast := pair_form hgap'' hday [] nofun
  rw [List.append_nil] at hlast
  rw [hhyphen, Option.bind_some, hlast, Option.bind_some]
  dsimp only
  rw [Date.ofParts?_self hhandled.1 hhandled.2]
  rfl

/-! ## The documented form -/

theorem FullForm.loose {date : Date} {cs : List Char} (h : FullForm date cs) :
    LooseForm date cs := by
  obtain ⟨hyear, hfour, hvalue, hmonth, -, hday, -⟩ := h
  rename_i year month day
  have hsmall := ofDigits_lt hyear.isDigit
  rw [hfour] at hsmall
  refine @LooseForm.mk date [] _ [] _ [] _ nofun (.plain hyear hvalue) nofun hmonth nofun hday ?_
  unfold Date.firstYear Date.lastYear
  omega

/-- Of the texts that are taken those of ten characters, digits and hyphens with a digit first,
have the documented form. -/
theorem LooseForm.full_iff {date : Date} {cs : List Char} (h : LooseForm date cs) :
    FullForm date cs ↔
      cs.length = 10 ∧ (∀ c ∈ cs, c.isDigit = true ∨ c = '-') ∧ cs.head? ≠ some '-' := by
  constructor
  · rintro ⟨hyear, hfour, -, hmonth, htwo, hday, htwo'⟩
    refine ⟨by simp [hfour, htwo, htwo'], ?_, ?_⟩
    · intro c hc
      simp only [List.mem_append, List.mem_cons] at hc
      rcases hc with hc | rfl | hc | rfl | hc
      · exact Or.inl (hyear.isDigit c hc)
      · exact Or.inr rfl
      · exact Or.inl (hmonth.isDigit c hc)
      · exact Or.inr rfl
      · exact Or.inl (hday.isDigit c hc)
    · obtain ⟨d, ds, rfl⟩ := List.exists_cons_of_ne_nil hyear.ne_nil
      have hd := isDigit_ne (d := '-') (hyear.isDigit d List.mem_cons_self) (by decide)
      simpa using hd
  · rintro ⟨hten, hplain, hhead⟩
    obtain ⟨hgap, hyear, hgap', hmonth, hgap'', hday, -⟩ := h
    -- a blank is neither a digit nor a hyphen
    have hnone {gap : List Char} (hblank : Blanks gap)
        (hmem : ∀ c ∈ gap, c.isDigit = true ∨ c = '-') : gap = [] := by
      refine List.eq_nil_iff_forall_not_mem.2 fun c hc => ?_
      have hc' := hblank c hc
      rcases hmem c hc with hdigit | rfl
      · rw [isBlank_of_isDigit hdigit] at hc'
        cases hc'
      · exact absurd hc' (by decide)
    obtain rfl := hnone hgap fun c hc => hplain c (by simp [hc])
    obtain rfl := hnone hgap' fun c hc => hplain c (by simp [hc])
    obtain rfl := hnone hgap'' fun c hc => hplain c (by simp [hc])
    simp only [List.nil_append] at hten hplain hhead ⊢
    cases hyear with
    | plain hdigits hvalue =>
        have hfour := hdigits.length_le
        have htwo := hmonth.length_le
        have htwo' := hday.length_le
        simp only [List.length_append, List.length_cons] at hten
        exact .mk hdigits (by omega) hvalue hmonth (by omega) hday (by omega)
    | minus hdigits hvalue => exact absurd rfl hhead
    | plus hdigits hvalue =>
        exact absurd (hplain '+' (by simp)) (by decide)

end TimeReader

open TimeReader

/-- The reader of dates takes the texts of the loose form, each for the date that it stands for,
and no others. -/
theorem Date.ofText?_eq_some_iff {s : String} {date : Date} :
    ofText? s = some date ↔ LooseForm date s.toList := by
  unfold ofText?
  constructor
  · intro h
    split at h
    · next found hread =>
        obtain rfl := Option.some.inj h
        exact looseForm_of_datePrefix? hread
    · cases h
  · intro h
    rw [datePrefix?_of_looseForm h]

namespace StartTime

theorem resolve_some {s : String} (hs : trim s ≠ "") (now : Timestamp) (zone : Zone) :
    resolve (some s) now zone = .ofExcept (ofDate (trim s)) := by
  unfold resolve
  rw [Option.map_some, Option.filter_some, if_pos (by simpa using hs)]

theorem resolve_of_ofText? {s : String} {date : Date} (h : Date.ofText? (trim s) = some date)
    (now : Timestamp) (zone : Zone) :
    resolve (some s) now zone =
      .ofOption (.noMidnight date) (Zone.taipei.single? ⟨date, 0, 0⟩) := by
  have hsome : trim s ≠ "" := by
    intro hnil
    rw [hnil] at h
    cases h
  rw [resolve_some hsome, ofDate, h]
  dsimp only
  cases Zone.taipei.single? ⟨date, 0, 0⟩ <;> rfl

/-- A text that is not blank is refused as a date exactly if it has not the loose form of any. One
that has it leads to a midnight of the date that it stands for, if there is one, and it has the
documented form exactly if it is ten characters, digits and hyphens with a digit first. A text of
the documented form always has the loose form of the same date. -/
theorem refused_iff_not_loose {s : String} (hs : trim s ≠ "") (now : Timestamp) (zone : Zone) :
    (resolve (some s) now zone = .error (.invalidDate (trim s)) ↔
      ∀ date, ¬ LooseForm date (trim s).toList) ∧
    ∀ date,
      (FullForm date (trim s).toList → LooseForm date (trim s).toList) ∧
      (LooseForm date (trim s).toList →
        ((∃ t ∈ Zone.taipei.instants ⟨date, 0, 0⟩, resolve (some s) now zone = .ok t) ∨
          resolve (some s) now zone = .error (.noMidnight date)) ∧
        (FullForm date (trim s).toList ↔
          (trim s).toList.length = 10 ∧ (∀ c ∈ (trim s).toList, c.isDigit = true ∨ c = '-') ∧
            (trim s).toList.head? ≠ some '-')) := by
  have htaken {date : Date} (h : LooseForm date (trim s).toList) :
      (∃ t ∈ Zone.taipei.instants ⟨date, 0, 0⟩, resolve (some s) now zone = .ok t) ∨
        resolve (some s) now zone = .error (.noMidnight date) := by
    rw [resolve_of_ofText? (Date.ofText?_eq_some_iff.2 h)]
    cases hsingle : Zone.taipei.single? ⟨date, 0, 0⟩ with
    | none => exact Or.inr rfl
    | some t => exact Or.inl ⟨t, Zone.mem_instants_of_single? hsingle, rfl⟩
  refine ⟨⟨fun hrefused date h => ?_, fun hnone => ?_⟩, fun date =>
    ⟨FullForm.loose, fun h => ⟨htaken h, h.full_iff⟩⟩⟩
  · rw [hrefused] at htaken
    rcases htaken h with ⟨t, -, hok⟩ | hother
    · cases hok
    · cases hother
  · have hread : Date.ofText? (trim s) = none := by
      cases hread : Date.ofText? (trim s) with
      | none => rfl
      | some date => exact absurd (Date.ofText?_eq_some_iff.1 hread) (hnone date)
    rw [resolve_some hs, ofDate, hread]
    rfl

/-- A month padded with a blank is taken, though the text has not the documented form. -/
theorem refused_iff_not_loose_padded :
    let newYear : Date := ⟨2022, 1, 1, by decide, by decide⟩
    trim " 2022- 1-01 " ≠ "" ∧ LooseForm newYear (trim " 2022- 1-01 ").toList ∧
      ¬ FullForm newYear (trim " 2022- 1-01 ").toList ∧
      resolve (some " 2022- 1-01 ") .epoch .utc ≠ .error (.invalidDate (trim " 2022- 1-01 ")) := by
  intro newYear
  have hsome : trim " 2022- 1-01 " ≠ "" := by decide
  have hloose : LooseForm newYear (trim " 2022- 1-01 ").toList :=
    Date.ofText?_eq_some_iff.1 (by decide)
  obtain ⟨hrefused, htaken⟩ := refused_iff_not_loose hsome .epoch .utc
  refine ⟨hsome, hloose, fun hfull => ?_, fun herror => hrefused.1 herror newYear hloose⟩
  -- the blank before the month is neither a digit nor a hyphen
  have hplain := (((htaken newYear).2 hloose).2.1 hfull).2.1
  exact absurd (hplain ' ' (by decide)) (by decide)

/-- A year of two digits is a year of the first century, with a sign or without one, and a padded
month is no obstacle: none of these texts has the documented form of any date, and none is
refused. -/
theorem short_fields_are_taken :
    let ancient : Timestamp := ⟨-61472937960, 0, by decide, by decide, by decide⟩
    let recent : Timestamp := ⟨1640966400, 0, by decide, by decide, by decide⟩
    Zone.taipei.wallClock? ancient = some ⟨⟨22, 1, 1, by decide, by decide⟩, 0, 0⟩ ∧
      Zone.taipei.wallClock? recent = some ⟨⟨2022, 1, 1, by decide, by decide⟩, 0, 0⟩ ∧
      resolve (some "22-01-01") .epoch .utc = .ok ancient ∧
      resolve (some "+22-01-01") .epoch .utc = .ok ancient ∧
      resolve (some "2022- 1-01") .epoch .utc = .ok recent ∧
      ∀ date, ¬ FullForm date "22-01-01".toList ∧ ¬ FullForm date "+22-01-01".toList ∧
        ¬ FullForm date "2022- 1-01".toList := by
  refine ⟨by decide, by decide, by decide, by decide, by decide, fun date => ⟨?_, ?_, ?_⟩⟩
  · exact fun h => absurd (h.loose.full_iff.1 h).1 (by decide)
  · exact fun h => absurd (h.loose.full_iff.1 h).1 (by decide)
  · exact fun h => absurd ((h.loose.full_iff.1 h).2.1 ' ' (by decide)) (by decide)

end StartTime

end Tradebook
