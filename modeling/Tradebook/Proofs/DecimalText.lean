import Tradebook.Decimal.Text
import Tradebook.Proofs.DigitText

/-!
# A decimal is read back

The reader of decimals rounds, drops and forgives. None of this happens to a text that
a decimal was written as: each number that its digits make on the way is at most the
coefficient, which fits, and there are no more decimals than there may be. So the
reader ends up with the coefficient and the scale that were there (`ofText?_text`).
What it cannot tell is the sign of a zero, which is lost (`asRead`).

The two lemmas on `readDigits` are about the digits before the point and about those
behind it. The number so far is carried along as it grows by digits (`grown`).
-/

namespace Tradebook

namespace Text

/-- What a number becomes when digits are put behind it. -/
def grown (n : Nat) (digits : List Char) : Nat :=
  digits.foldl (fun n c => 10 * n + digitValue c) n

theorem grown_append (n : Nat) (a b : List Char) : grown n (a ++ b) = grown (grown n a) b :=
  List.foldl_append

theorem le_grown (n : Nat) (digits : List Char) : n ≤ grown n digits := by
  induction digits generalizing n with
  | nil => exact le_refl n
  | cons c digits ih =>
      have hstep : n ≤ 10 * n + digitValue c := by omega
      exact hstep.trans (ih (10 * n + digitValue c))

end Text

namespace Decimal

open Tradebook.Text

theorem readDigits_whole {digits : List Char} (hdigits : ∀ c ∈ digits, c.isDigit = true)
    {seen : Bool} (hseen : digits ≠ [] ∨ seen = true) {n : Nat} (hbound : grown n digits < bound)
    (rest : List Char) :
    readDigits false seen n 0 (digits ++ rest) = readDigits false true (grown n digits) 0 rest := by
  induction digits generalizing seen n with
  | nil =>
      rw [hseen.resolve_left (fun h => h rfl)]
      rfl
  | cons c digits ih =>
      have hc : c.isDigit = true := hdigits c (by simp)
      have hnext : 10 * n + digitValue c < bound :=
        lt_of_le_of_lt (le_grown _ digits) hbound
      rw [List.cons_append, readDigits]
      simp only [Bool.false_and, hc, hnext, if_true, Bool.false_eq_true, if_false]
      exact ih (fun d hd => hdigits d (by simp [hd])) (Or.inr rfl) hbound

theorem readDigits_fraction {digits : List Char} (hdigits : ∀ c ∈ digits, c.isDigit = true)
    {n scale : Nat} (hbound : grown n digits < bound)
    (hscale : scale + digits.length ≤ maxScale) :
    readDigits true true n scale digits = some (grown n digits, scale + digits.length) := by
  induction digits generalizing n scale with
  | nil => rfl
  | cons c digits ih =>
      have hc : c.isDigit = true := hdigits c (by simp)
      have hnext : 10 * n + digitValue c < bound :=
        lt_of_le_of_lt (le_grown _ digits) hbound
      rw [List.length_cons] at hscale ⊢
      have hroom : ¬ maxScale ≤ scale := by omega
      rw [readDigits]
      simp only [hroom, hc, hnext, decide_false, Bool.and_false, if_true, Bool.false_eq_true,
        if_false]
      have hrest := ih (fun d hd => hdigits d (by simp [hd])) hbound
        (show scale + 1 + digits.length ≤ maxScale by omega)
      rw [hrest, Nat.add_right_comm, Nat.add_assoc]
      rfl

/-- The digits of a coefficient fall into those before the point, of which there are some, and
as many behind it as the scale says. -/
theorem magnitudeChars_parts (magnitude scale : Nat) :
    ∃ whole fraction, magnitudeChars magnitude scale =
        (if scale = 0 then whole else whole ++ '.' :: fraction) ∧
      whole ≠ [] ∧ fraction.length = scale ∧ grown 0 (whole ++ fraction) = magnitude ∧
      ∀ c ∈ whole ++ fraction, c.isDigit = true := by
  let digits := padZeros (scale + 1) (decimalDigits magnitude)
  have hlength : scale + 1 ≤ digits.length := le_length_padZeros (scale + 1) _
  have hparts : digits.take (digits.length - scale) ++ digits.drop (digits.length - scale) =
      digits := List.take_append_drop _ _
  refine ⟨digits.take (digits.length - scale), digits.drop (digits.length - scale), rfl,
    ?_, ?_, ?_, ?_⟩
  · intro hnil
    have hwhole := congrArg List.length hnil
    rw [List.length_take, List.length_nil] at hwhole
    omega
  · rw [List.length_drop]
    omega
  · rw [hparts]
    exact (ofDigits_padZeros (scale + 1) _).trans (ofDigits_decimalDigits magnitude)
  · rw [hparts]
    exact isDigit_of_mem_padZeros (isDigit_of_mem_decimalDigits magnitude)

theorem readDigits_magnitudeChars {magnitude scale : Nat} (hbound : magnitude < bound)
    (hscale : scale ≤ maxScale) :
    readDigits false false 0 0 (magnitudeChars magnitude scale) = some (magnitude, scale) := by
  obtain ⟨whole, fraction, hchars, hwhole, hlength, hvalue, hdigits⟩ :=
    magnitudeChars_parts magnitude scale
  rw [grown_append] at hvalue
  have hfirst : grown 0 whole < bound :=
    lt_of_le_of_lt (le_grown _ fraction) (lt_of_eq_of_lt hvalue hbound)
  have hread : ∀ rest, readDigits false false 0 0 (whole ++ rest) =
      readDigits false true (grown 0 whole) 0 rest :=
    readDigits_whole (fun c hc => hdigits c (List.mem_append_left _ hc)) (Or.inl hwhole) hfirst
  rw [hchars]
  split
  · next hnone =>
      have hnil : fraction = [] := List.eq_nil_of_length_eq_zero (hlength.trans hnone)
      have hend := hread []
      rw [List.append_nil] at hend
      rw [hend, ← hvalue, hnil, hnone]
      rfl
  · have hpoint : readDigits false true (grown 0 whole) 0 ('.' :: fraction) =
        readDigits true true (grown 0 whole) 0 fraction := by
      rw [readDigits]
      rfl
    have hrest : readDigits true true (grown 0 whole) 0 fraction =
        some (grown (grown 0 whole) fraction, 0 + fraction.length) :=
      readDigits_fraction (fun c hc => hdigits c (List.mem_append_right _ hc))
        (lt_of_eq_of_lt hvalue hbound) (by omega)
    rw [hread, hpoint, hrest, hvalue, hlength, Nat.zero_add]

theorem magnitudeChars_head (magnitude scale : Nat) :
    ∃ d ds, magnitudeChars magnitude scale = d :: ds ∧ d.isDigit = true := by
  obtain ⟨whole, fraction, hchars, hwhole, -, -, hdigits⟩ := magnitudeChars_parts magnitude scale
  obtain ⟨d, ds, rfl⟩ := List.exists_cons_of_ne_nil hwhole
  rw [hchars]
  split
  · exact ⟨d, ds, rfl, hdigits d (by simp)⟩
  · exact ⟨d, ds ++ '.' :: fraction, rfl, hdigits d (by simp)⟩

/-- What the text of a number is read as: a zero has no sign. -/
def asRead (a : Decimal) : Decimal :=
  { a with negative := a.coefficient < 0 }

theorem coefficient_asRead (a : Decimal) : a.asRead.coefficient = a.coefficient := by
  have hmagnitude := a.natAbs_coefficient
  show (if decide (a.coefficient < 0) = true then -(a.magnitude : Int) else a.magnitude) = _
  simp only [decide_eq_true_eq]
  split <;> omega

theorem asRead_eq_self_iff (a : Decimal) :
    a.asRead = a ↔ ¬ (a.negative = true ∧ a.magnitude = 0) := by
  obtain ⟨negative, magnitude, scale, hmagnitude, hscale⟩ := a
  cases negative
  · simp [asRead, coefficient]
  · simp [asRead, coefficient, Nat.pos_iff_ne_zero]

theorem ofParts?_coefficient (a : Decimal) : ofParts? a.coefficient a.scale = some a.asRead := by
  simp [ofParts?, asRead, natAbs_coefficient, a.magnitude_lt, a.scale_le]

theorem ofPlain?_chars (a : Decimal) : ofPlain? a.chars = some a.asRead := by
  have hread := readDigits_magnitudeChars (show a.magnitude < bound from a.magnitude_lt)
    (show a.scale ≤ maxScale from a.scale_le)
  rw [← ofParts?_coefficient]
  unfold chars coefficient
  split
  · simp only [ofPlain?, hread]
    rfl
  · obtain ⟨d, ds, hds, hd⟩ := magnitudeChars_head a.magnitude a.scale
    have hminus : d ≠ '-' := isDigit_ne hd (by decide)
    have hplus : d ≠ '+' := isDigit_ne hd (by decide)
    rw [hds] at hread ⊢
    simp [ofPlain?, hminus, hplus, hread]

/-- A decimal is read back, with the decimals that it shows. -/
theorem ofText?_text (a : Decimal) : ofText? a.text = some a.asRead := by
  unfold ofText? text
  rw [String.toList_ofList, ofPlain?_chars]

/-- The text of a zero tells its sign. -/
theorem text_asRead_iff (a : Decimal) : a.asRead.text = a.text ↔ a.asRead = a := by
  refine ⟨fun h => ?_, congrArg text⟩
  obtain ⟨d, ds, hds, hd⟩ := magnitudeChars_head a.magnitude a.scale
  have hminus : '-' ≠ d := (isDigit_ne hd (by decide)).symm
  have hchars := String.ofList_injective h
  have hsign : decide (a.coefficient < 0) = a.negative := by
    by_contra hother
    cases hnegative : a.negative <;> simp_all [chars, asRead]
  rw [asRead, hsign]

end Decimal

end Tradebook
