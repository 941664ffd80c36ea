import Mathlib.Data.List.Basic
import Mathlib.Data.List.Induction
import Mathlib.Tactic.Ring
import Tradebook.Text.Digits

/-!
# Digits in a text

What a reader of numbers needs to know about the digits that were written: how
many there are at most, that they are digits, what zeros in front and more digits
behind do to their value, and where they end.
-/

namespace Tradebook.Text

theorem ofDigits_append (a b : List Char) :
    ofDigits (a ++ b) = ofDigits a * 10 ^ b.length + ofDigits b := by
  induction b using List.reverseRecOn with
  | nil => simp [ofDigits]
  | append_singleton b c ih =>
      rw [← List.append_assoc, ofDigits_append_singleton, ih, ofDigits_append_singleton,
        List.length_append, List.length_singleton, Nat.pow_succ]
      ring

theorem ofDigits_lt {cs : List Char} (h : ∀ c ∈ cs, c.isDigit = true) :
    ofDigits cs < 10 ^ cs.length := by
  induction cs using List.reverseRecOn with
  | nil => decide
  | append_singleton cs c ih =>
      have hfront := ih fun d hd => h d (List.mem_append_left _ hd)
      have hdigit : 48 ≤ c.toNat ∧ c.toNat ≤ 57 := by
        simpa [Char.isDigit, UInt32.le_iff_toNat_le] using h c (by simp)
      rw [ofDigits_append_singleton, List.length_append, List.length_singleton, Nat.pow_succ]
      unfold digitValue
      omega

theorem ofDigits_padZeros (width : Nat) (cs : List Char) :
    ofDigits (padZeros width cs) = ofDigits cs := by
  have hzeros : ∀ k, ofDigits (List.replicate k '0') = 0 := by
    intro k
    induction k with
    | zero => rfl
    | succ k ih => rw [List.replicate_succ', ofDigits_append_singleton, ih]; rfl
  rw [padZeros, ofDigits_append, hzeros, Nat.zero_mul, Nat.zero_add]

theorem length_decimalDigits_le {n : Nat} (k : Nat) (h : n < 10 ^ (k + 1)) :
    (decimalDigits n).length ≤ k + 1 := by
  induction k generalizing n with
  | zero =>
      rw [decimalDigits, if_pos (by simpa using h)]
      simp
  | succ k ih =>
      rw [decimalDigits]
      split
      · simp
      · have hdiv : n / 10 < 10 ^ (k + 1) := by
          rw [Nat.pow_succ] at h
          omega
        have := ih hdiv
        rw [List.length_append, List.length_singleton]
        omega

theorem length_padZeros {width : Nat} {cs : List Char} (h : cs.length ≤ width) :
    (padZeros width cs).length = width := by
  rw [padZeros, List.length_append, List.length_replicate]
  omega

theorem le_length_padZeros (width : Nat) (cs : List Char) : width ≤ (padZeros width cs).length := by
  rw [padZeros, List.length_append, List.length_replicate]
  omega

theorem isDigit_of_mem_padZeros {width : Nat} {cs : List Char}
    (h : ∀ c ∈ cs, c.isDigit = true) : ∀ c ∈ padZeros width cs, c.isDigit = true := by
  intro c hc
  rcases List.mem_append.1 hc with hc | hc
  · rw [List.eq_of_mem_replicate hc]
    decide
  · exact h c hc

theorem isDigit_ne {c d : Char} (hc : c.isDigit = true) (hd : d.isDigit = false) : c ≠ d := by
  rintro rfl
  rw [hc] at hd
  cases hd

theorem spanDigits_append {digits rest : List Char} (hdigits : ∀ c ∈ digits, c.isDigit = true)
    (hrest : ∀ c ∈ rest.head?, c.isDigit = false) :
    spanDigits (digits ++ rest) = (digits, rest) := by
  unfold spanDigits
  rw [List.takeWhile_append_of_pos hdigits, List.dropWhile_append_of_pos hdigits]
  cases rest with
  | nil => simp
  | cons c rest =>
      have hc : ¬ c.isDigit = true := by simp [hrest c rfl]
      rw [List.takeWhile_cons_of_neg hc, List.dropWhile_cons_of_neg hc, List.append_nil]

/-- Only zero is written with a zero in front. -/
theorem eq_zero_of_head?_decimalDigits (n : Nat) (h : (decimalDigits n).head? = some '0') :
    n = 0 := by
  rw [decimalDigits] at h
  split at h
  · next hsmall =>
      have hdigit : digitChar n = '0' := by simpa using h
      have hvalue := digitValue_digitChar n hsmall
      rw [hdigit] at hvalue
      exact hvalue.symm
  · next hlarge =>
      rw [List.head?_append_of_ne_nil _ (decimalDigits_ne_nil _)] at h
      have := eq_zero_of_head?_decimalDigits (n / 10) h
      omega

end Tradebook.Text
