/-!
# Decimal digits

Naturals as digit strings and back. `ofDigits_decimalDigits` says that nothing is
lost on the way.
-/

namespace Tradebook.Text

/-- The character of a digit below ten. -/
def digitChar (d : Nat) : Char :=
  Char.ofNat (48 + d)

/-- The digit that a character stands for; of use on digits only. -/
def digitValue (c : Char) : Nat :=
  c.toNat - 48

/-- The decimal digits of a natural, without leading zeros. -/
def decimalDigits (n : Nat) : List Char :=
  if n < 10 then [digitChar n] else decimalDigits (n / 10) ++ [digitChar (n % 10)]

/-- The natural that a digit string denotes. -/
def ofDigits (cs : List Char) : Nat :=
  cs.foldl (fun n c => 10 * n + digitValue c) 0

/-- A natural in decimal. -/
def natText (n : Nat) : String :=
  .ofList (decimalDigits n)

/-- An integer in decimal, with a minus sign where it is negative. -/
def intText : Int → String
  | .ofNat n => natText n
  | .negSucc n => "-" ++ natText (n + 1)

/-- Fills up with zeros in front until the width is reached. -/
def padZeros (width : Nat) (cs : List Char) : List Char :=
  List.replicate (width - cs.length) '0' ++ cs

/-- The leading digits and what follows them. -/
def spanDigits (cs : List Char) : List Char × List Char :=
  (cs.takeWhile Char.isDigit, cs.dropWhile Char.isDigit)

theorem digitValue_digitChar : ∀ d, d < 10 → digitValue (digitChar d) = d := by
  decide

theorem isDigit_digitChar : ∀ d, d < 10 → (digitChar d).isDigit = true := by
  decide

theorem ofDigits_append_singleton (cs : List Char) (c : Char) :
    ofDigits (cs ++ [c]) = 10 * ofDigits cs + digitValue c := by
  simp [ofDigits]

theorem ofDigits_decimalDigits (n : Nat) : ofDigits (decimalDigits n) = n := by
  rw [decimalDigits]
  split
  · rename_i h
    simp [ofDigits, digitValue_digitChar n h]
  · rw [ofDigits_append_singleton, ofDigits_decimalDigits (n / 10),
      digitValue_digitChar _ (by omega)]
    omega

theorem isDigit_of_mem_decimalDigits (n : Nat) : ∀ c ∈ decimalDigits n, c.isDigit = true := by
  rw [decimalDigits]
  split
  · rename_i h
    simpa using isDigit_digitChar n h
  · intro c hc
    rcases List.mem_append.1 hc with hc | hc
    · exact isDigit_of_mem_decimalDigits (n / 10) c hc
    · rw [List.mem_singleton.1 hc]
      exact isDigit_digitChar _ (by omega)

theorem decimalDigits_ne_nil (n : Nat) : decimalDigits n ≠ [] := by
  rw [decimalDigits]
  split <;> simp

end Tradebook.Text
