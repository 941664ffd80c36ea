import Mathlib
import Tradebook.Proofs.Utf8Text

/-!
# The bytes of texts are in the order of the texts

Texts compare by their characters, and their bytes compare the same way (`utf8_lt_utf8`).
That is a property of the encoding, which was made for it. The first byte of a character is
the larger the more bytes follow, and it is followed by the rest of the character's number in
groups of six bits, the highest group first. So of two characters the one with the smaller
number has the smaller byte where the two first differ, and neither is the beginning of the
other.
-/

namespace Tradebook.Text

/-- The last groups of six bits of a number, as bytes. -/
def sixBitGroups : Nat → Nat → List UInt8
  | 0, _ => []
  | more + 1, v => UInt8.ofNat (v / 64 ^ more % 64 + 128) :: sixBitGroups more v

/-- How many bytes follow the first one of a character. -/
def bytesAfterLead (v : Nat) : Nat :=
  if v ≤ 0x7F then 0 else if v ≤ 0x7FF then 1 else if v ≤ 0xFFFF then 2 else 3

/-- What the first byte of a character says besides the highest bits of its number. -/
def leadMark : Nat → Nat
  | 0 => 0
  | 1 => 0xC0
  | 2 => 0xE0
  | _ => 0xF0

/-- The first byte of a character as a number. -/
def leadNumber (v : Nat) : Nat :=
  v / 64 ^ bytesAfterLead v + leadMark (bytesAfterLead v)

theorem utf8EncodeChar_eq (c : Char) :
    String.utf8EncodeChar c =
      UInt8.ofNat (leadNumber c.val.toNat) ::
        sixBitGroups (bytesAfterLead c.val.toNat) c.val.toNat := by
  have hvalid : c.val.toNat < 0xD800 ∨ 0xDFFF < c.val.toNat ∧ c.val.toNat < 0x110000 := c.valid
  rw [String.utf8EncodeChar, leadNumber, bytesAfterLead]
  generalize c.val.toNat = v at hvalid
  split_ifs with hone htwo hthree
  · simp [leadMark, sixBitGroups]
  · have hlead : v / 64 % 32 = v / 64 := by omega
    simp [leadMark, sixBitGroups, hlead]
  · have hlead : v / 4096 % 16 = v / 4096 := by omega
    simp [leadMark, sixBitGroups, hlead]
  · have hlead : v / 262144 % 8 = v / 262144 := by omega
    simp [leadMark, sixBitGroups, hlead]

theorem ofNat_lt_ofNat {a b : Nat} (h : a < b) (hb : b < 256) : UInt8.ofNat a < UInt8.ofNat b := by
  rw [UInt8.lt_iff_toNat_lt, toNat_ofNat (by omega), toNat_ofNat hb]
  exact h

/-- Of two numbers that agree above some groups the smaller one has the smaller groups. -/
theorem sixBitGroups_lt {more v w : Nat} (hsame : v / 64 ^ more = w / 64 ^ more) (h : v < w)
    (xs ys : List UInt8) : sixBitGroups more v ++ xs < sixBitGroups more w ++ ys := by
  induction more with
  | zero =>
      rw [Nat.pow_zero, Nat.div_one, Nat.div_one] at hsame
      omega
  | succ more ih =>
      rw [Nat.pow_succ, ← Nat.div_div_eq_div_mul, ← Nat.div_div_eq_div_mul] at hsame
      have hle : v / 64 ^ more ≤ w / 64 ^ more := Nat.div_le_div_right (Nat.le_of_lt h)
      rw [sixBitGroups, sixBitGroups, List.cons_append, List.cons_append, List.cons_lt_cons_iff]
      rcases Nat.lt_or_eq_of_le hle with hlt | heq
      · exact Or.inl (ofNat_lt_ofNat (by omega) (by omega))
      · exact Or.inr ⟨by rw [heq], ih heq⟩

/-- The first byte tells how many follow, and more of them follow a larger number. -/
theorem leadNumber_le {v w : Nat} (h : v < w) (hw : w < 0x110000) :
    leadNumber v < leadNumber w ∨
      bytesAfterLead v = bytesAfterLead w ∧
        v / 64 ^ bytesAfterLead v = w / 64 ^ bytesAfterLead w := by
  by_cases hmore : bytesAfterLead v = bytesAfterLead w
  · have hle : v / 64 ^ bytesAfterLead w ≤ w / 64 ^ bytesAfterLead w :=
      Nat.div_le_div_right (Nat.le_of_lt h)
    rw [leadNumber, leadNumber, hmore]
    omega
  · refine Or.inl ?_
    unfold leadNumber
    unfold bytesAfterLead at hmore ⊢
    split_ifs at hmore ⊢ <;> simp only [leadMark] <;> omega

theorem leadNumber_lt {v : Nat} (hv : v < 0x110000) : leadNumber v < 256 := by
  unfold leadNumber bytesAfterLead
  split_ifs <;> simp only [leadMark] <;> omega

theorem utf8EncodeChar_lt {c d : Char} (h : c < d) (xs ys : List UInt8) :
    String.utf8EncodeChar c ++ xs < String.utf8EncodeChar d ++ ys := by
  have hvalid : d.val.toNat < 0xD800 ∨ 0xDFFF < d.val.toNat ∧ d.val.toNat < 0x110000 := d.valid
  have hlt : c.val.toNat < d.val.toNat := h
  rw [utf8EncodeChar_eq, utf8EncodeChar_eq, List.cons_append, List.cons_append,
    List.cons_lt_cons_iff]
  rcases leadNumber_le hlt (by omega) with hlead | ⟨hmore, hhigh⟩
  · exact Or.inl (ofNat_lt_ofNat hlead (leadNumber_lt (by omega)))
  · refine Or.inr ⟨by rw [leadNumber, leadNumber, hhigh, hmore], ?_⟩
    rw [← hmore] at hhigh ⊢
    exact sixBitGroups_lt hhigh hlt xs ys

theorem flatMap_utf8EncodeChar_lt {cs ds : List Char} (h : cs < ds) :
    cs.flatMap String.utf8EncodeChar < ds.flatMap String.utf8EncodeChar := by
  induction cs generalizing ds with
  | nil =>
      cases ds with
      | nil => exact absurd h (List.lt_irrefl [])
      | cons d ds =>
          rw [List.flatMap_nil, List.flatMap_cons, utf8EncodeChar_eq]
          exact List.nil_lt_cons _ _
  | cons c cs ih =>
      cases ds with
      | nil => exact absurd h (List.not_lt_nil _)
      | cons d ds =>
          rw [List.flatMap_cons, List.flatMap_cons]
          rcases List.cons_lt_cons_iff.1 h with hlt | ⟨rfl, hlt⟩
          · exact utf8EncodeChar_lt hlt _ _
          · exact List.append_left_lt (ih hlt)

/-- A text that comes first comes first by its bytes. -/
theorem utf8_lt_utf8 {s t : String} (h : s < t) : utf8 s < utf8 t := by
  rw [utf8_eq_flatMap, utf8_eq_flatMap]
  exact flatMap_utf8EncodeChar_lt (String.lt_iff.1 h)

end Tradebook.Text
