import Mathlib.Data.List.Basic
import Tradebook.Text.Utf8

/-!
# Texts survive the wire

The reader of bytes never fails, and it guesses nothing where there is a text: the bytes of
a text are read as that text (`decodeLossy_utf8`).

A character has one to four bytes, and the first one says how many. The reader is stricter
than that about the second byte, so as to refuse what has a shorter form, halves of
surrogate pairs and numbers that are too large. No character has such a form, and this is
where it matters that the number of a character is none of a surrogate.
-/

namespace Tradebook.Text

theorem toList_loop (bytes : ByteArray) (i : Nat) (done : List UInt8) :
    ByteArray.toList.loop bytes i done = done.reverse ++ bytes.data.toList.drop i := by
  induction i, done using ByteArray.toList.loop.induct bytes with
  | case1 i done hi ih =>
      have hbyte : bytes.get! i = bytes.data.toList[i] := by
        rw [Array.getElem_toList]
        exact getElem!_pos bytes.data i hi
      rw [ByteArray.toList.loop, if_pos hi, ih, hbyte, List.reverse_cons, List.append_assoc,
        List.singleton_append, ← List.drop_eq_getElem_cons]
  | case2 i done hi =>
      rw [ByteArray.toList.loop, if_neg hi,
        List.drop_of_length_le (by rw [Array.length_toList]; exact Nat.not_lt.1 hi),
        List.append_nil]

theorem toList_eq (bytes : ByteArray) : bytes.toList = bytes.data.toList := by
  rw [ByteArray.toList, toList_loop]
  rfl

/-- The bytes of a text are those of its characters, one after the other. -/
theorem utf8_eq_flatMap (s : String) : utf8 s = s.toList.flatMap String.utf8EncodeChar := by
  obtain ⟨cs, rfl⟩ : ∃ cs, s = .ofList cs := ⟨s.toList, String.ofList_toList.symm⟩
  rw [utf8, String.toUTF8_eq_toByteArray, String.toByteArray_ofList, List.utf8Encode, toList_eq,
    List.data_toByteArray, String.toList_ofList]

/-- A first byte and a second one in its bounds, and what the others make of them. -/
theorem decodeLossy_lead {b c : UInt8} {first second value : Nat} {more rest : List UInt8}
    {lead : Utf8Lead} (hb : b.toNat = first) (hc : c.toNat = second) (hfirst : 0x80 ≤ first)
    (hlead : utf8Lead? first = some lead) (hbounds : lead.low ≤ second ∧ second ≤ lead.high)
    (htail : utf8Tail lead.more (64 * utf8LeadBits first lead.more + (second - 0x80)) more =
      (true, value, rest)) :
    decodeLossy (b :: c :: more) = Char.ofNat value :: decodeLossy rest := by
  subst hb hc
  rw [decodeLossy, if_neg (Nat.not_lt.2 hfirst)]
  simp only [hlead, if_pos hbounds, htail]
  rfl

theorem utf8Tail_cons {b : UInt8} {low : Nat} (hb : b.toNat = 0x80 + low) (hlow : low < 64)
    (more code : Nat) (rest : List UInt8) :
    utf8Tail (more + 1) code (b :: rest) = utf8Tail more (64 * code + low) rest := by
  rw [utf8Tail, if_pos (by omega), hb, Nat.add_sub_cancel_left]

theorem toNat_ofNat {n : Nat} (h : n < 256) : (UInt8.ofNat n).toNat = n := by
  rw [UInt8.toNat_ofNat']
  exact Nat.mod_eq_of_lt h

/-- The first two of three bytes. No number below 2048 has three, and none of a surrogate. -/
theorem utf8Lead?_three {high middle : Nat} (hhigh : high < 16) (hmiddle : middle < 64)
    (hlong : 32 ≤ 64 * high + middle)
    (hvalid : 64 * high + middle < 0x360 ∨ 0x37F < 64 * high + middle) :
    ∃ lead, utf8Lead? (224 + high) = some lead ∧ lead.more = 1 ∧
      lead.low ≤ 0x80 + middle ∧ 0x80 + middle ≤ lead.high := by
  unfold utf8Lead?
  rw [if_neg (by omega)]
  split_ifs with hleast hsurrogate hother
  · exact ⟨_, rfl, rfl, by dsimp only; omega⟩
  · exact ⟨_, rfl, rfl, by dsimp only; omega⟩
  · exact ⟨_, rfl, rfl, by dsimp only; omega⟩
  all_goals omega

/-- The first two of four bytes. No number below 65536 has four, and the largest is 1114111. -/
theorem utf8Lead?_four {high middle : Nat} (hmiddle : middle < 64)
    (hlong : 16 ≤ 64 * high + middle) (hvalid : 64 * high + middle < 0x110) :
    ∃ lead, utf8Lead? (240 + high) = some lead ∧ lead.more = 2 ∧
      lead.low ≤ 0x80 + middle ∧ 0x80 + middle ≤ lead.high := by
  unfold utf8Lead?
  rw [if_neg (by omega), if_neg (by omega), if_neg (by omega), if_neg (by omega)]
  split_ifs with hleast hother hgreatest
  · exact ⟨_, rfl, rfl, by dsimp only; omega⟩
  · exact ⟨_, rfl, rfl, by dsimp only; omega⟩
  · exact ⟨_, rfl, rfl, by dsimp only; omega⟩
  · omega

theorem decodeLossy_utf8EncodeChar (c : Char) (rest : List UInt8) :
    decodeLossy (String.utf8EncodeChar c ++ rest) = c :: decodeLossy rest := by
  have hvalid : c.val.toNat < 0xD800 ∨ 0xDFFF < c.val.toNat ∧ c.val.toNat < 0x110000 := c.valid
  have hchar : Char.ofNat c.val.toNat = c := Char.ofNat_toNat c
  rw [String.utf8EncodeChar]
  generalize c.val.toNat = v at hvalid hchar
  have hnext : ∀ n, (UInt8.ofNat (n % 64 + 128)).toNat = 0x80 + n % 64 := by
    intro n
    rw [toNat_ofNat (by omega), Nat.add_comm]
  split_ifs with hone htwo hthree
  · have hbyte := toNat_ofNat (show v < 256 by omega)
    rw [List.singleton_append, decodeLossy, if_pos (by omega), hbyte, hchar]
  · have hfirst : (UInt8.ofNat (v / 64 % 32 + 192)).toNat = 192 + v / 64 := by
      rw [toNat_ofNat (by omega)]
      omega
    have hlead : utf8Lead? (192 + v / 64) = some ⟨0x80, 0xBF, 0⟩ := by
      rw [utf8Lead?, if_pos (by omega)]
    have hvalue : 64 * utf8LeadBits (192 + v / 64) 0 + (0x80 + v % 64 - 0x80) = v := by
      change 64 * ((192 + v / 64) % 32) + _ = v
      omega
    have htail : utf8Tail 0 (64 * utf8LeadBits (192 + v / 64) 0 + (0x80 + v % 64 - 0x80)) rest =
        (true, v, rest) := by
      rw [hvalue, utf8Tail]
    have hread := decodeLossy_lead hfirst (hnext v) (by omega) hlead (by dsimp only; omega) htail
    rw [List.cons_append, List.cons_append, List.nil_append, hread, hchar]
  · have hfirst : (UInt8.ofNat (v / 4096 % 16 + 224)).toNat = 224 + v / 4096 := by
      rw [toNat_ofNat (by omega)]
      omega
    obtain ⟨lead, hlead, hmore, hbounds⟩ := utf8Lead?_three
      (show v / 4096 < 16 by omega) (show v / 64 % 64 < 64 by omega) (by omega) (by omega)
    have hvalue : 64 * (64 * utf8LeadBits (224 + v / 4096) 1 + (0x80 + v / 64 % 64 - 0x80)) +
        v % 64 = v := by
      change 64 * (64 * ((224 + v / 4096) % 16) + _) + _ = v
      omega
    have hread := decodeLossy_lead hfirst (hnext (v / 64)) (by omega) hlead hbounds
      (by rw [hmore, utf8Tail_cons (hnext v) (by omega) 0 _ rest, hvalue, utf8Tail])
    rw [List.cons_append, List.cons_append, List.cons_append, List.nil_append, hread, hchar]
  · have hfirst : (UInt8.ofNat (v / 262144 % 8 + 240)).toNat = 240 + v / 262144 := by
      rw [toNat_ofNat (by omega)]
      omega
    obtain ⟨lead, hlead, hmore, hbounds⟩ := utf8Lead?_four (show v / 4096 % 64 < 64 by omega)
      (show 16 ≤ 64 * (v / 262144) + v / 4096 % 64 by omega) (by omega)
    have hvalue : 64 * (64 * (64 * utf8LeadBits (240 + v / 262144) 2 +
        (0x80 + v / 4096 % 64 - 0x80)) + v / 64 % 64) + v % 64 = v := by
      change 64 * (64 * (64 * ((240 + v / 262144) % 8) + _) + _) + _ = v
      omega
    have hread := decodeLossy_lead hfirst (hnext (v / 4096)) (by omega) hlead hbounds
      (by rw [hmore, utf8Tail_cons (hnext (v / 64)) (by omega) 1,
        utf8Tail_cons (hnext v) (by omega) 0 _ rest, hvalue, utf8Tail])
    rw [List.cons_append, List.cons_append, List.cons_append, List.cons_append, List.nil_append,
      hread, hchar]

/-- A text that is sent is read. -/
theorem decodeLossy_utf8 (s : String) : decodeLossy (utf8 s) = s.toList := by
  rw [utf8_eq_flatMap]
  induction s.toList with
  | nil => rw [List.flatMap_nil, decodeLossy]
  | cons c cs ih => rw [List.flatMap_cons, decodeLossy_utf8EncodeChar, ih]

end Tradebook.Text
