import Mathlib.Data.List.Basic
import Tradebook.Json.Parser
import Tradebook.Json.Printer
import Tradebook.Proofs.DigitText

/-!
# JSON text is read back

What the printer writes the parser reads, as the value that it was: `parse_compact`.
All values are meant, half of a surrogate pair included, with one proviso (`Written`):
what stands behind the point of a number are digits.

A value does not tell where it ends, so the lemmas are about a value with more text
behind it, text that could not belong to a number (`Closes`). The parser counts steps.
It needs fewer than two for each character, and the lemmas on the items of an array and
the members of an object ask for values to be read with any fewer (`ReadsBack`).
-/

namespace Tradebook

namespace Text

theorem hexValue?_hexChar : ∀ d, d < 16 → hexValue? (hexChar d) = some d := by
  decide

end Text

namespace Json

open Tradebook.Text

/-! ## Texts -/

theorem readCode_fourHexDigits {n : Nat} (h : n < 32) (rest : List Char) :
    readCode (fourHexDigits n ++ rest) = some (n, rest) := by
  have hdigits : fourHexDigits n = ['0', '0', hexChar (n / 16), hexChar (n % 16)] := by
    unfold fourHexDigits
    rw [hexDigits]
    split
    · next hsmall =>
        have hzero : n / 16 = 0 := by omega
        rw [hzero, Nat.mod_eq_of_lt hsmall]
        rfl
    · next hlarge =>
        rw [hexDigits, if_pos (by omega)]
        rfl
  rw [hdigits]
  have hhigh := hexValue?_hexChar (n / 16) (by omega)
  have hlow := hexValue?_hexChar (n % 16) (by omega)
  have hzero : hexValue? '0' = some 0 := by decide
  have hsum : 16 * (n / 16) + n % 16 = n := by omega
  simp [readCode, ofHexDigits?, hzero, hhigh, hlow, hsum]

theorem readString_escapedChar (c : Char) (fuel : Nat) (done : List Char) (whole : Bool)
    (rest : List Char) :
    readString (fuel + 1) done whole (escapedChar c ++ rest) =
      readString fuel (c :: done) whole rest := by
  unfold escapedChar
  split_ifs with hmark hslash hline hreturn htab hback hfeed hcontrol
  · subst hmark
    simp [readString]
  · subst hslash
    simp [readString]
  · subst hline
    simp [readString]
  · subst hreturn
    simp [readString]
  · subst htab
    simp [readString]
  · obtain rfl : c = Char.ofNat 8 := by rw [← hback, Char.ofNat_toNat]
    simp [readString]
  · obtain rfl : c = Char.ofNat 12 := by rw [← hfeed, Char.ofNat_toNat]
    simp [readString]
  · have hhigh : ¬ (0xD800 ≤ c.toNat ∧ c.toNat ≤ 0xDBFF) := by omega
    have hlow : ¬ (0xDC00 ≤ c.toNat ∧ c.toNat ≤ 0xDFFF) := by omega
    rw [List.cons_append, List.cons_append, readString]
    simp [readCode_fourHexDigits hcontrol, hhigh, hlow]
  · rw [List.singleton_append, readString.eq_def]
    simp only [if_neg hmark, if_neg hcontrol, if_pos hslash]

theorem readString_flatMap (cs : List Char) {fuel : Nat} (hfuel : cs.length < fuel)
    (done : List Char) (whole : Bool) (rest : List Char) :
    readString fuel done whole (cs.flatMap escapedChar ++ '"' :: rest) =
      some (if whole then some (.ofList (done.reverse ++ cs)) else none, rest) := by
  induction cs generalizing fuel done with
  | nil =>
      obtain ⟨fuel, rfl⟩ := Nat.exists_eq_succ_of_ne_zero (Nat.ne_of_gt hfuel)
      simp [readString]
  | cons c cs ih =>
      obtain ⟨fuel, rfl⟩ := Nat.exists_eq_succ_of_ne_zero (Nat.ne_of_gt (Nat.zero_lt_of_lt hfuel))
      rw [List.flatMap_cons, List.append_assoc, readString_escapedChar,
        ih (by simpa using hfuel), List.reverse_cons, List.append_assoc, List.singleton_append]

theorem length_le_length_flatMap_escapedChar (cs : List Char) :
    cs.length ≤ (cs.flatMap escapedChar).length := by
  induction cs with
  | nil => simp
  | cons c cs ih =>
      have hone : 1 ≤ (escapedChar c).length := by
        unfold escapedChar
        split_ifs <;> simp
      rw [List.flatMap_cons, List.length_append, List.length_cons]
      omega

theorem readText_stringChars (s : Option String) (rest : List Char) :
    readText (stringChars s ++ rest) = some (s, rest) := by
  cases s with
  | none => rfl
  | some s =>
      have hfuel : s.toList.length <
          (s.toList.flatMap escapedChar ++ '"' :: rest).length + 1 := by
        have := length_le_length_flatMap_escapedChar s.toList
        rw [List.length_append]
        omega
      simp only [stringChars, List.cons_append, List.append_assoc, List.nil_append, readText]
      rw [readString_flatMap s.toList hfuel]
      simp

/-! ## Numbers -/

/-- Text that ends a value: nothing, or what stands behind an item or a member. -/
def Closes (rest : List Char) : Prop :=
  ∀ c ∈ rest.head?, c = ',' ∨ c = ']' ∨ c = Char.ofNat 125

theorem closes_cons {c : Char} (h : c = ',' ∨ c = ']' ∨ c = Char.ofNat 125) (rest : List Char) :
    Closes (c :: rest) := by
  intro d hd
  obtain rfl : c = d := by simpa using hd
  exact h

theorem Closes.head?_isDigit {rest : List Char} (h : Closes rest) :
    ∀ c ∈ rest.head?, c.isDigit = false := by
  intro c hc
  rcases h c hc with rfl | rfl | rfl <;> decide

/-- The sign, or none, and the digits behind an `e`. -/
theorem readPower_intText (e : Int) {rest : List Char} (h : ∀ c ∈ rest.head?, c.isDigit = false) :
    readPower ((intText e).toList ++ rest) = some (e, rest) := by
  have hspan := fun n => spanDigits_append (isDigit_of_mem_decimalDigits n) h
  cases e with
  | ofNat n =>
      obtain ⟨d, ds, hds⟩ := List.exists_cons_of_ne_nil (decimalDigits_ne_nil n)
      have hd : d.isDigit = true := isDigit_of_mem_decimalDigits n d (by simp [hds])
      have hminus : d ≠ '-' := isDigit_ne hd (by decide)
      have hplus : d ≠ '+' := isDigit_ne hd (by decide)
      have hread := hspan n
      have hvalue := ofDigits_decimalDigits n
      rw [hds] at hread hvalue
      rw [List.cons_append] at hread
      simp [readPower, intText, natText, hds, hminus, hplus, hread, hvalue]
  | negSucc n =>
      obtain ⟨d, ds, hds⟩ := List.exists_cons_of_ne_nil (decimalDigits_ne_nil (n + 1))
      have hread := hspan (n + 1)
      have hvalue := ofDigits_decimalDigits (n + 1)
      rw [hds] at hread hvalue
      rw [List.cons_append] at hread
      simp only [readPower, intText, natText, hds, String.toList_append, String.toList_ofList]
      simp [hread, hvalue]
      omega

/-- The end of a number, from its exponent on. -/
def exponentChars : Option Int → List Char
  | none => []
  | some e => 'e' :: (intText e).toList

theorem readExponent_exponentChars (e : Option Int) {rest : List Char} (h : Closes rest) :
    readExponent (exponentChars e ++ rest) = some (e, rest) := by
  cases e with
  | some e => simp [exponentChars, readExponent, readPower_intText e h.head?_isDigit]
  | none =>
      cases rest with
      | nil => rfl
      | cons c rest =>
          rcases h c rfl with rfl | rfl | rfl
          all_goals rfl

theorem head?_exponentChars (e : Option Int) {rest : List Char} (h : Closes rest) :
    ∀ c ∈ (exponentChars e ++ rest).head?, c.isDigit = false ∧ c ≠ '.' := by
  intro c hc
  cases e with
  | some e =>
      obtain rfl : 'e' = c := by simpa [exponentChars] using hc
      decide
  | none =>
      rcases h c hc with rfl | rfl | rfl
      all_goals decide

/-- What stands behind the digits before the point. -/
def fractionChars (fraction : List Char) : List Char :=
  if fraction = [] then [] else '.' :: fraction

theorem readFraction_fractionChars {fraction : List Char}
    (hdigits : ∀ c ∈ fraction, c.isDigit = true) {rest : List Char}
    (h : ∀ c ∈ rest.head?, c.isDigit = false ∧ c ≠ '.') :
    readFraction (fractionChars fraction ++ rest) = some (fraction, rest) := by
  unfold fractionChars
  split
  · next hnone =>
      subst hnone
      cases rest with
      | nil => rfl
      | cons c rest =>
          have hc : c ≠ '.' := (h c rfl).2
          simp [readFraction, hc]
  · next hsome =>
      have hread := spanDigits_append hdigits fun c hc => (h c hc).1
      simp [readFraction, hread, hsome]

theorem numberChars_eq (n : JsonNumber) :
    numberChars n = (if n.negative then ['-'] else []) ++
      (decimalDigits n.whole ++ (fractionChars n.fraction ++ exponentChars n.exponent)) := by
  unfold numberChars fractionChars
  rw [List.append_assoc, List.append_assoc]
  cases n.exponent <;> rfl

/-- Nothing stands behind a zero in front. -/
theorem decimalDigits_leading {n : Nat} {d : Char} {ds : List Char}
    (h : decimalDigits n = d :: ds) (hzero : d = '0') : ds = [] := by
  have hhead : (decimalDigits n).head? = some '0' := by rw [h, hzero, List.head?_cons]
  obtain rfl := eq_zero_of_head?_decimalDigits n hhead
  have hone := length_decimalDigits_le 0 (show 0 < 10 ^ (0 + 1) by decide)
  rw [h, List.length_cons] at hone
  exact List.eq_nil_of_length_eq_zero (by omega)

theorem numberChars_head (n : JsonNumber) :
    ∃ c cs, numberChars n = c :: cs ∧ (c = '-' ∨ c.isDigit = true) := by
  obtain ⟨d, ds, hds⟩ := List.exists_cons_of_ne_nil (decimalDigits_ne_nil n.whole)
  have hd : d.isDigit = true := isDigit_of_mem_decimalDigits n.whole d (by simp [hds])
  rw [numberChars_eq, hds]
  cases n.negative with
  | true => exact ⟨_, _, rfl, Or.inl rfl⟩
  | false => exact ⟨_, _, rfl, Or.inr hd⟩

theorem ne_of_minus_or_digit {c d : Char} (hc : c = '-' ∨ c.isDigit = true) (hminus : '-' ≠ d)
    (hdigit : d.isDigit = false) : c ≠ d := by
  rcases hc with rfl | hc
  · exact hminus
  · exact isDigit_ne hc hdigit

theorem readNumber_numberChars {n : JsonNumber} (hdigits : ∀ c ∈ n.fraction, c.isDigit = true)
    {rest : List Char} (h : Closes rest) :
    readNumber (numberChars n ++ rest) = some (n, rest) := by
  obtain ⟨negative, whole, fraction, exponent⟩ := n
  let tail := fractionChars fraction ++ (exponentChars exponent ++ rest)
  have htail : ∀ c ∈ tail.head?, c.isDigit = false := by
    intro c hc
    by_cases hnone : fraction = []
    · have hexponent : tail = exponentChars exponent ++ rest := by
        simp [tail, fractionChars, hnone]
      rw [hexponent] at hc
      exact (head?_exponentChars exponent h c hc).1
    · obtain rfl : '.' = c := by simpa [tail, fractionChars, hnone] using hc
      decide
  have hspan := spanDigits_append (isDigit_of_mem_decimalDigits whole) htail
  have hfraction : readFraction tail = some (fraction, exponentChars exponent ++ rest) :=
    readFraction_fractionChars hdigits (head?_exponentChars exponent h)
  have hexponent := readExponent_exponentChars exponent h
  have hvalue := ofDigits_decimalDigits whole
  have hchars : numberChars ⟨negative, whole, fraction, exponent⟩ ++ rest =
      (if negative then ['-'] else []) ++ (decimalDigits whole ++ tail) := by
    rw [numberChars_eq]
    simp only [List.append_assoc, tail]
  rw [hchars]
  obtain ⟨d, ds, hds⟩ := List.exists_cons_of_ne_nil (decimalDigits_ne_nil whole)
  have hd : d.isDigit = true := isDigit_of_mem_decimalDigits whole d (by simp [hds])
  have hminus : d ≠ '-' := isDigit_ne hd (by decide)
  rw [hds] at hspan hvalue ⊢
  rw [List.cons_append] at hspan ⊢
  unfold readNumber
  cases negative with
  | true => simpa [hspan, hfraction, hexponent, hvalue] using decimalDigits_leading hds
  | false => simpa [hminus, hspan, hfraction, hexponent, hvalue] using decimalDigits_leading hds

/-! ## Values -/

/-- A value whose numbers have digits behind their points and nothing else. -/
inductive Written : Json → Prop
  | null : Written null
  | bool (b : Bool) : Written (bool b)
  | number {n : JsonNumber} (hdigits : ∀ c ∈ n.fraction, c.isDigit = true) : Written (number n)
  | string (s : Option String) : Written (string s)
  | array {items : List Json} (hitems : ∀ item ∈ items, Written item) : Written (array items)
  | object {members : List (Option String × Json)}
      (hmembers : ∀ name value, (name, value) ∈ members → Written value) :
      Written (object members)

/-- With so many steps every value that is short enough is read back. -/
def ReadsBack (fuel : Nat) : Prop :=
  ∀ v rest, Written v → Closes rest → 2 * v.chars.length ≤ fuel + 1 →
    readValue fuel (v.chars ++ rest) = some (v, rest)

theorem skipSpace_cons {c : Char} (h : isSpace c = false) (rest : List Char) :
    skipSpace (c :: rest) = c :: rest := by
  unfold skipSpace
  rw [List.dropWhile_cons_of_neg (by simp [h])]

/-- How a value begins, as far as the parser looks before it reads one. -/
theorem chars_head (v : Json) :
    ∃ c cs, v.chars = c :: cs ∧ isSpace c = false ∧ c ≠ ']' := by
  cases v with
  | null => exact ⟨_, _, rfl, by decide, by decide⟩
  | bool b => cases b <;> exact ⟨_, _, rfl, by decide, by decide⟩
  | number n =>
      obtain ⟨c, cs, hchars, hc⟩ := numberChars_head n
      refine ⟨c, cs, hchars, ?_, ne_of_minus_or_digit hc (by decide) (by decide)⟩
      simp [isSpace, ne_of_minus_or_digit hc (by decide : '-' ≠ ' ') (by decide),
        ne_of_minus_or_digit hc (by decide : '-' ≠ '\n') (by decide),
        ne_of_minus_or_digit hc (by decide : '-' ≠ '\r') (by decide),
        ne_of_minus_or_digit hc (by decide : '-' ≠ '\t') (by decide)]
  | string s =>
      cases s <;> exact ⟨_, _, by rw [chars]; rfl, by decide, by decide⟩
  | array items =>
      cases items with
      | nil => exact ⟨_, _, rfl, by decide, by decide⟩
      | cons item items => exact ⟨_, _, by rw [chars]; rfl, by decide, by decide⟩
  | object members =>
      cases members with
      | nil => exact ⟨_, _, rfl, by decide, by decide⟩
      | cons member members => exact ⟨_, _, by rw [chars]; rfl, by decide, by decide⟩

theorem skipSpace_chars (v : Json) (rest : List Char) :
    skipSpace (v.chars ++ rest) = v.chars ++ rest := by
  obtain ⟨c, cs, hchars, hspace, -⟩ := chars_head v
  rw [hchars, List.cons_append, skipSpace_cons hspace]

theorem stringChars_head (s : Option String) : ∃ cs, stringChars s = '"' :: cs := by
  cases s <;> exact ⟨_, rfl⟩

theorem skipSpace_stringChars (s : Option String) (rest : List Char) :
    skipSpace (stringChars s ++ rest) = stringChars s ++ rest := by
  obtain ⟨cs, hchars⟩ := stringChars_head s
  rw [hchars, List.cons_append, skipSpace_cons (by decide)]

theorem readColon_chars (v : Json) (rest : List Char) :
    readColon (':' :: (v.chars ++ rest)) = some (v.chars ++ rest) := by
  simp only [readColon, skipSpace_cons (show isSpace ':' = false by decide), skipSpace_chars]

theorem memberChars_cons (name : Option String) (value : Json)
    (members : List (Option String × Json)) :
    memberChars ((name, value) :: members) =
      ',' :: (stringChars name ++ ':' :: (value.chars ++ memberChars members)) := by
  rw [memberChars, List.append_assoc, List.cons_append, List.cons_append]

theorem readItems_chars {bound : Nat} (h : ∀ fuel, fuel < bound → ReadsBack fuel)
    (items : List Json) {item : Json} (hitem : Written item)
    (hitems : ∀ i ∈ items, Written i) {fuel : Nat} (hbound : fuel ≤ bound)
    (hfuel : 2 * (item.chars ++ itemChars items).length ≤ fuel) (done : List Json)
    (rest : List Char) :
    readItems fuel done (item.chars ++ (itemChars items ++ rest)) =
      some (array (done.reverse ++ item :: items), rest) := by
  induction items generalizing item fuel done with
  | nil =>
      rw [itemChars] at hfuel ⊢
      rw [List.length_append, List.length_singleton] at hfuel
      obtain ⟨fuel, rfl⟩ := Nat.exists_eq_succ_of_ne_zero (by omega : fuel ≠ 0)
      have hread := h fuel hbound item (']' :: rest) hitem (closes_cons (by simp) rest) (by omega)
      rw [List.singleton_append, readItems]
      simp [hread, skipSpace_cons (show isSpace ']' = false by decide)]
  | cons next items ih =>
      rw [itemChars] at hfuel ⊢
      rw [List.length_append, List.cons_append, List.length_cons] at hfuel
      obtain ⟨fuel, rfl⟩ := Nat.exists_eq_succ_of_ne_zero (by omega : fuel ≠ 0)
      have hread := h fuel hbound item (',' :: (next.chars ++ (itemChars items ++ rest))) hitem
        (closes_cons (by simp) _) (by omega)
      have hnext := ih (hitems next (by simp)) (fun i hi => hitems i (by simp [hi]))
        (Nat.le_of_succ_le hbound) (by omega) (item :: done)
      rw [List.cons_append, List.cons_append, List.append_assoc, readItems]
      simp only [hread, skipSpace_cons (show isSpace ',' = false by decide), skipSpace_chars, hnext]
      simp

theorem readMembers_chars {bound : Nat} (h : ∀ fuel, fuel < bound → ReadsBack fuel)
    (members : List (Option String × Json)) (name : Option String) {value : Json}
    (hvalue : Written value) (hmembers : ∀ name value, (name, value) ∈ members → Written value)
    {fuel : Nat} (hbound : fuel ≤ bound)
    (hfuel : 2 * (value.chars ++ memberChars members).length ≤ fuel)
    (done : List (Option String × Json)) (rest : List Char) :
    readMembers fuel done
        (stringChars name ++ ':' :: (value.chars ++ (memberChars members ++ rest))) =
      some (object (done.reverse ++ (name, value) :: members), rest) := by
  induction members generalizing name value fuel done with
  | nil =>
      rw [memberChars] at hfuel ⊢
      rw [List.length_append, List.length_singleton] at hfuel
      obtain ⟨fuel, rfl⟩ := Nat.exists_eq_succ_of_ne_zero (by omega : fuel ≠ 0)
      have hread := h fuel hbound value (Char.ofNat 125 :: rest) hvalue (closes_cons (by simp) rest)
        (by omega)
      rw [List.singleton_append, readMembers]
      simp [readText_stringChars, readColon_chars, hread,
        skipSpace_cons (show isSpace (Char.ofNat 125) = false by decide)]
  | cons member members ih =>
      obtain ⟨nextName, next⟩ := member
      rw [memberChars_cons] at hfuel ⊢
      rw [List.length_append, List.length_cons, List.length_append, List.length_cons] at hfuel
      obtain ⟨fuel, rfl⟩ := Nat.exists_eq_succ_of_ne_zero (by omega : fuel ≠ 0)
      have hread := h fuel hbound value
        (',' :: (stringChars nextName ++ ':' :: (next.chars ++ memberChars members)) ++ rest) hvalue
        (closes_cons (by simp) _) (by omega)
      have hnext := ih nextName (hmembers nextName next (by simp))
        (fun n v hv => hmembers n v (by simp [hv])) (Nat.le_of_succ_le hbound) (by omega)
        ((name, value) :: done)
      rw [readMembers]
      simp only [readText_stringChars, readColon_chars, hread]
      simp only [List.cons_append, List.append_assoc,
        skipSpace_cons (show isSpace ',' = false by decide), skipSpace_stringChars, hnext]
      simp

theorem readValue_number {n : JsonNumber} (hdigits : ∀ c ∈ n.fraction, c.isDigit = true)
    (fuel : Nat) {rest : List Char} (h : Closes rest) :
    readValue (fuel + 1) (numberChars n ++ rest) = some (number n, rest) := by
  have hread := readNumber_numberChars hdigits h
  obtain ⟨c, cs, hchars, hc⟩ := numberChars_head n
  rw [hchars, List.cons_append] at hread ⊢
  have hmark : c ≠ '"' := ne_of_minus_or_digit hc (by decide) (by decide)
  have hbracket : c ≠ '[' := ne_of_minus_or_digit hc (by decide) (by decide)
  have hbrace : c.toNat ≠ 123 := by
    intro heq
    exact ne_of_minus_or_digit hc (by decide : '-' ≠ Char.ofNat 123) (by decide)
      (by rw [← heq, Char.ofNat_toNat])
  have hnull : c ≠ 'n' := ne_of_minus_or_digit hc (by decide) (by decide)
  have htrue : c ≠ 't' := ne_of_minus_or_digit hc (by decide) (by decide)
  have hfalse : c ≠ 'f' := ne_of_minus_or_digit hc (by decide) (by decide)
  rw [readValue, if_neg hmark, if_neg hbracket, if_neg hbrace, if_neg hnull, if_neg htrue,
    if_neg hfalse, hread, Option.map_some]

theorem readValue_string (s : Option String) (fuel : Nat) (rest : List Char) :
    readValue (fuel + 1) (stringChars s ++ rest) = some (string s, rest) := by
  have hread := readText_stringChars s rest
  obtain ⟨cs, hchars⟩ := stringChars_head s
  rw [hchars, List.cons_append] at hread ⊢
  rw [readValue, if_pos rfl, hread, Option.map_some]

theorem readValue_array (item : Json) (items : List Json) (fuel : Nat) (rest : List Char) :
    readValue (fuel + 1) ((array (item :: items)).chars ++ rest) =
      readItems fuel [] (item.chars ++ (itemChars items ++ rest)) := by
  have hskip := skipSpace_chars item (itemChars items ++ rest)
  obtain ⟨c, cs, hchars, -, hbracket⟩ := chars_head item
  rw [chars, List.cons_append, List.cons_append, List.append_assoc, readValue]
  rw [hchars, List.cons_append] at hskip ⊢
  simp [hskip, hbracket]

theorem readValue_object (name : Option String) (value : Json)
    (members : List (Option String × Json)) (fuel : Nat) (rest : List Char) :
    readValue (fuel + 1) ((object ((name, value) :: members)).chars ++ rest) =
      readMembers fuel []
        (stringChars name ++ ':' :: (value.chars ++ (memberChars members ++ rest))) := by
  have hskip := skipSpace_stringChars name
    (':' :: (value.chars ++ (memberChars members ++ rest)))
  obtain ⟨cs, hname⟩ := stringChars_head name
  rw [chars, List.append_assoc, List.append_assoc, List.cons_append, List.cons_append, readValue]
  rw [hname, List.cons_append] at hskip ⊢
  simp [hskip]

/-- A value is read back whatever stands behind it, if that closes it. -/
theorem readsBack (fuel : Nat) : ReadsBack fuel := by
  induction fuel using Nat.strong_induction_on with
  | h fuel ih =>
      intro v rest hv hrest hfuel
      obtain ⟨c, cs, hchars, -, -⟩ := chars_head v
      have hfuel' : fuel ≠ 0 := by
        rw [hchars, List.length_cons] at hfuel
        omega
      obtain ⟨fuel, rfl⟩ := Nat.exists_eq_succ_of_ne_zero hfuel'
      have hbelow : ∀ f, f < fuel → ReadsBack f := fun f hf => ih f (Nat.lt_succ_of_lt hf)
      cases hv with
      | null => rfl
      | bool b => cases b <;> rfl
      | number hdigits => exact readValue_number hdigits fuel hrest
      | string s => exact readValue_string s fuel rest
      | @array items hitems =>
          cases items with
          | nil => rfl
          | cons item items =>
              rw [chars, List.cons_append, List.length_cons] at hfuel
              rw [readValue_array]
              exact readItems_chars hbelow items (hitems item (by simp))
                (fun i hi => hitems i (by simp [hi])) (le_refl fuel) (by omega) [] rest
      | @object members hmembers =>
          cases members with
          | nil => rfl
          | cons member members =>
              obtain ⟨name, value⟩ := member
              rw [chars, List.length_append, List.length_append, List.length_cons,
                List.length_cons] at hfuel
              rw [readValue_object]
              refine readMembers_chars hbelow members name (hmembers name value (by simp))
                (fun n v hv => hmembers n v (by simp [hv])) (le_refl fuel) ?_ [] rest
              rw [List.length_append]
              omega

/-- What is written is read back. -/
theorem parse_compact {v : Json} (h : Written v) : parse v.compact = some v := by
  have hread := readsBack (2 * v.chars.length + 2) v [] h (by simp [Closes]) (by omega)
  have hskip := skipSpace_chars v []
  rw [List.append_nil] at hread hskip
  unfold parse parseChars compact
  rw [String.toList_ofList, hskip, hread]
  rfl

end Json

end Tradebook
