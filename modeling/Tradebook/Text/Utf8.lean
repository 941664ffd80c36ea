/-!
# UTF-8

Texts as bytes, and bytes as text where the sender may have sent anything. Each
longest piece that could have begun a character but does not finish it is read
as one replacement character, so a reader never fails.
-/

namespace Tradebook.Text

/-- The UTF-8 bytes of a text. -/
def utf8 (s : String) : List UInt8 :=
  s.toUTF8.toList

/-- Stands for bytes that are no text. -/
def replacement : Char :=
  Char.ofNat 0xFFFD

/-- What a first byte promises: the bounds of the second byte and the number of bytes after
it. -/
structure Utf8Lead where
  low : Nat
  high : Nat
  more : Nat

/-- The promise of a first byte; none where no sequence of several bytes begins so. -/
def utf8Lead? (b : Nat) : Option Utf8Lead :=
  if 0xC2 ≤ b ∧ b ≤ 0xDF then some ⟨0x80, 0xBF, 0⟩
  else if b = 0xE0 then some ⟨0xA0, 0xBF, 1⟩
  else if b = 0xED then some ⟨0x80, 0x9F, 1⟩
  else if 0xE1 ≤ b ∧ b ≤ 0xEF then some ⟨0x80, 0xBF, 1⟩
  else if b = 0xF0 then some ⟨0x90, 0xBF, 2⟩
  else if 0xF1 ≤ b ∧ b ≤ 0xF3 then some ⟨0x80, 0xBF, 2⟩
  else if b = 0xF4 then some ⟨0x80, 0x8F, 2⟩
  else none

/-- Reads up to `more` continuation bytes; false where one is missing. -/
def utf8Tail : Nat → Nat → List UInt8 → Bool × Nat × List UInt8
  | 0, code, rest => (true, code, rest)
  | _ + 1, code, [] => (false, code, [])
  | more + 1, code, b :: rest =>
    if 0x80 ≤ b.toNat ∧ b.toNat ≤ 0xBF then utf8Tail more (64 * code + (b.toNat - 0x80)) rest
    else (false, code, b :: rest)

theorem length_utf8Tail_le (more code : Nat) (bytes : List UInt8) :
    (utf8Tail more code bytes).2.2.length ≤ bytes.length := by
  fun_induction utf8Tail more code bytes <;> grind

/-- The payload bits of a first byte. -/
def utf8LeadBits (b more : Nat) : Nat :=
  if more = 0 then b % 32 else if more = 1 then b % 16 else b % 8

/-- Reads bytes as text, replacing what is none. -/
def decodeLossy : List UInt8 → List Char
  | [] => []
  | b :: rest =>
    if b.toNat < 0x80 then Char.ofNat b.toNat :: decodeLossy rest
    else
      match utf8Lead? b.toNat with
      | none => replacement :: decodeLossy rest
      | some lead =>
        match rest with
        | [] => [replacement]
        | c :: more =>
          if lead.low ≤ c.toNat ∧ c.toNat ≤ lead.high then
            let code := 64 * utf8LeadBits b.toNat lead.more + (c.toNat - 0x80)
            match h : utf8Tail lead.more code more with
            | (whole, value, left) =>
              have : left.length ≤ more.length := by
                have := length_utf8Tail_le lead.more code more
                rw [h] at this
                exact this
              (if whole then Char.ofNat value else replacement) :: decodeLossy left
          else replacement :: decodeLossy (c :: more)
termination_by bytes => bytes.length
decreasing_by all_goals simp_wf; try omega

end Tradebook.Text
