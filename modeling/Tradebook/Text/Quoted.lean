import Tradebook.Text.ExtendTable
import Tradebook.Text.Hex
import Tradebook.Text.VisibleTable

/-!
# Quoted text in messages

A message that repeats foreign text puts it between quotation marks and writes
what would not show, or would change how its neighbours show, as an escape. So
the reader sees every character that was there.
-/

namespace Tradebook.Text

/-- Whether the character lies in one of the closed ranges. -/
def inRanges (ranges : List (Nat × Nat)) (c : Char) : Bool :=
  ranges.any fun r => r.1 ≤ c.toNat && c.toNat ≤ r.2

/-- The escape that names a code point. -/
def codeEscape (c : Char) : List Char :=
  ['\\', 'u', '{'] ++ hexDigits c.toNat ++ ['}']

/-- One character between quotation marks: the quotation mark, the backslash and what does not
show are escaped. -/
def quotedChar (c : Char) : List Char :=
  if c = '"' then ['\\', '"']
  else if c = '\\' then ['\\', '\\']
  else if c = '\t' then ['\\', 't']
  else if c = '\n' then ['\\', 'n']
  else if c = '\r' then ['\\', 'r']
  else if c.toNat = 0 then ['\\', '0']
  else if ' ' ≤ c ∧ c ≤ '~' then [c]
  else if inRanges extendRanges c || !inRanges visibleRanges c then codeEscape c
  else [c]

/-- The text between quotation marks. -/
def quoted (s : String) : String :=
  .ofList ('"' :: s.toList.flatMap quotedChar ++ ['"'])

end Tradebook.Text
