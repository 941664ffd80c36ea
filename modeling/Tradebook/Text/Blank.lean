/-!
# Blank characters

Every text a person types in (a symbol, a side, an id, a date) is trimmed before
it is read. What counts as blank is the Unicode property White_Space, which is
larger than the ASCII blanks and smaller than "looks empty": the zero-width
space is not in it.
-/

namespace Tradebook.Text

/-- The characters with the Unicode property White_Space. -/
def isBlank (c : Char) : Bool :=
  let n := c.toNat
  (9 ≤ n && n ≤ 13) || n == 32 || n == 133 || n == 160 || n == 5760 ||
    (8192 ≤ n && n ≤ 8202) || n == 8232 || n == 8233 || n == 8239 || n == 8287 || n == 12288

/-- Drops the blanks in front. -/
def trimLeft (cs : List Char) : List Char :=
  cs.dropWhile isBlank

/-- Drops the blanks at the end. -/
def trimRight (cs : List Char) : List Char :=
  (cs.reverse.dropWhile isBlank).reverse

/-- Drops the blanks at both ends; blanks inside stay. -/
def trim (s : String) : String :=
  .ofList (trimRight (trimLeft s.toList))

/-- Only the twenty-six ASCII capitals have a small form here. -/
def asciiLower (s : String) : String :=
  .ofList (s.toList.map Char.toLower)

/-- Whether `part` stands somewhere in `text`. -/
def contains (part text : List Char) : Bool :=
  part.isPrefixOf text ||
    match text with
    | [] => false
    | _ :: rest => contains part rest

end Tradebook.Text
