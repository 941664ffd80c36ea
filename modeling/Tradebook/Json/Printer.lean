import Tradebook.Json
import Tradebook.Text.Digits
import Tradebook.Text.Hex

/-!
# JSON text

The compact form: no blanks, members in their order, and in a text only the
quotation mark, the backslash and the control characters escaped.
-/

namespace Tradebook.Json

open Tradebook.Text

/-- Four hexadecimal digits. -/
def fourHexDigits (n : Nat) : List Char :=
  let digits := hexDigits n
  List.replicate (4 - digits.length) '0' ++ digits

/-- One character of a text. -/
def escapedChar (c : Char) : List Char :=
  if c = '"' then ['\\', '"']
  else if c = '\\' then ['\\', '\\']
  else if c = '\n' then ['\\', 'n']
  else if c = '\r' then ['\\', 'r']
  else if c = '\t' then ['\\', 't']
  else if c.toNat = 8 then ['\\', 'b']
  else if c.toNat = 12 then ['\\', 'f']
  else if c.toNat < 32 then '\\' :: 'u' :: fourHexDigits c.toNat
  else [c]

/-- A text between quotation marks. Half of a surrogate pair stands for all that cannot be
written. -/
def stringChars : Option String → List Char
  | some s => '"' :: s.toList.flatMap escapedChar ++ ['"']
  | none => ['"', '\\', 'u', 'd', '8', '0', '0', '"']

/-- A number with all its digits. -/
def numberChars (n : JsonNumber) : List Char :=
  (if n.negative then ['-'] else []) ++ decimalDigits n.whole ++
    (if n.fraction = [] then [] else '.' :: n.fraction) ++
    match n.exponent with
    | none => []
    | some e => 'e' :: (intText e).toList

mutual

/-- A value as text. -/
def chars : Json → List Char
  | null => ['n', 'u', 'l', 'l']
  | bool true => ['t', 'r', 'u', 'e']
  | bool false => ['f', 'a', 'l', 's', 'e']
  | number n => numberChars n
  | string s => stringChars s
  | array [] => ['[', ']']
  | array (item :: items) => '[' :: chars item ++ itemChars items
  | object [] => [Char.ofNat 123, Char.ofNat 125]
  | object ((name, value) :: members) =>
    Char.ofNat 123 :: stringChars name ++ ':' :: chars value ++ memberChars members

/-- The items after the first one, and the end of the array. -/
def itemChars : List Json → List Char
  | [] => [']']
  | item :: items => ',' :: chars item ++ itemChars items

/-- The members after the first one, and the end of the object. -/
def memberChars : List (Option String × Json) → List Char
  | [] => [Char.ofNat 125]
  | (name, value) :: members =>
    ',' :: stringChars name ++ ':' :: chars value ++ memberChars members

end

/-- A value as text. -/
def compact (v : Json) : String :=
  .ofList v.chars

end Tradebook.Json
