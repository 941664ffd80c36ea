import Tradebook.Json
import Tradebook.Text.Digits
import Tradebook.Text.Hex

/-!
# Reading JSON text

The grammar of JSON and nothing besides: no comma too many, no number with a
leading zero or a bare point, no raw control character in a text. Values may be
nested to any depth, and numbers may have any size, since that is for the reader
of the value to judge.

Every function takes the characters that are left and returns those that it
leaves. A value takes at least one of them, so the number of characters bounds
the steps.
-/

namespace Tradebook.Json

open Tradebook.Text

/-- Whether blanks of this kind may stand between the parts of a value. -/
def isSpace (c : Char) : Bool :=
  c == ' ' || c == '\n' || c == '\r' || c == '\t'

/-- Drops the blanks in front. -/
def skipSpace (cs : List Char) : List Char :=
  cs.dropWhile isSpace

/-- The number that four hexadecimal digits denote. -/
def readCode : List Char → Option (Nat × List Char)
  | a :: b :: c :: d :: rest => (ofHexDigits? [a, b, c, d]).map (·, rest)
  | _ => none

/-- Takes an escape of the second half of a surrogate pair off, if one stands there. -/
def readSecondHalf : List Char → Option (Nat × List Char)
  | '\\' :: 'u' :: rest =>
    match readCode rest with
    | some (n, rest) => if 0xDC00 ≤ n ∧ n ≤ 0xDFFF then some (n, rest) else none
    | none => none
  | _ => none

/-- What is left of a text, from a place inside it: its characters up to the closing mark, none
where half of a surrogate pair is among them, and what follows the mark. The characters read so
far are kept in reverse. -/
def readString (fuel : Nat) (done : List Char) (whole : Bool) (cs : List Char) :
    Option (Option String × List Char) :=
  match fuel, cs with
  | fuel + 1, c :: rest =>
    if c = '"' then some (if whole then some (.ofList done.reverse) else none, rest)
    else if c.toNat < 32 then none
    else if c ≠ '\\' then readString fuel (c :: done) whole rest
    else
      match rest with
      | '"' :: rest => readString fuel ('"' :: done) whole rest
      | '\\' :: rest => readString fuel ('\\' :: done) whole rest
      | '/' :: rest => readString fuel ('/' :: done) whole rest
      | 'b' :: rest => readString fuel (Char.ofNat 8 :: done) whole rest
      | 'f' :: rest => readString fuel (Char.ofNat 12 :: done) whole rest
      | 'n' :: rest => readString fuel ('\n' :: done) whole rest
      | 'r' :: rest => readString fuel ('\r' :: done) whole rest
      | 't' :: rest => readString fuel ('\t' :: done) whole rest
      | 'u' :: rest =>
        match readCode rest with
        | none => none
        | some (n, rest) =>
          if 0xD800 ≤ n ∧ n ≤ 0xDBFF then
            match readSecondHalf rest with
            | some (m, rest) =>
              let c := Char.ofNat (0x10000 + (n - 0xD800) * 0x400 + (m - 0xDC00))
              readString fuel (c :: done) whole rest
            | none => readString fuel done false rest
          else if 0xDC00 ≤ n ∧ n ≤ 0xDFFF then readString fuel done false rest
          else readString fuel (Char.ofNat n :: done) whole rest
      | _ => none
  | _, _ => none

/-- A text, from its opening mark on. -/
def readText : List Char → Option (Option String × List Char)
  | '"' :: rest => readString (rest.length + 1) [] true rest
  | _ => none

/-- The digits behind a point, if there is a point. -/
def readFraction : List Char → Option (List Char × List Char)
  | '.' :: rest =>
    match spanDigits rest with
    | ([], _) => none
    | found => some found
  | rest => some ([], rest)

/-- The digits of an exponent with their sign. -/
def readPower (cs : List Char) : Option (Int × List Char) :=
  let (negative, rest) := match cs with
    | '-' :: rest => (true, rest)
    | '+' :: rest => (false, rest)
    | rest => (false, rest)
  match spanDigits rest with
  | ([], _) => none
  | (digits, rest) => some (if negative then -(ofDigits digits : Int) else ofDigits digits, rest)

/-- The exponent behind its letter, if there is a letter. -/
def readExponent : List Char → Option (Option Int × List Char)
  | 'e' :: rest => (readPower rest).map fun (e, rest) => (some e, rest)
  | 'E' :: rest => (readPower rest).map fun (e, rest) => (some e, rest)
  | rest => some (none, rest)

/-- A number, from its sign or first digit on. -/
def readNumber (cs : List Char) : Option (JsonNumber × List Char) :=
  let (negative, rest) := match cs with
    | '-' :: rest => (true, rest)
    | rest => (false, rest)
  match spanDigits rest with
  | ([], _) => none
  | (digits, rest) =>
    if digits.head? = some '0' ∧ digits.length > 1 then none
    else do
      let (fraction, rest) ← readFraction rest
      let (exponent, rest) ← readExponent rest
      return (⟨negative, ofDigits digits, fraction, exponent⟩, rest)

/-- Takes a word off. -/
def readWord (word : List Char) (value : Json) (cs : List Char) : Option (Json × List Char) :=
  if word.isPrefixOf cs then some (value, cs.drop word.length) else none

/-- Takes a colon with blanks around it off. -/
def readColon (cs : List Char) : Option (List Char) :=
  match skipSpace cs with
  | ':' :: rest => some (skipSpace rest)
  | _ => none

mutual

/-- A value, with no blanks before it. -/
def readValue (fuel : Nat) (cs : List Char) : Option (Json × List Char) :=
  match fuel with
  | 0 => none
  | fuel + 1 =>
    match cs with
    | [] => none
    | c :: rest =>
      if c = '"' then (readText (c :: rest)).map fun (s, rest) => (string s, rest)
      else if c = '[' then
        match skipSpace rest with
        | ']' :: rest => some (array [], rest)
        | rest => readItems fuel [] rest
      else if c.toNat = 123 then
        match skipSpace rest with
        | d :: rest =>
          if d.toNat = 125 then some (object [], rest) else readMembers fuel [] (d :: rest)
        | [] => none
      else if c = 'n' then readWord ['n', 'u', 'l', 'l'] null (c :: rest)
      else if c = 't' then readWord ['t', 'r', 'u', 'e'] (bool true) (c :: rest)
      else if c = 'f' then readWord ['f', 'a', 'l', 's', 'e'] (bool false) (c :: rest)
      else (readNumber (c :: rest)).map fun (n, rest) => (number n, rest)

/-- The rest of an array from an item on; the items read so far are kept in reverse. -/
def readItems (fuel : Nat) (done : List Json) (cs : List Char) : Option (Json × List Char) :=
  match fuel with
  | 0 => none
  | fuel + 1 =>
    match readValue fuel cs with
    | none => none
    | some (item, rest) =>
      match skipSpace rest with
      | ',' :: rest => readItems fuel (item :: done) (skipSpace rest)
      | ']' :: rest => some (array (item :: done).reverse, rest)
      | _ => none

/-- The rest of an object from a member on; the members read so far are kept in reverse. -/
def readMembers (fuel : Nat) (done : List (Option String × Json)) (cs : List Char) :
    Option (Json × List Char) :=
  match fuel with
  | 0 => none
  | fuel + 1 =>
    match readText cs with
    | none => none
    | some (name, rest) =>
      match readColon rest with
      | none => none
      | some rest =>
        match readValue fuel rest with
        | none => none
        | some (value, rest) =>
          match skipSpace rest with
          | ',' :: rest => readMembers fuel ((name, value) :: done) (skipSpace rest)
          | c :: rest =>
            if c.toNat = 125 then some (object ((name, value) :: done).reverse, rest) else none
          | [] => none

end

/-- The value that a text consists of, blanks around it aside. -/
def parseChars (cs : List Char) : Option Json :=
  match readValue (2 * cs.length + 2) (skipSpace cs) with
  | some (value, rest) => if skipSpace rest = [] then some value else none
  | none => none

/-- The value that a text consists of, blanks around it aside. -/
def parse (s : String) : Option Json :=
  parseChars s.toList

end Tradebook.Json
