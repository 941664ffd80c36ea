import Tradebook.Time.Calendar
import Tradebook.Toml
import Tradebook.Toml.Text

/-!
# Numbers and moments in a settings file

A settings file holds no value of these kinds that is used, but a file with a
value that is none of them is no settings file. So they are checked and dropped.
-/

namespace Tradebook.Toml

open Tradebook.Text

/-- Digits of a class with single underscores between them. -/
def groupedDigits (isDigit : Char → Bool) : List Char → List Char × List Char
  | '_' :: c :: rest =>
    if isDigit c then
      let (digits, rest) := groupedDigits isDigit rest
      (c :: digits, rest)
    else ([], '_' :: c :: rest)
  | c :: rest =>
    if isDigit c then
      let (digits, rest) := groupedDigits isDigit rest
      (c :: digits, rest)
    else ([], c :: rest)
  | [] => ([], [])

/-- One digit or more of a class, none of them behind an underscore that stands first. -/
def digits? (isDigit : Char → Bool) (cs : List Char) : Option (List Char × List Char) :=
  match cs with
  | c :: _ => if isDigit c then some (groupedDigits isDigit cs) else none
  | [] => none

/-- A sign, if there is one: whether it is a minus. -/
def sign : List Char → Bool × List Char
  | '-' :: rest => (true, rest)
  | '+' :: rest => (false, rest)
  | rest => (false, rest)

/-- The digits of a whole number: a zero alone, or digits that start with another one. -/
def wholeDigits? (cs : List Char) : Option (List Char × List Char) :=
  match cs with
  | '0' :: rest => some (['0'], rest)
  | cs => digits? Char.isDigit cs

/-- Digits in a base, as a number of 64 bits with a sign. -/
def based? (base : Nat) (isDigit : Char → Bool) (cs : List Char) : Option (Toml × List Char) :=
  match digits? isDigit cs with
  | none => none
  | some (digits, rest) =>
    let n := digits.foldl (fun n c => base * n + (hexValue? c).getD 0) 0
    if n < 0x8000000000000000 then some (.integer, rest) else none

/-- A whole number. -/
def integer? (cs : List Char) : Option (Toml × List Char) :=
  match cs with
  | '0' :: 'x' :: rest => based? 16 (fun c => (hexValue? c).isSome) rest
  | '0' :: 'o' :: rest => based? 8 (fun c => '0' ≤ c && c ≤ '7') rest
  | '0' :: 'b' :: rest => based? 2 (fun c => c == '0' || c == '1') rest
  | cs =>
    let (negative, rest) := sign cs
    match wholeDigits? rest with
    | none => none
    | some (digits, rest) =>
      let n := ofDigits digits
      if n < 0x8000000000000000 ∨ (negative ∧ n = 0x8000000000000000) then some (.integer, rest)
      else none

/-- Whether `digits * 10 ^ power` is too large for a double. -/
def isTooLarge (digits : Nat) (power : Int) : Bool :=
  let size := power + (decimalDigits digits).length
  if digits = 0 ∨ size < 300 then false
  else if 400 < size then true
  else
    0x3FFFFFFFFFFFFF * Nat.pow 2 970 * Nat.pow 10 (-power).toNat ≤ digits * Nat.pow 10 power.toNat

/-- The part of a number behind its point, if there is a point. -/
def fraction? : List Char → Option (List Char × List Char)
  | '.' :: rest => digits? Char.isDigit rest
  | rest => some ([], rest)

/-- The exponent of a number, if there is one. -/
def exponent? (cs : List Char) : Option (Option Int × List Char) :=
  match cs with
  | c :: rest =>
    if c = 'e' ∨ c = 'E' then
      let (negative, rest) := sign rest
      (digits? Char.isDigit rest).map fun (digits, rest) =>
        (some (if negative then -(ofDigits digits : Int) else ofDigits digits), rest)
    else some (none, c :: rest)
  | [] => some (none, [])

/-- Takes a word off. -/
def word? (word : List Char) (value : Toml) (cs : List Char) : Option (Toml × List Char) :=
  if word.isPrefixOf cs then some (value, cs.drop word.length) else none

/-- A number with a point or an exponent, or one of the numbers that are none. Too large a positive
number is an error, too large a negative one is not. -/
def float? (cs : List Char) : Option (Toml × List Char) :=
  let (negative, rest) := sign cs
  match rest with
  | 'i' :: _ => word? ['i', 'n', 'f'] .float rest
  | 'n' :: _ => word? ['n', 'a', 'n'] .float rest
  | rest => do
    let (whole, rest) ← wholeDigits? rest
    let (fraction, rest) ← fraction? rest
    let (exponent, rest) ← exponent? rest
    if fraction = [] ∧ exponent = none then none
    else if !negative && isTooLarge (ofDigits (whole ++ fraction))
        (exponent.getD 0 - fraction.length) then none
    else some (.float, rest)

/-- Exactly so many digits. -/
def fixedDigits? (count : Nat) (cs : List Char) : Option (Nat × List Char) :=
  let digits := cs.take count
  if digits.length = count ∧ digits.all Char.isDigit then some (ofDigits digits, cs.drop count)
  else none

/-- Takes a character off. -/
def skip? (c : Char) : List Char → Option (List Char)
  | d :: rest => if d = c then some rest else none
  | [] => none

/-- Two digits up to a bound. -/
def clockPart? (most : Nat) (cs : List Char) : Option (List Char) :=
  match fixedDigits? 2 cs with
  | some (n, rest) => if n ≤ most then some rest else none
  | none => none

/-- A time of day; the sixtieth second is that of a leap second. -/
def clock? (cs : List Char) : Option (List Char) := do
  let rest ← clockPart? 23 cs
  let rest ← clockPart? 59 (← skip? ':' rest)
  let rest ← clockPart? 60 (← skip? ':' rest)
  match rest with
  | '.' :: c :: more => if c.isDigit then some (more.dropWhile Char.isDigit) else some rest
  | rest => some rest

/-- The distance from Greenwich behind a time, if there is one. -/
def skipOffset (cs : List Char) : List Char :=
  match cs with
  | c :: rest =>
    if c = 'Z' ∨ c = 'z' then rest
    else if c = '+' ∨ c = '-' then
      (do clockPart? 59 (← skip? ':' (← clockPart? 23 rest))).getD cs
    else cs
  | [] => []

/-- A day of the calendar. -/
def day? (cs : List Char) : Option (List Char) := do
  let (year, rest) ← fixedDigits? 4 cs
  let (month, rest) ← fixedDigits? 2 (← skip? '-' rest)
  let (day, rest) ← fixedDigits? 2 (← skip? '-' rest)
  if (Date.ofParts? year month day).isSome then some rest else none

/-- A day with or without a time, or a time alone. -/
def moment? (cs : List Char) : Option (Toml × List Char) :=
  match day? cs with
  | some (c :: rest) =>
    if c = 'T' ∨ c = 't' ∨ c = ' ' then
      match clock? rest with
      | some rest => some (.moment, skipOffset rest)
      | none => some (.moment, c :: rest)
    else some (.moment, c :: rest)
  | some [] => some (.moment, [])
  | none => (clock? cs).map (.moment, ·)

/-- A number or a moment. -/
def scalar? (cs : List Char) : Option (Toml × List Char) :=
  ((moment? cs).or (float? cs)).or (integer? cs)

end Tradebook.Toml
