import Tradebook.Text.Blank
import Tradebook.Time.Timestamp

/-!
# Reading dates and instants

The reader is lenient where people and exchanges differ: a digit may be missing
in front, blanks may stand before a number or a separator, a blank may take the
place of the `T`, the distance to Greenwich may be written with or without a
colon, and of a longer fraction nine digits are kept. The parts themselves must
make a day of the calendar and a time of the clock.
-/

namespace Tradebook

open Tradebook.Text

namespace TimeReader

/-- A number of one to `most` digits, and what follows it. -/
def number? (most : Nat) (cs : List Char) : Option (Nat × List Char) :=
  match (cs.take most).takeWhile Char.isDigit with
  | [] => none
  | digits => some (ofDigits digits, cs.drop digits.length)

/-- A number of at most two digits with blanks in front. -/
def pair? (cs : List Char) : Option (Nat × List Char) :=
  number? 2 (trimLeft cs)

/-- A year with blanks in front: four digits at most, or any number of them behind a sign. -/
def year? (cs : List Char) : Option (Int × List Char) :=
  match trimLeft cs with
  | '-' :: rest => (number? rest.length rest).map fun (n, rest) => (-(n : Int), rest)
  | '+' :: rest => (number? rest.length rest).map fun (n, rest) => ((n : Int), rest)
  | rest => (number? 4 rest).map fun (n, rest) => ((n : Int), rest)

/-- Takes a character off. -/
def skip? (c : Char) : List Char → Option (List Char)
  | d :: rest => if d = c then some rest else none
  | [] => none

/-- Takes a character with blanks in front off. -/
def separator? (c : Char) (cs : List Char) : Option (List Char) :=
  skip? c (trimLeft cs)

/-- The fraction behind a point as nanoseconds, if there is a point. -/
def nanos? : List Char → Option (Nat × List Char)
  | '.' :: rest =>
    match (rest.take 9).takeWhile Char.isDigit with
    | [] => none
    | digits =>
      some (ofDigits digits * Nat.pow 10 (9 - digits.length), rest.dropWhile Char.isDigit)
  | rest => some (0, rest)

/-- Takes the blank or the letter between date and time off. -/
def clockMark? : List Char → Option (List Char)
  | c :: rest => if c = 't' ∨ c = 'T' ∨ c = ' ' then some rest else none
  | [] => none

/-- Whether a distance from Greenwich is to the west, if a sign tells. -/
def west? : List Char → Option (Bool × List Char)
  | c :: rest =>
    if c = '+' then some (false, rest)
    else if c = '-' ∨ c = Char.ofNat 0x2212 then some (true, rest)
    else none
  | [] => none

/-- Exactly two digits. -/
def twoDigits? : List Char → Option (Nat × List Char)
  | a :: b :: rest => if a.isDigit ∧ b.isDigit then some (ofDigits [a, b], rest) else none
  | _ => none

/-- The distance from Greenwich in seconds. -/
def offset? (cs : List Char) : Option (Int × List Char) :=
  match cs with
  | 'Z' :: rest => some (0, rest)
  | 'z' :: rest => some (0, rest)
  | cs =>
    if (cs.take 3).map Char.toUpper = ['U', 'T', 'C'] then some (0, cs.drop 3)
    else do
      let (west, rest) ← west? cs
      let (hours, rest) ← twoDigits? rest
      let (minutes, rest) ← twoDigits? (rest.dropWhile fun c => c = ':' || isBlank c)
      let seconds := 3600 * hours + 60 * minutes
      if minutes < 60 ∧ seconds < 86400 then
        some (if west then -(seconds : Int) else seconds, rest)
      else none

/-- A date with hyphens, and what follows it. -/
def datePrefix? (cs : List Char) : Option (Date × List Char) := do
  let (year, rest) ← year? cs
  let (month, rest) ← number? 2 (trimLeft (← skip? '-' rest))
  let (day, rest) ← number? 2 (trimLeft (← skip? '-' rest))
  return (← Date.ofParts? year month day, rest)

/-- An instant: date, time of day and distance from Greenwich. -/
def timestamp? (cs : List Char) : Option Timestamp := do
  let (year, rest) ← year? cs
  let (month, rest) ← pair? (← separator? '-' rest)
  let (day, rest) ← pair? (← separator? '-' rest)
  let (hour, rest) ← pair? (← clockMark? rest)
  let (minute, rest) ← pair? (← separator? ':' rest)
  let (second, rest) ← pair? (← separator? ':' rest)
  let (nanos, rest) ← nanos? rest
  let (offset, rest) ← offset? (trimLeft rest)
  if trimLeft rest = [] ∧ hour < 24 ∧ minute < 60 ∧ second ≤ 60 then
    let date ← Date.ofParts? year month day
    let leap := if second = 60 then 1 else 0
    let clock : WallClock :=
      ⟨date, 3600 * hour + 60 * minute + (second - leap), nanos + leap * Timestamp.perSecond⟩
    clock.toTimestamp? offset
  else none

end TimeReader

/-- Reads a date written with hyphens and nothing behind it. -/
def Date.ofText? (s : String) : Option Date :=
  match TimeReader.datePrefix? s.toList with
  | some (date, []) => some date
  | _ => none

/-- Reads an instant. -/
def Timestamp.ofText? (s : String) : Option Timestamp :=
  TimeReader.timestamp? s.toList

end Tradebook
