import Tradebook.Text.Digits
import Tradebook.Text.Hex

/-!
# Texts and names in a settings file

Texts between single marks are taken as they stand, texts between double marks
have escapes, and both may go over several lines when their marks are threefold.
A line break right behind threefold marks does not count, and a backslash at the
end of a line drops all blanks up to the next character.

Every function takes the characters that are left and returns those that it
leaves.
-/

namespace Tradebook.Toml

open Tradebook.Text

/-- Whether a character may stand in a comment, and in a text unless it has a meaning there. -/
def isPlain (c : Char) : Bool :=
  c == '\t' || (32 ≤ c.toNat && c.toNat != 127)

/-- Whether a character is a blank within a line. -/
def isSpace (c : Char) : Bool :=
  c == ' ' || c == '\t'

/-- Drops the blanks in front. -/
def skipSpace (cs : List Char) : List Char :=
  cs.dropWhile isSpace

/-- Takes a line break off. -/
def newline? : List Char → Option (List Char)
  | '\n' :: rest => some rest
  | '\r' :: '\n' :: rest => some rest
  | _ => none

/-- Drops the line break in front, if there is one. -/
def skipNewline (cs : List Char) : List Char :=
  (newline? cs).getD cs

/-- Drops a comment, if one stands here. -/
def skipComment : List Char → List Char
  | '#' :: rest => rest.dropWhile isPlain
  | cs => cs

/-- Takes the rest of a line off that holds nothing but a comment. -/
def lineEnd? (cs : List Char) : Option (List Char) :=
  match skipComment (skipSpace cs) with
  | [] => some []
  | rest => newline? rest

/-- Drops blanks and line breaks in front. -/
def skipBlankLines : List Char → List Char
  | '\r' :: '\n' :: rest => skipBlankLines rest
  | c :: rest => if isSpace c || c == '\n' then skipBlankLines rest else c :: rest
  | [] => []

/-- The character that so many hexadecimal digits name. -/
def namedChar? (count : Nat) (cs : List Char) : Option (Char × List Char) :=
  let digits := cs.take count
  if digits.length = count then
    match ofHexDigits? digits with
    | some n => if n.isValidChar then some (Char.ofNat n, cs.drop count) else none
    | none => none
  else none

/-- The character that an escape stands for, from behind its backslash on. -/
def escape? : List Char → Option (Char × List Char)
  | 'b' :: rest => some (Char.ofNat 8, rest)
  | 'f' :: rest => some (Char.ofNat 12, rest)
  | 'n' :: rest => some ('\n', rest)
  | 'r' :: rest => some ('\r', rest)
  | 't' :: rest => some ('\t', rest)
  | '"' :: rest => some ('"', rest)
  | '\\' :: rest => some ('\\', rest)
  | 'u' :: rest => namedChar? 4 rest
  | 'U' :: rest => namedChar? 8 rest
  | _ => none

/-- The rest of a text between double marks; what was read is kept in reverse. -/
def basic? (fuel : Nat) (done : List Char) (cs : List Char) : Option (String × List Char) :=
  match fuel, cs with
  | fuel + 1, c :: rest =>
    if c = '"' then some (.ofList done.reverse, rest)
    else if c = '\\' then
      match escape? rest with
      | some (c, rest) => basic? fuel (c :: done) rest
      | none => none
    else if isPlain c then basic? fuel (c :: done) rest
    else none
  | _, _ => none

/-- The rest of a text between single marks. -/
def literal? (cs : List Char) : Option (String × List Char) :=
  let inside := fun c => isPlain c && c != Char.ofNat 39
  match cs.dropWhile inside with
  | c :: rest => if c.toNat = 39 then some (.ofList (cs.takeWhile inside), rest) else none
  | [] => none

/-- What a row of `count` marks inside threefold marks means: all of them are text, or the last
three of at most five end it. Gives how many are text and how many are used up. -/
def marks (count : Nat) : Nat × Option Nat :=
  if count < 3 then (count, none) else (min count 5 - 3, some (min count 5))

/-- A backslash at the end of a line: drops it with all blanks that follow. -/
def joined? (cs : List Char) : Option (List Char) :=
  (newline? (skipSpace cs)).map skipBlankLines

/-- The rest of a text between threefold marks; `escapes` tells whether backslashes have a meaning.
What was read is kept in reverse. -/
def several? (mark : Char) (escapes : Bool) (fuel : Nat) (done : List Char) (cs : List Char) :
    Option (String × List Char) :=
  match fuel, cs with
  | fuel + 1, c :: rest =>
    if c = mark then
      let row := (c :: rest).takeWhile (· == mark)
      match marks row.length with
      | (text, some used) =>
        some (.ofList (List.replicate text mark ++ done).reverse, (c :: rest).drop used)
      | (text, none) =>
        several? mark escapes fuel (List.replicate text mark ++ done) ((c :: rest).drop text)
    else if escapes && c == '\\' then
      match joined? rest with
      | some rest => several? mark escapes fuel done rest
      | none =>
        match escape? rest with
        | some (c, rest) => several? mark escapes fuel (c :: done) rest
        | none => none
    else
      match newline? (c :: rest) with
      | some rest => several? mark escapes fuel ('\n' :: done) rest
      | none => if isPlain c then several? mark escapes fuel (c :: done) rest else none
  | _, _ => none

/-- A text of any form, from its first mark on. -/
def text? (cs : List Char) : Option (String × List Char) :=
  match cs with
  | '"' :: '"' :: '"' :: rest =>
    several? '"' true (rest.length + 1) [] (skipNewline rest)
  | '"' :: rest => basic? (rest.length + 1) [] rest
  | '\x27' :: '\x27' :: '\x27' :: rest =>
    several? '\x27' false (rest.length + 1) [] (skipNewline rest)
  | '\x27' :: rest => literal? rest
  | _ => none

/-- Whether a character may stand in a name without marks. -/
def isNameChar (c : Char) : Bool :=
  c.isAlphanum || c == '-' || c == '_'

/-- One part of a key: a name, or a text on one line. -/
def keyPart? (cs : List Char) : Option (String × List Char) :=
  match cs with
  | '"' :: rest => basic? (rest.length + 1) [] rest
  | '\x27' :: rest => literal? rest
  | cs =>
    match cs.takeWhile isNameChar with
    | [] => none
    | name => some (.ofList name, cs.dropWhile isNameChar)

/-- A key is no longer than this many parts. -/
def longestKey : Nat :=
  79

/-- The parts of a key with dots between them and blanks around each; the first argument bounds
their number. -/
def keyParts? : Nat → List Char → Option (List String × List Char)
  | 0, _ => none
  | room + 1, cs =>
    match keyPart? (skipSpace cs) with
    | none => none
    | some (part, rest) =>
      match skipSpace rest with
      | '.' :: rest => (keyParts? room rest).map fun (parts, rest) => (part :: parts, rest)
      | rest => some ([part], rest)

/-- A key. -/
def key? (cs : List Char) : Option (List String × List Char) :=
  keyParts? longestKey cs

end Tradebook.Toml
