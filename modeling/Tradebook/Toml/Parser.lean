import Tradebook.Toml.Scalar
import Tradebook.Toml.Tree

/-!
# Reading a settings file

A file is lines: a heading, a key with its value, or nothing; a comment may end
each of them. Only within brackets may a value go over several lines. Brackets
and braces are not nested deeper than a limit.
-/

namespace Tradebook.Toml

/-- Brackets and braces are not nested deeper than this. -/
def deepest : Nat :=
  79

/-- Drops blanks, line breaks and comments in front; the first argument bounds their number. -/
def skipLines : Nat → List Char → List Char
  | 0, cs => cs
  | fuel + 1, cs =>
    match skipSpace cs with
    | '#' :: rest => skipLines fuel (rest.dropWhile isPlain)
    | cs =>
      match newline? cs with
      | some rest => skipLines fuel rest
      | none => cs

mutual

/-- A value; `room` is how deep it may nest. -/
def value? (fuel room : Nat) (cs : List Char) : Option (Toml × List Char) :=
  match fuel with
  | 0 => none
  | fuel + 1 =>
    match cs with
    | [] => none
    | c :: rest =>
      if c = '"' ∨ c.toNat = 39 then (text? cs).map fun (s, rest) => (.string s, rest)
      else if c = '[' then
        match room with
        | 0 => none
        | room + 1 => items? fuel room [] rest
      else if c.toNat = 123 then
        match room with
        | 0 => none
        | room + 1 =>
          match skipSpace rest with
          | d :: rest =>
            if d.toNat = 125 then some (.table .inline [], rest)
            else entries? fuel room [] (d :: rest)
          | [] => none
      else if c = 't' then word? ['t', 'r', 'u', 'e'] (.bool true) cs
      else if c = 'f' then word? ['f', 'a', 'l', 's', 'e'] (.bool false) cs
      else scalar? cs

/-- The rest of an array; the items read so far are kept in reverse. A comma may follow the last
item. -/
def items? (fuel room : Nat) (done : List Toml) (cs : List Char) : Option (Toml × List Char) :=
  match fuel with
  | 0 => none
  | fuel + 1 =>
    match skipLines cs.length cs with
    | ']' :: rest => some (.array done.reverse, rest)
    | cs =>
      match value? fuel room cs with
      | none => none
      | some (item, rest) =>
        match skipLines rest.length rest with
        | ',' :: rest => items? fuel room (item :: done) rest
        | ']' :: rest => some (.array (item :: done).reverse, rest)
        | _ => none

/-- The rest of a table in braces, from a key on. No comma may follow the last entry. -/
def entries? (fuel room : Nat) (done : Entries) (cs : List Char) : Option (Toml × List Char) :=
  match fuel with
  | 0 => none
  | fuel + 1 =>
    match key? cs with
    | none => none
    | some (key, rest) =>
      match rest with
      | '=' :: rest =>
        match value? fuel room (skipSpace rest) with
        | none => none
        | some (value, rest) =>
          match putValue (key.getLast?.getD "") value true key.dropLast done with
          | none => none
          | some done =>
            match skipSpace rest with
            | ',' :: rest => entries? fuel room done rest
            | c :: rest => if c.toNat = 125 then some (.table .inline done, rest) else none
            | [] => none
      | _ => none

end

/-- A key and its value, and nothing else in the line. -/
def keyLine? (cs : List Char) (d : Draft) : Option (Draft × List Char) := do
  let (key, rest) ← key? cs
  let rest ← skip? '=' rest
  let (value, rest) ← value? (2 * rest.length + 2) deepest (skipSpace rest)
  let rest ← lineEnd? rest
  return (← d.put key.dropLast (key.getLast?.getD "") value, rest)

/-- A heading from behind its first bracket on, and nothing else in the line. -/
def headingLine? (cs : List Char) (d : Draft) : Option (Draft × List Char) :=
  match cs with
  | '[' :: rest => do
    let (path, rest) ← key? rest
    let rest ← lineEnd? (← skip? ']' (← skip? ']' rest))
    return (← d.repeatedHeading path, rest)
  | cs => do
    let (path, rest) ← key? cs
    let rest ← lineEnd? (← skip? ']' rest)
    return (← d.heading path, rest)

/-- The lines of a file; the first argument bounds their number. -/
def lines? : Nat → List Char → Draft → Option Draft
  | 0, _, _ => none
  | fuel + 1, cs, d =>
    match skipSpace cs with
    | [] => some d
    | '#' :: rest => (lineEnd? ('#' :: rest)).bind (lines? fuel · d)
    | '[' :: rest => (headingLine? rest d).bind fun (d, rest) => lines? fuel rest d
    | cs =>
      match newline? cs with
      | some rest => lines? fuel rest d
      | none => (keyLine? cs d).bind fun (d, rest) => lines? fuel rest d

/-- The tables of a file. A byte order mark in front is no part of it. -/
def parse? (s : String) : Option Entries := do
  let cs := match s.toList with
    | c :: rest => if c.toNat = 0xFEFF then rest else c :: rest
    | [] => []
  (← lines? (cs.length + 1) cs .empty).finish

end Tradebook.Toml
