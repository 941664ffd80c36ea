import Tradebook.Text.Hex
import Tradebook.Text.Utf8

/-!
# What of an address reaches the server

An address is put into its normal form before it is used: line breaks and tabs
are dropped, a backslash is a slash, segments of dots are resolved, characters
that an address cannot hold are written as percent escapes, and the part behind
the number sign is not sent at all. The target of a request is what is left
behind the host: the path and the query.
-/

namespace Tradebook.Http

open Tradebook.Text

/-- Whether a character is dropped wherever it stands. -/
def isDropped (c : Char) : Bool :=
  c == '\t' || c == '\n' || c == '\r'

/-- The characters of an address without those that do not count. -/
def cleaned (cs : List Char) : List Char :=
  let outer := fun c : Char => decide (c.toNat ≤ 32)
  (((cs.dropWhile outer).reverse.dropWhile outer).reverse).filter (!isDropped ·)

/-- A byte as a percent escape. -/
def percentByte (b : UInt8) : List Char :=
  '%' :: (hexBytes [b]).map Char.toUpper

/-- A character of an address; `escaped` tells which of the printable ones are escaped too. -/
def encodedChar (escaped : List Char) (c : Char) : List Char :=
  if c.toNat < 32 ∨ 127 ≤ c.toNat ∨ escaped.contains c then
    (utf8 (String.ofList [c])).flatMap percentByte
  else [c]

/-- The printable characters that a path cannot hold. -/
def pathEscaped : List Char :=
  [' ', '"', '<', '>', '^', Char.ofNat 96, '#', '?', Char.ofNat 123, Char.ofNat 125]

/-- The printable characters that a query cannot hold. -/
def queryEscaped : List Char :=
  [' ', '"', '#', '<', '>', Char.ofNat 39]

/-- Whether a character separates segments. -/
def isSlash (c : Char) : Bool :=
  c == '/' || c == '\\'

/-- Cuts a path at its slashes. -/
def segments : List Char → List (List Char)
  | [] => [[]]
  | c :: rest =>
    if isSlash c then [] :: segments rest
    else
      match segments rest with
      | segment :: others => (c :: segment) :: others
      | [] => [[c]]

/-- A segment with the escapes of dots read. -/
def withDots : List Char → List Char
  | '%' :: '2' :: 'e' :: rest => '.' :: withDots rest
  | '%' :: '2' :: 'E' :: rest => '.' :: withDots rest
  | c :: rest => c :: withDots rest
  | [] => []

/-- Resolves segments of dots; the segments so far are in reverse. -/
def resolve (done : List (List Char)) : List (List Char) → List (List Char)
  | [] => done.reverse
  | segment :: rest =>
    if withDots segment = ['.', '.'] then
      resolve (if rest = [] then [] :: done.drop 1 else done.drop 1) rest
    else if withDots segment = ['.'] then resolve (if rest = [] then [] :: done else done) rest
    else resolve (segment :: done) rest

/-- A path in its normal form. -/
def pathTarget (path : List Char) : List Char :=
  let whole := match path with
    | c :: rest => if isSlash c then rest else path
    | [] => []
  (resolve [] (segments whole)).flatMap fun segment =>
    '/' :: segment.flatMap (encodedChar pathEscaped)

/-- Takes the scheme of an address off, if it is one that requests are sent to. -/
def afterScheme? (cs : List Char) : Option (List Char) :=
  let scheme := (cs.takeWhile (· ≠ ':')).map Char.toLower
  if scheme = ['h', 't', 't', 'p'] ∨ scheme = ['h', 't', 't', 'p', 's'] then
    match cs.drop scheme.length with
    | _ :: rest => some rest
    | [] => none
  else none

/-- The target of a request to an address, if that has a scheme that requests are sent to and a
host. Whether there can be such a host is not looked at. -/
def target? (url : String) : Option String := do
  let rest ← afterScheme? (cleaned url.toList)
  let rest := (rest.dropWhile isSlash).takeWhile (· ≠ '#')
  let ends := fun c => isSlash c || c == '?'
  if rest.takeWhile (!ends ·) = [] then none
  else
    let rest := rest.dropWhile (!ends ·)
    let path := pathTarget (rest.takeWhile (· ≠ '?'))
    match rest.dropWhile (· ≠ '?') with
    | [] => some (.ofList path)
    | _ :: query => some (.ofList (path ++ '?' :: query.flatMap (encodedChar queryEscaped)))

end Tradebook.Http
