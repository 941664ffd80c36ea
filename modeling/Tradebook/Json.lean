/-!
# JSON values

A value as it is written: a number keeps its digits, an object its members in
order and as often as they occur, and half of a surrogate pair is remembered
where a text holds one. What a reader makes of such a number, of a repeated
member or of half a character is the reader's decision.
-/

namespace Tradebook

/-- A number as it is written: the digits before the point, those after it (none where there is
no point) and the power of ten, if one is given. -/
structure JsonNumber where
  negative : Bool
  whole : Nat
  fraction : List Char
  exponent : Option Int
  deriving DecidableEq, Repr

/-- A value. A text is none where it holds half of a surrogate pair, which no text can. -/
inductive Json where
  | null
  | bool (value : Bool)
  | number (value : JsonNumber)
  | string (text : Option String)
  | array (items : List Json)
  | object (members : List (Option String × Json))
  deriving Repr

namespace Json

instance : Inhabited Json := ⟨null⟩

/-- A text. -/
def text (s : String) : Json :=
  string (some s)

/-- A natural. -/
def natural (n : Nat) : Json :=
  number ⟨false, n, [], none⟩

/-- An integer. -/
def integer (n : Int) : Json :=
  number ⟨n < 0, n.natAbs, [], none⟩

/-- An object with the given members. -/
def record (members : List (String × Json)) : Json :=
  object (members.map fun (name, value) => (some name, value))

/-- The value, or null. -/
def nullable {α : Type} (encode : α → Json) : Option α → Json
  | some a => encode a
  | none => null

end Json

end Tradebook
