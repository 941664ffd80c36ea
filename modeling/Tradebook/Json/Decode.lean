import Tradebook.Json.Number
import Tradebook.Time.Reader

/-!
# Reading records from JSON values

A record is an object with named members, or an array of the members in their
order. Members of other names are passed over and nothing in them is looked at;
a member that is named twice is an error, and so is a missing one unless the
record can do without it. A choice is an object with one member whose name tells
the case, and a case without content may be written as its name alone.
-/

namespace Tradebook.Json

/-- The members of the given names, in that order; a missing one is none. -/
def fields? (names : List String) : Json → Option (List (Option Json))
  | object members =>
    if members.all (·.1.isSome) then
      names.mapM fun name =>
        match members.filter (·.1 == some name) with
        | [] => some none
        | [(_, value)] => some (some value)
        | _ => none
    else none
  | array items => if items.length = names.length then some (items.map some) else none
  | _ => none

/-- A member that must be there. -/
def required {α : Type} (decode : Json → Option α) : Option Json → Option α
  | some v => decode v
  | none => none

/-- A member that may be missing or null. -/
def optional {α : Type} (decode : Json → Option α) : Option Json → Option (Option α)
  | none => some none
  | some null => some none
  | some v => (decode v).map some

/-- A member with a value for where it is missing. -/
def defaulted {α : Type} (value : α) (decode : Json → Option α) : Option Json → Option α
  | none => some value
  | some v => decode v

/-- A text without broken characters. -/
def asText? : Json → Option String
  | string s => s
  | _ => none

/-- A truth value. -/
def asBool? : Json → Option Bool
  | bool b => some b
  | _ => none

/-- A natural below the bound; a number with a point or an exponent is none. -/
def asNatural? (bound : Nat) : Json → Option Nat
  | number n =>
    match n.meaning? with
    | some (.natural m) => if m < bound then some m else none
    | _ => none
  | _ => none

/-- The items of an array. -/
def asItems? : Json → Option (List Json)
  | array items => some items
  | _ => none

/-- A decimal, as a number or as a text. -/
def asDecimal? : Json → Option Decimal
  | number n => Decimal.ofJsonNumber? n
  | string (some s) => Decimal.ofText? s
  | _ => none

/-- An instant. -/
def asTimestamp? : Json → Option Timestamp
  | string (some s) => Timestamp.ofText? s
  | _ => none

/-- The name of a case without content. -/
def asName? : Json → Option String
  | string s => s
  | object [(name, null)] => name
  | _ => none

/-- The name and the content of a case. -/
def asCase? : Json → Option (String × Json)
  | object [(some name, content)] => some (name, content)
  | _ => none

mutual

/-- Whether a value could be kept as it is: no broken text, no number out of range, and arrays
and objects nested no deeper than `room`. -/
def sound (room : Nat) : Json → Bool
  | null => true
  | bool _ => true
  | number n => n.meaning?.isSome
  | string s => s.isSome
  | array items => 0 < room && soundItems (room - 1) items
  | object members => 0 < room && soundMembers (room - 1) members

/-- Whether all items are sound. -/
def soundItems (room : Nat) : List Json → Bool
  | [] => true
  | item :: items => sound room item && soundItems room items

/-- Whether all members and their names are sound. -/
def soundMembers (room : Nat) : List (Option String × Json) → Bool
  | [] => true
  | (name, value) :: members =>
    name.isSome && sound room value && soundMembers room members

end

mutual

/-- A value as it is kept: numbers in the form that their meaning has, and of the members of one
name only the last. -/
def settled : Json → Json
  | number n => number n.settled
  | array items => array (settledItems items)
  | object members => object (settledMembers members)
  | v => v

/-- Items as they are kept. -/
def settledItems : List Json → List Json
  | [] => []
  | item :: items => settled item :: settledItems items

/-- Members as they are kept. -/
def settledMembers : List (Option String × Json) → List (Option String × Json)
  | [] => []
  | (name, value) :: members =>
    if members.any (·.1 == name) then settledMembers members
    else (name, settled value) :: settledMembers members

end

/-- The deepest nesting of a value that is kept as it is. -/
def deepest : Nat :=
  127

end Tradebook.Json
