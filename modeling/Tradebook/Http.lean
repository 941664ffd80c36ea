import Tradebook.Http.Status
import Tradebook.Text.Utf8
import Tradebook.Time.Timestamp

/-!
# Requests over the net

A request as it is handed to the network, and the answer that comes back, if one
does. What lies behind the network is part of the world `σ`.
-/

namespace Tradebook

/-- What is done to the thing that a path names. -/
inductive HttpMethod where
  | get
  | post
  | delete
  deriving DecidableEq, Repr

/-- The word for a method. -/
def HttpMethod.name : HttpMethod → String
  | get => "GET"
  | post => "POST"
  | delete => "DELETE"

/-- A request; the address is as it was put together, whatever the network makes of it. -/
structure HttpRequest where
  method : HttpMethod
  url : String
  headers : List (String × String)
  body : Option String
  deriving DecidableEq, Repr

/-- An answer: its status and the bytes of its body. -/
structure HttpAnswer where
  status : Nat
  body : List UInt8
  deriving DecidableEq, Repr

namespace HttpAnswer

/-- The body as a text; a byte order mark in front is no part of it. -/
def text (a : HttpAnswer) : String :=
  match Text.decodeLossy a.body with
  | c :: rest => if c.toNat = 0xFEFF then .ofList rest else .ofList (c :: rest)
  | [] => ""

/-- Whether the request was granted, as far as the network knows. -/
def isSuccess (a : HttpAnswer) : Bool :=
  200 ≤ a.status && a.status ≤ 299

end HttpAnswer

/-- The way to an exchange: sends a request and waits for the answer, or says why there is none. -/
structure HttpWire (σ : Type) where
  send : HttpRequest → σ → Except String HttpAnswer × σ
  now : σ → Timestamp

/-- Whether a header may have this value: no control characters but the tab. -/
def isHeaderValue (value : String) : Bool :=
  value.toList.all fun c => c = '\t' || (32 ≤ c.toNat && c.toNat ≠ 127)

end Tradebook
