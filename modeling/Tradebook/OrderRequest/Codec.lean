import Tradebook.OrderRequest
import Tradebook.Record.Codec
import Tradebook.Text.Quoted

/-!
# Order requests as JSON

The kind of an order is told by its member `type`, which stands beside the
members that the kind has. A reader has to look at all members before it knows
which of them matter, so all of them must be sound.
-/

namespace Tradebook

open Json

namespace OrderKind

def toJson : OrderKind → Json
  | limit price => record [("type", text "limit"), ("price", price.toJson)]
  | market => record [("type", text "market")]

/-- The kind of the given type whose members are in `content`. -/
def ofContent? (type : String) (content : Json) : Option OrderKind :=
  if type = "limit" then
    match content.fields? ["price"] with
    | some [price] => (required asDecimal? price).map limit
    | _ => none
  else if type = "market" then
    match content with
    | object _ => some market
    | array [] => some market
    | _ => none
  else none

/-- Reads a kind of order that stands inside `outside` other values. -/
def ofJsonWithin? (outside : Nat) (v : Json) : Option OrderKind :=
  if v.sound (deepest - outside) then
    match v with
    | object members =>
      match members.filter (·.1 == some "type") with
      | [(_, string (some type))] =>
        ofContent? type (object (members.filter (·.1 != some "type")))
      | _ => none
    | array (string (some type) :: items) => ofContent? type (array items)
    | _ => none
  else none

def ofJson? (v : Json) : Option OrderKind :=
  ofJsonWithin? 0 v

end OrderKind

namespace OrderRequest

def toJson (r : OrderRequest) : Json :=
  record [("symbol", text r.symbol), ("side", r.side.toJson), ("kind", r.kind.toJson),
    ("quantity", r.quantity.toJson), ("client_order_id", text r.clientOrderId)]

def ofJson? (v : Json) : Option OrderRequest := do
  match ← v.fields? ["symbol", "side", "kind", "quantity", "client_order_id"] with
  | [symbol, side, kind, quantity, clientOrderId] =>
    return {
      symbol := ← required asText? symbol
      side := ← required Side.ofJson? side
      kind := ← required (OrderKind.ofJsonWithin? 1) kind
      quantity := ← required asDecimal? quantity
      clientOrderId := ← required asText? clientOrderId }
  | _ => none

end OrderRequest

namespace CancelRequest

def toJson : CancelRequest → Json
  | byOrderId id => record [("ByOrderId", text id)]
  | byClientOrderId id => record [("ByClientOrderId", text id)]

def ofJson? (v : Json) : Option CancelRequest := do
  let (name, content) ← asCase? v
  let id ← asText? content
  if name = "ByOrderId" then some (byOrderId id)
  else if name = "ByClientOrderId" then some (byClientOrderId id)
  else none

/-- The request as it is shown to a person who looks for a fault. -/
def display : CancelRequest → String
  | byOrderId id => "ByOrderId(" ++ Text.quoted id ++ ")"
  | byClientOrderId id => "ByClientOrderId(" ++ Text.quoted id ++ ")"

end CancelRequest

end Tradebook
