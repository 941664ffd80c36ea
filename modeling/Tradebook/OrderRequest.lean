import Tradebook.Decimal.Text
import Tradebook.Record
import Tradebook.Symbol

/-!
# Asking for orders

What a person may ask an exchange to do: place an order, or cancel one. A request
exists only where its parts make sense together, so an exchange is never asked
for an order without a symbol, of no quantity, or with a limit that is no price.
-/

namespace Tradebook

open Tradebook.Text

/-- Why a request does not make sense. -/
inductive OrderRequestError where
  | missingSymbol
  | invalidQuantity (quantity : Decimal)
  | invalidPrice (price : Decimal)
  | missingPrice
  | invalidSide (word : String)
  | unsupportedOrderType (word : String)
  | missingOrderId
  deriving DecidableEq, Repr

/-- The wording of the error. -/
def OrderRequestError.message : OrderRequestError → String
  | missingSymbol => "symbol is required"
  | invalidQuantity quantity => "quantity must be positive, got " ++ quantity.text
  | invalidPrice price => "limit price must be positive, got " ++ price.text
  | missingPrice => "limit order requires a price"
  | invalidSide word => "invalid side: " ++ word
  | unsupportedOrderType word => "unsupported order type: " ++ word
  | missingOrderId => "either order id or client order id is required"

/-- The side that a word means, blanks around it and capitals aside. -/
def Side.ofText (word : String) : Except OrderRequestError Side :=
  let word := asciiLower (trim word)
  if word = "buy" then .ok .buy
  else if word = "sell" then .ok .sell
  else .error (.invalidSide word)

/-- The orders that can be placed; only a limit order names a price. -/
inductive OrderKind where
  | limit (price : Decimal)
  | market
  deriving DecidableEq, Repr

namespace OrderKind

/-- The kind that a word means, with the price given beside it. -/
def ofText (word : String) (price : Option Decimal) : Except OrderRequestError OrderKind :=
  let word := asciiLower (trim word)
  if word = "limit" then
    match price with
    | some price => .ok (.limit price)
    | none => .error .missingPrice
  else if word = "market" then .ok .market
  else .error (.unsupportedOrderType word)

/-- The type that an order of this kind has. -/
def orderType : OrderKind → OrderType
  | limit _ => .limit
  | market => .market

/-- The price of a limit order. -/
def price : OrderKind → Option Decimal
  | limit price => some price
  | market => none

end OrderKind

/-- A request to place an order. -/
structure OrderRequest where
  symbol : String
  side : Side
  kind : OrderKind
  quantity : Decimal
  clientOrderId : String
  deriving DecidableEq, Repr

/-- The request with the given parts, if they make sense. -/
def OrderRequest.make (symbol : String) (side : Side) (kind : OrderKind) (quantity : Decimal)
    (clientOrderId : String) : Except OrderRequestError OrderRequest :=
  let symbol := normalizeSymbol symbol
  if symbol = "" then .error .missingSymbol
  else if !quantity.isPositive then .error (.invalidQuantity quantity)
  else
    match kind.price with
    | some price =>
      if price.isPositive then .ok ⟨symbol, side, kind, quantity, clientOrderId⟩
      else .error (.invalidPrice price)
    | none => .ok ⟨symbol, side, kind, quantity, clientOrderId⟩

/-- A request to cancel an order, by the id of the exchange or by the id of the client. -/
inductive CancelRequest where
  | byOrderId (id : String)
  | byClientOrderId (id : String)
  deriving DecidableEq, Repr

/-- The request for the ids given; a blank one is none, and that of the exchange goes first. -/
def CancelRequest.ofIds (orderId clientOrderId : Option String) :
    Except OrderRequestError CancelRequest :=
  match (orderId.map trim).filter (· ≠ ""), (clientOrderId.map trim).filter (· ≠ "") with
  | some id, _ => .ok (.byOrderId id)
  | none, some id => .ok (.byClientOrderId id)
  | none, none => .error .missingOrderId

end Tradebook
