import Tradebook.Exchange
import Tradebook.Ftx.Config
import Tradebook.Text.Quoted

/-!
# Rows of FTX answers

What FTX tells of balances, markets, fills and orders, in its own words, and what
it means in ours. Rows of a history have a number of their own and a time.
-/

namespace Tradebook.Ftx

open Json

/-- The numbers below this one are the ids that there can be. -/
def idBound : Nat :=
  JsonNumber.wordBound

/-- The side that FTX means by a word. -/
def sideOf (word : String) : Outcome ExchangeError Side :=
  match Side.ofText word with
  | .ok side => .ok side
  | .error cause => .error (.unexpected cause.message)

/-- A balance: all of it, and what is free of it. -/
structure BalanceRow where
  coin : String
  free : Decimal
  total : Decimal
  deriving DecidableEq, Repr

namespace BalanceRow

def ofJson? (v : Json) : Option BalanceRow := do
  match ← v.fields? ["coin", "free", "total"] with
  | [coin, free, total] =>
    return {
      coin := ← required asText? coin
      free := ← required asDecimal? free
      total := ← required asDecimal? total }
  | _ => none

/-- The balance that the row means; what is not free is locked. Where more is free than there is,
nothing is locked. -/
def toBalance? (r : BalanceRow) : Option Balance :=
  match Decimal.sub? r.total r.free with
  | some difference => some ⟨r.coin, r.free, difference.atLeastZero⟩
  | none => none

end BalanceRow

/-- A market; only some have a pair of currencies. -/
structure MarketRow where
  name : String
  kind : String
  baseCurrency : Option String
  quoteCurrency : Option String
  deriving DecidableEq, Repr

namespace MarketRow

def ofJson? (v : Json) : Option MarketRow := do
  match ← v.fields? ["name", "type", "baseCurrency", "quoteCurrency"] with
  | [name, kind, baseCurrency, quoteCurrency] =>
    return {
      name := ← required asText? name
      kind := ← required asText? kind
      baseCurrency := ← optional asText? baseCurrency
      quoteCurrency := ← optional asText? quoteCurrency }
  | _ => none

/-- The market that the row means, if it trades coins for immediate delivery. -/
def toMarket? (r : MarketRow) : Option Market :=
  if r.kind = "spot" then
    match r.baseCurrency, r.quoteCurrency with
    | some base, some quote => some ⟨r.name, base, quote⟩
    | _, _ => none
  else none

end MarketRow

/-- A fill. -/
structure FillRow where
  id : Nat
  market : Option String
  side : String
  price : Decimal
  size : Decimal
  fee : Decimal
  feeCurrency : String
  liquidity : String
  orderId : Option Nat
  time : Timestamp
  deriving DecidableEq, Repr

namespace FillRow

def ofJson? (v : Json) : Option FillRow := do
  match ← v.fields? ["id", "market", "side", "price", "size", "fee", "feeCurrency", "liquidity",
    "orderId", "time"] with
  | [id, market, side, price, size, fee, feeCurrency, liquidity, orderId, time] =>
    return {
      id := ← required (asNatural? idBound) id
      market := ← optional asText? market
      side := ← required asText? side
      price := ← required asDecimal? price
      size := ← required asDecimal? size
      fee := ← required asDecimal? fee
      feeCurrency := ← required asText? feeCurrency
      liquidity := ← required asText? liquidity
      orderId := ← optional (asNatural? idBound) orderId
      time := ← required asTimestamp? time }
  | _ => none

/-- The fill that the row means. Where the row does not name its market, it is of the one that was
asked for. -/
def toTrade (exchange symbol : String) (r : FillRow) : Outcome ExchangeError Trade := do
  let side ← sideOf r.side
  return {
    id := Text.natText r.id
    exchange
    symbol := r.market.getD symbol
    side
    price := r.price
    quantity := r.size
    fee := r.fee
    feeCurrency := r.feeCurrency
    isMaker := r.liquidity == "maker"
    orderId := r.orderId.map Text.natText
    tradedAt := r.time }

end FillRow

/-- An order. -/
structure OrderRow where
  id : Nat
  clientId : Option String
  market : String
  side : String
  kind : String
  price : Option Decimal
  size : Decimal
  filledSize : Decimal
  status : String
  createdAt : Timestamp
  deriving DecidableEq, Repr

namespace OrderRow

def ofJson? (v : Json) : Option OrderRow := do
  match ← v.fields? ["id", "clientId", "market", "side", "type", "price", "size", "filledSize",
    "status", "createdAt"] with
  | [id, clientId, market, side, kind, price, size, filledSize, status, createdAt] =>
    return {
      id := ← required (asNatural? idBound) id
      clientId := ← optional asText? clientId
      market := ← required asText? market
      side := ← required asText? side
      kind := ← required asText? kind
      price := ← optional asDecimal? price
      size := ← required asDecimal? size
      filledSize := ← defaulted .zero asDecimal? filledSize
      status := ← required asText? status
      createdAt := ← required asTimestamp? createdAt }
  | _ => none

/-- Whether nothing will happen to the order any more. -/
def isClosed (r : OrderRow) : Bool :=
  r.status == "closed"

/-- The order type that a word means. -/
def typeOf (word : String) : Outcome ExchangeError OrderType :=
  if word = "limit" then .ok .limit
  else if word = "market" then .ok .market
  else if word = "stop" ∨ word = "trailingStop" then .ok .stop
  else if word = "takeProfit" then .ok .takeProfit
  else .error (.unexpected ("unknown order type " ++ Text.quoted word))

/-- The status that a word means for an order that is filled so far. A closed order that is not
filled was cancelled. -/
def statusOf (word : String) (size filled : Decimal) : Outcome ExchangeError OrderStatus :=
  if word = "closed" then .ok (if size ≤ filled then .filled else .cancelled)
  else if word = "open" ∧ filled.isPositive then .ok .partiallyFilled
  else if word = "new" ∨ word = "open" then .ok .new
  else .error (.unexpected ("unknown order status " ++ Text.quoted word))

/-- The order that the row means. FTX does not tell when an order changed last. -/
def toOrder (exchange : String) (r : OrderRow) : Outcome ExchangeError Order := do
  let side ← sideOf r.side
  let orderType ← typeOf r.kind
  let status ← statusOf r.status r.size r.filledSize
  return {
    orderId := Text.natText r.id
    clientOrderId := r.clientId
    exchange
    symbol := r.market
    side
    orderType
    price := r.price
    quantity := r.size
    executedQuantity := r.filledSize
    status
    createdAt := r.createdAt
    updatedAt := r.createdAt }

end OrderRow

/-- The frame of every answer: whether the request was granted, what was asked for, and why it was
refused. -/
structure Reply (α : Type) where
  success : Bool
  result : Option α
  error : Option String
  deriving Repr

/-- Reads an answer whose result is read by `decode`. -/
def Reply.ofJson? {α : Type} (decode : Json → Option α) (v : Json) : Option (Reply α) := do
  match ← v.fields? ["success", "result", "error"] with
  | [success, result, error] =>
    return {
      success := ← required asBool? success
      result := ← optional decode result
      error := ← optional asText? error }
  | _ => none

/-- Reads a result that can be anything; the frame is around it. -/
def anyResult? (v : Json) : Option Json :=
  if v.sound (deepest - 1) then some v else none

/-- Reads a list of rows. -/
def rows? {α : Type} (decode : Json → Option α) (v : Json) : Option (List α) := do
  (← asItems? v).mapM decode

/-- The body of a request to place an order. The price of a market order is null. -/
def orderBody (r : OrderRequest) : Json :=
  record [("market", text r.symbol), ("side", text r.side.name),
    ("price", nullable Decimal.toJson r.kind.price), ("type", text r.kind.orderType.name),
    ("size", r.quantity.toJson), ("clientId", text r.clientOrderId)]

end Tradebook.Ftx
