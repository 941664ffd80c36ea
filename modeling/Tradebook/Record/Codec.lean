import Tradebook.Account.Codec
import Tradebook.Record
import Tradebook.Time.Text

/-!
# Fills and orders as JSON
-/

namespace Tradebook

open Json

/-- An instant is written as a text. -/
def Timestamp.toJson (t : Timestamp) : Json :=
  .text t.text

/-- The case that a word of the list names. -/
def caseOfName? {α : Type} (name : α → String) (cases : List α) (v : Json) : Option α :=
  match asName? v with
  | some word => cases.find? (name · = word)
  | none => none

namespace Side

def toJson (s : Side) : Json :=
  text s.name

def ofJson? (v : Json) : Option Side :=
  caseOfName? name [buy, sell] v

end Side

namespace OrderType

def toJson (t : OrderType) : Json :=
  text t.name

def ofJson? (v : Json) : Option OrderType :=
  caseOfName? name [market, limit, stop, takeProfit] v

end OrderType

namespace OrderStatus

def toJson (s : OrderStatus) : Json :=
  text s.name

def ofJson? (v : Json) : Option OrderStatus :=
  caseOfName? name [new, partiallyFilled, filled, cancelled, rejected] v

end OrderStatus

namespace RecordKind

def toJson (k : RecordKind) : Json :=
  text k.name

def ofJson? (v : Json) : Option RecordKind :=
  caseOfName? name [trades, orders] v

end RecordKind

namespace Trade

def toJson (t : Trade) : Json :=
  record [("id", text t.id), ("exchange", text t.exchange), ("symbol", text t.symbol),
    ("side", t.side.toJson), ("price", t.price.toJson), ("quantity", t.quantity.toJson),
    ("fee", t.fee.toJson), ("fee_currency", text t.feeCurrency), ("is_maker", bool t.isMaker),
    ("order_id", nullable text t.orderId), ("traded_at", t.tradedAt.toJson)]

def ofJson? (v : Json) : Option Trade := do
  match ← v.fields? ["id", "exchange", "symbol", "side", "price", "quantity", "fee",
    "fee_currency", "is_maker", "order_id", "traded_at"] with
  | [id, exchange, symbol, side, price, quantity, fee, feeCurrency, isMaker, orderId, tradedAt] =>
    return {
      id := ← required asText? id
      exchange := ← required asText? exchange
      symbol := ← required asText? symbol
      side := ← required Side.ofJson? side
      price := ← required asDecimal? price
      quantity := ← required asDecimal? quantity
      fee := ← required asDecimal? fee
      feeCurrency := ← required asText? feeCurrency
      isMaker := ← required asBool? isMaker
      orderId := ← optional asText? orderId
      tradedAt := ← required asTimestamp? tradedAt }
  | _ => none

end Trade

namespace Order

def toJson (o : Order) : Json :=
  record [("order_id", text o.orderId), ("client_order_id", nullable text o.clientOrderId),
    ("exchange", text o.exchange), ("symbol", text o.symbol), ("side", o.side.toJson),
    ("order_type", o.orderType.toJson), ("price", nullable Decimal.toJson o.price),
    ("quantity", o.quantity.toJson), ("executed_quantity", o.executedQuantity.toJson),
    ("status", o.status.toJson), ("created_at", o.createdAt.toJson),
    ("updated_at", o.updatedAt.toJson)]

def ofJson? (v : Json) : Option Order := do
  match ← v.fields? ["order_id", "client_order_id", "exchange", "symbol", "side", "order_type",
    "price", "quantity", "executed_quantity", "status", "created_at", "updated_at"] with
  | [orderId, clientOrderId, exchange, symbol, side, orderType, price, quantity,
      executedQuantity, status, createdAt, updatedAt] =>
    return {
      orderId := ← required asText? orderId
      clientOrderId := ← optional asText? clientOrderId
      exchange := ← required asText? exchange
      symbol := ← required asText? symbol
      side := ← required Side.ofJson? side
      orderType := ← required OrderType.ofJson? orderType
      price := ← optional asDecimal? price
      quantity := ← required asDecimal? quantity
      executedQuantity := ← required asDecimal? executedQuantity
      status := ← required OrderStatus.ofJson? status
      createdAt := ← required asTimestamp? createdAt
      updatedAt := ← required asTimestamp? updatedAt }
  | _ => none

end Order

end Tradebook
