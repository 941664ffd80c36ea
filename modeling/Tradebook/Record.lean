import Tradebook.Decimal
import Tradebook.Time.Timestamp

/-!
# What an exchange records

Fills and orders, as they are copied into the local store.
-/

namespace Tradebook

/-- Whether something is bought or sold. -/
inductive Side where
  | buy
  | sell
  deriving DecidableEq, Repr

/-- The word for a side. -/
def Side.name : Side → String
  | buy => "buy"
  | sell => "sell"

/-- What makes an order execute. -/
inductive OrderType where
  | market
  | limit
  | stop
  | takeProfit
  deriving DecidableEq, Repr

/-- The word for an order type. -/
def OrderType.name : OrderType → String
  | market => "market"
  | limit => "limit"
  | stop => "stop"
  | takeProfit => "take_profit"

/-- How far an order has come. -/
inductive OrderStatus where
  | new
  | partiallyFilled
  | filled
  | cancelled
  | rejected
  deriving DecidableEq, Repr

/-- The word for a status. -/
def OrderStatus.name : OrderStatus → String
  | new => "new"
  | partiallyFilled => "partially_filled"
  | filled => "filled"
  | cancelled => "cancelled"
  | rejected => "rejected"

/-- Whether nothing will happen to an order any more. -/
def OrderStatus.isClosed : OrderStatus → Bool
  | new => false
  | partiallyFilled => false
  | filled => true
  | cancelled => true
  | rejected => true

/-- The two histories that are copied. -/
inductive RecordKind where
  | trades
  | orders
  deriving DecidableEq, Repr

/-- The word for a history. -/
def RecordKind.name : RecordKind → String
  | trades => "trades"
  | orders => "orders"

/-- A fill. Its `id` is unique at its exchange. -/
structure Trade where
  id : String
  exchange : String
  symbol : String
  side : Side
  price : Decimal
  quantity : Decimal
  fee : Decimal
  feeCurrency : String
  isMaker : Bool
  orderId : Option String
  tradedAt : Timestamp
  deriving DecidableEq, Repr

/-- An order as its exchange knows it. Its `orderId` is unique at its exchange. -/
structure Order where
  orderId : String
  clientOrderId : Option String
  exchange : String
  symbol : String
  side : Side
  orderType : OrderType
  price : Option Decimal
  quantity : Decimal
  executedQuantity : Decimal
  status : OrderStatus
  createdAt : Timestamp
  updatedAt : Timestamp
  deriving DecidableEq, Repr

end Tradebook
