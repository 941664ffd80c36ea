import Tradebook.Record

/-!
# The local store

Fills and orders by exchange and id, in ascending order of these. Storing a fill
again changes nothing; storing an order again brings its status, its executed
quantity and its last change up to date and leaves the rest as it was. So pages
of history may overlap.
-/

namespace Tradebook

/-- What tells two records apart. -/
structure RecordKey where
  exchange : String
  id : String
  deriving DecidableEq, Repr

/-- By exchange, then by id. -/
def RecordKey.lt (a b : RecordKey) : Bool :=
  a.exchange < b.exchange || (a.exchange == b.exchange && a.id < b.id)

/-- The key of a fill. -/
def Trade.key (t : Trade) : RecordKey :=
  ⟨t.exchange, t.id⟩

/-- The key of an order. -/
def Order.key (o : Order) : RecordKey :=
  ⟨o.exchange, o.orderId⟩

/-- An order brought up to date by a later account of it. -/
def Order.refresh (stored latest : Order) : Order :=
  { stored with
    executedQuantity := latest.executedQuantity
    status := latest.status
    updatedAt := latest.updatedAt }

/-- A fill is never changed by a later account of it. -/
def keepStored (stored _latest : Trade) : Trade :=
  stored

/-- Puts a row in its place among rows in ascending order of their keys; `merge` makes one row of
the one that stands there and the new one. -/
def putRow {α : Type} (key : α → RecordKey) (merge : α → α → α) (row : α) : List α → List α
  | [] => [row]
  | stored :: rows =>
    if key row = key stored then merge stored row :: rows
    else if (key row).lt (key stored) then row :: stored :: rows
    else stored :: putRow key merge row rows

/-- The latest of some instants. -/
def latest? : List Timestamp → Option Timestamp
  | [] => none
  | t :: times => some (times.foldl Timestamp.later t)

/-- The copies of the histories. -/
structure Store where
  trades : List Trade
  orders : List Order
  deriving DecidableEq, Repr

namespace Store

/-- Nothing stored. -/
def empty : Store :=
  ⟨[], []⟩

/-- Stores a page of fills. -/
def insertTrades (rows : List Trade) (s : Store) : Store :=
  { s with
    trades := rows.foldl (fun stored row => putRow Trade.key keepStored row stored) s.trades }

/-- Stores a page of orders. -/
def upsertOrders (rows : List Order) (s : Store) : Store :=
  { s with orders := rows.foldl (fun stored row => putRow Order.key .refresh row stored) s.orders }

/-- How many of the fills are not stored yet. -/
def countNew (rows : List Trade) (s : Store) : Nat :=
  (s.insertTrades rows).trades.length - s.trades.length

/-- When the newest fill of a symbol at an exchange took place. -/
def lastTradeTime (exchange symbol : String) (s : Store) : Option Timestamp :=
  let rows := s.trades.filter fun t => t.exchange == exchange && t.symbol == symbol
  latest? (rows.map Trade.tradedAt)

/-- When the newest order of a symbol at an exchange was placed. -/
def lastOrderTime (exchange symbol : String) (s : Store) : Option Timestamp :=
  let rows := s.orders.filter fun o => o.exchange == exchange && o.symbol == symbol
  latest? (rows.map Order.createdAt)

end Store

end Tradebook
