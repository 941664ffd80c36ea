import Tradebook.Exchange
import Tradebook.OrderRequest.Codec
import Tradebook.Text.Digits

/-!
# A simulated exchange

An exchange that lives in memory, for dry runs. A market order is filled at once
and a limit order rests until it is cancelled. Its histories keep the promises of
`Exchange`: oldest first, from an instant on, no more than asked for. It writes
down what it was asked.
-/

namespace Tradebook

open Tradebook.Text

/-- A request as it is written down. -/
inductive ExchangeCall where
  | balances
  | markets
  | trades (symbol : String) (since : Timestamp) (limit : Nat)
  | closedOrders (symbol : String) (since : Timestamp) (limit : Nat)
  | openOrders (symbol : String)
  | submit (symbol : String)
  | cancel (request : CancelRequest)
  deriving DecidableEq, Repr

/-- The state of a simulated exchange. Ids are handed out in order, to fills and orders alike. -/
structure Simulated where
  name : String
  balances : Balances
  markets : List Market
  trades : List Trade
  orders : List Order
  calls : List ExchangeCall
  failingSymbols : List (String × String)
  failingAccount : Option String
  lastId : Nat
  deriving Repr

namespace Simulated

/-- An exchange where nothing has happened. -/
def new (name : String) : Simulated :=
  ⟨name, [], [], [], [], [], [], none, 0⟩

/-- Sets what is held of a currency, none of it locked. -/
def withBalance (x : Simulated) (currency : String) (total : Decimal) : Simulated :=
  { x with balances := x.balances.put ⟨currency, total, .zero⟩ }

/-- Lists one more market. -/
def withMarket (x : Simulated) (market : Market) : Simulated :=
  { x with markets := x.markets ++ [market] }

/-- Makes the histories of a symbol fail from now on. -/
def failSymbol (x : Simulated) (symbol message : String) : Simulated :=
  { x with failingSymbols := (symbol, message) :: x.failingSymbols }

/-- Makes the balances fail from now on. -/
def failAccount (x : Simulated) (message : String) : Simulated :=
  { x with failingAccount := some message }

/-- Records a fill. -/
def recordFill (x : Simulated) (symbol : String) (side : Side) (price quantity : Decimal)
    (instant : Timestamp) : Trade × Simulated :=
  let trade : Trade :=
    { id := natText (x.lastId + 1), exchange := x.name, symbol, side, price, quantity
      fee := .zero, feeCurrency := "", isMaker := false, orderId := none, tradedAt := instant }
  (trade, { x with trades := x.trades ++ [trade], lastId := x.lastId + 1 })

/-- Records a market order of any status. -/
def recordOrder (x : Simulated) (symbol : String) (side : Side) (status : OrderStatus)
    (quantity : Decimal) (instant : Timestamp) : Order × Simulated :=
  let order : Order :=
    { orderId := natText (x.lastId + 1), clientOrderId := none, exchange := x.name, symbol, side
      orderType := .market, price := none, quantity
      executedQuantity := if status = .filled then quantity else .zero
      status, createdAt := instant, updatedAt := instant }
  (order, { x with orders := x.orders ++ [order], lastId := x.lastId + 1 })

/-- Writes a request down. -/
def note (x : Simulated) (call : ExchangeCall) : Simulated :=
  { x with calls := x.calls ++ [call] }

/-- The answer, unless requests about the symbol fail. -/
def unlessFailing {α : Type} (x : Simulated) (symbol : String) (answer : α) :
    Outcome ExchangeError α :=
  match x.failingSymbols.lookup symbol with
  | some message => .error (.requestFailed message)
  | none => .ok answer

/-- The fills of a symbol from an instant on, oldest first. -/
def tradesSince (x : Simulated) (symbol : String) (since : Timestamp) : List Trade :=
  (x.trades.filter fun t => t.symbol == symbol && since ≤ t.tradedAt).mergeSort
    fun a b => a.tradedAt ≤ b.tradedAt

/-- The orders of a symbol that are closed, or those that are not, oldest first. -/
def ordersOf (x : Simulated) (symbol : String) (closed : Bool) : List Order :=
  (x.orders.filter fun o => o.symbol == symbol && o.status.isClosed == closed).mergeSort
    fun a b => a.createdAt ≤ b.createdAt

/-- The order that a request places at `now`. -/
def placed (x : Simulated) (request : OrderRequest) (now : Timestamp) : Order :=
  { orderId := natText (x.lastId + 1), clientOrderId := some request.clientOrderId
    exchange := x.name, symbol := request.symbol, side := request.side
    orderType := request.kind.orderType, price := request.kind.price, quantity := request.quantity
    executedQuantity := match request.kind with
      | .market => request.quantity
      | .limit _ => .zero
    status := match request.kind with
      | .market => .filled
      | .limit _ => .new
    createdAt := now, updatedAt := now }

/-- Whether a request means this order. -/
def meant (request : CancelRequest) (o : Order) : Bool :=
  match request with
  | .byOrderId id => o.orderId == id
  | .byClientOrderId id => o.clientOrderId == some id

/-- The orders with the first one that is meant cancelled, if that one is new. -/
def cancelFirst? (request : CancelRequest) (now : Timestamp) : List Order → Option (List Order)
  | [] => none
  | o :: orders =>
    if meant request o then
      if o.status = .new then some ({ o with status := .cancelled, updatedAt := now } :: orders)
      else none
    else (cancelFirst? request now orders).map (o :: ·)

/-- Places an order. -/
def submit (x : Simulated) (request : OrderRequest) (now : Timestamp) : Order × Simulated :=
  let x := x.note (.submit request.symbol)
  let order := x.placed request now
  (order, { x with orders := x.orders ++ [order], lastId := x.lastId + 1 })

/-- Cancels an order that rests. -/
def cancel (x : Simulated) (request : CancelRequest) (now : Timestamp) :
    Outcome ExchangeError Unit × Simulated :=
  let x := x.note (.cancel request)
  match cancelFirst? request now x.orders with
  | some orders => (.ok (), { x with orders })
  | none => (.error (.orderNotFound request.display), x)

end Simulated

/-- A simulated exchange as a part of a world: where its state is kept, and how late it is. -/
structure Simulated.Place (σ : Type) where
  get : σ → Simulated
  set : Simulated → σ → σ
  now : σ → Timestamp

/-- The simulated exchange at a place of a world. -/
def Simulated.exchange {σ : Type} (name : String) (place : Simulated.Place σ) : Exchange σ where
  name := name
  balances s :=
    let x := (place.get s).note .balances
    (match x.failingAccount with
      | some message => .error (.unauthenticated message)
      | none => .ok x.balances, place.set x s)
  markets s :=
    let x := (place.get s).note .markets
    (.ok x.markets, place.set x s)
  trades symbol since limit s :=
    let x := (place.get s).note (.trades symbol since limit)
    (x.unlessFailing symbol ((x.tradesSince symbol since).take limit), place.set x s)
  closedOrders symbol since limit s :=
    let x := (place.get s).note (.closedOrders symbol since limit)
    (x.unlessFailing symbol
      (((x.ordersOf symbol true).filter fun o => since ≤ o.createdAt).take limit), place.set x s)
  openOrders symbol s :=
    let x := (place.get s).note (.openOrders symbol)
    (x.unlessFailing symbol (x.ordersOf symbol false), place.set x s)
  submit request s :=
    let (order, x) := (place.get s).submit request (place.now s)
    (.ok order, place.set x s)
  cancel request s :=
    let (result, x) := (place.get s).cancel request (place.now s)
    (result, place.set x s)

end Tradebook
