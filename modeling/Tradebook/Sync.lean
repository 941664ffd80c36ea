import Tradebook.Exchange
import Tradebook.Store

/-!
# Copying a history into the store

A run resumes at the newest record that is stored, or at the requested start
where that is later, and goes forward page by page; every page is stored before
the next one is asked for. A page starts at the newest instant of the page before
it, inclusive, because more records of that instant may follow; the store knows
those it has.

A full page all of one instant does not get any further. It is asked for again
with twice the size until it comes back short or reaches a later instant.
Stepping over the instant would lose what is left of it.
-/

namespace Tradebook

/-- Why a run ended early. -/
inductive SyncError where
  | exchange (cause : ExchangeError)
  | store (detail : String)
  | cancelled
  deriving DecidableEq, Repr

/-- The wording of the error. -/
def SyncError.message : SyncError → String
  | exchange cause => cause.message
  | store detail => "Store error: " ++ detail
  | cancelled => "Sync cancelled"

/-- What comes of asking for a page. -/
inductive Fetched (ρ : Type) where
  | page (rows : List ρ)
  | failed (cause : ExchangeError)
  /-- The signal to stop came while the exchange was at work. -/
  | interrupted
  | overflow

/-- A page as an exchange returns it. -/
def Fetched.ofOutcome {ρ : Type} : Outcome ExchangeError (List ρ) → Fetched ρ
  | .ok rows => page rows
  | .error cause => failed cause
  | .overflow => overflow
  | .exhausted => interrupted

/-- The requests to a store, any of which may fail. -/
inductive StoreCall where
  | lastTradeTime
  | lastOrderTime
  | insertTrades
  | upsertOrders
  deriving DecidableEq, Repr

/-- What a run meets: the signal to stop, and the failures of the store. -/
structure Surroundings (σ : Type) where
  stopped : σ → Bool
  /-- The reason for which a request to the store fails, if it does. -/
  refusal : StoreCall → σ → Option String × σ

/-- A history to copy: how a page of it is fetched, and how it is stored. -/
structure History (σ ρ : Type) where
  fetch : Timestamp → Nat → σ → Fetched ρ × σ
  time : ρ → Timestamp
  newest : Store → Option Timestamp
  write : List ρ → Store → Store
  newestCall : StoreCall
  writeCall : StoreCall

namespace History

/-- The fills of a symbol. -/
def trades {σ : Type} (exchange : Exchange σ) (symbol : String) : History σ Trade where
  fetch since limit s :=
    let answer := exchange.trades symbol since limit s
    (Fetched.ofOutcome answer.1, answer.2)
  time := Trade.tradedAt
  newest := Store.lastTradeTime exchange.name symbol
  write := Store.insertTrades
  newestCall := .lastTradeTime
  writeCall := .insertTrades

/-- The closed orders of a symbol. -/
def orders {σ : Type} (exchange : Exchange σ) (symbol : String) : History σ Order where
  fetch since limit s :=
    let answer := exchange.closedOrders symbol since limit s
    (Fetched.ofOutcome answer.1, answer.2)
  time := Order.createdAt
  newest := Store.lastOrderTime exchange.name symbol
  write := Store.upsertOrders
  newestCall := .lastOrderTime
  writeCall := .upsertOrders

end History

namespace Sync

/-- The page size used where none is given. -/
def defaultPageLimit : Nat :=
  100

/-- The greatest page size. -/
def greatestLimit : Nat :=
  0xFFFFFFFFFFFFFFFF

/-- Where a run begins. Records of the newest stored instant may be missing, so it is included. -/
def resumePoint (start : Timestamp) (newest : Option Timestamp) : Timestamp :=
  match newest with
  | some t => if start < t then t else start
  | none => start

/-- Start and size of the page after a full one. -/
def nextPage (cursor newest : Timestamp) (limit pageLimit : Nat) : Timestamp × Nat :=
  if cursor < newest then (newest, pageLimit) else (cursor, min (2 * limit) greatestLimit)

/-- A page and those after it. The first argument bounds their number. -/
def pages {σ ρ : Type} (around : Surroundings σ) (history : History σ ρ) (pageLimit : Nat) :
    Nat → Timestamp → Nat → Store → σ → Outcome SyncError Unit × Store × σ
  | 0, _, _, store, s => (.exhausted, store, s)
  | steps + 1, cursor, limit, store, s =>
    if around.stopped s then (.error .cancelled, store, s)
    else
      match history.fetch cursor limit s with
      | (.failed cause, s) => (.error (.exchange cause), store, s)
      | (.interrupted, s) => (.error .cancelled, store, s)
      | (.overflow, s) => (.overflow, store, s)
      | (.page rows, s) =>
        match latest? (rows.map history.time) with
        | none => (.ok (), store, s)
        | some newest =>
          match around.refusal history.writeCall s with
          | (some reason, s) => (.error (.store reason), store, s)
          | (none, s) =>
            let store := history.write rows store
            if rows.length < limit then (.ok (), store, s)
            else
              let next := nextPage cursor newest limit pageLimit
              pages around history pageLimit steps next.1 next.2 store s

/-- Copies a history from `start` on, with at most `steps` pages. A page holds at least one
record. -/
def run {σ ρ : Type} (around : Surroundings σ) (history : History σ ρ) (pageLimit steps : Nat)
    (start : Timestamp) (store : Store) (s : σ) : Outcome SyncError Unit × Store × σ :=
  match around.refusal history.newestCall s with
  | (some reason, s) => (.error (.store reason), store, s)
  | (none, s) =>
    let limit := max 1 pageLimit
    pages around history limit steps (resumePoint start (history.newest store)) limit store s

end Sync

end Tradebook
