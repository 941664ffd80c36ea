import Tradebook.Exchange
import Tradebook.Time.Text

/-!
# Walking through a history

The exchange returns a history newest first: the newest rows of a span of time,
both ends included, and no more than a limit. What is wanted is the oldest rows
from an instant on.

So the walk goes forward from that instant one window at a time, and inside a
window backward from its end. A page of a window ends at the oldest row of the
page before it, so rows of that instant come again and are told apart by their
ids. A full page of rows that are all known means that one instant fills a page;
it is asked for again with a doubled limit until older rows show up. A window
without rows doubles the length of the next one.
-/

namespace Tradebook.Ftx

open Tradebook.Text

/-- What a walk needs to know about a row. -/
structure RowView (ρ : Type) where
  id : ρ → Nat
  time : ρ → Timestamp

/-- Asks for the newest rows of a span of time, both ends included. -/
abbrev Ask (σ ρ : Type) :=
  Timestamp → Timestamp → Nat → σ → Outcome ExchangeError (List ρ) × σ

namespace Walk

/-- Length of the first window, in seconds. -/
def firstSpan : Nat :=
  86400

/-- Length of the longest window, in seconds. -/
def longestSpan : Nat :=
  32 * 86400

/-- The largest page that is asked for. -/
def greatestPage : Nat :=
  5000

/-- What was found so far: the ids of all rows that came, and the rows that are wanted, in the
order in which they came. -/
structure Found (ρ : Type) where
  seen : List Nat
  rows : List ρ

/-- Nothing found yet. -/
def Found.none {ρ : Type} : Found ρ :=
  ⟨[], []⟩

/-- Takes a row in, unless it came before. -/
def Found.add {ρ : Type} (view : RowView ρ) (keep : ρ → Bool) (found : Found ρ) (row : ρ) :
    Found ρ :=
  if found.seen.contains (view.id row) then found
  else ⟨view.id row :: found.seen, if keep row then row :: found.rows else found.rows⟩

/-- The earliest of some instants. -/
def earliest? : List Timestamp → Option Timestamp
  | [] => none
  | t :: times => some (times.foldl Timestamp.earlier t)

/-- Why a walk gives up: one instant has more rows than the largest page. -/
def crowded (endpoint : String) (instant : Timestamp) : ExchangeError :=
  .other ("more than " ++ natText greatestPage ++ " " ++ endpoint ++ " rows share timestamp " ++
    instant.plainText)

/-- The pages of a window from `start` back from `upper`. `size` is that of the next page, and the
first argument bounds the number of pages. -/
def window {σ ρ : Type} (view : RowView ρ) (keep : ρ → Bool) (ask : Ask σ ρ) (endpoint : String)
    (pageSize : Nat) (start : Timestamp) :
    Nat → Timestamp → Nat → Found ρ → σ → Outcome ExchangeError (Found ρ) × σ
  | 0, _, _, _, s => (.exhausted, s)
  | steps + 1, upper, size, found, s =>
    match ask start upper size s with
    | (.error cause, s) => (.error cause, s)
    | (.overflow, s) => (.overflow, s)
    | (.exhausted, s) => (.exhausted, s)
    | (.ok page, s) =>
      match earliest? (page.map view.time) with
      | .none => (.ok found, s)
      | some oldest =>
        let more := page.foldl (Found.add view keep) found
        if page.length < size then (.ok more, s)
        else if found.seen.length < more.seen.length then
          window view keep ask endpoint pageSize start steps oldest pageSize more s
        else if greatestPage ≤ size then (.error (crowded endpoint oldest), s)
        else
          window view keep ask endpoint pageSize start steps upper (min (2 * size) greatestPage)
            more s

/-- The windows from `start` on until there are enough rows or `now` is reached. The first argument
bounds the number of windows, and that of pages in each. -/
def windows {σ ρ : Type} (view : RowView ρ) (keep : ρ → Bool) (ask : Ask σ ρ) (endpoint : String)
    (pageSize limit pages : Nat) (now : Timestamp) :
    Nat → Timestamp → Nat → Found ρ → σ → Outcome ExchangeError (List ρ) × σ
  | 0, _, _, _, s => (.exhausted, s)
  | steps + 1, start, span, found, s =>
    match start.addSeconds? span with
    | .none => (.overflow, s)
    | some reach =>
      let upper := reach.earlier now
      match window view keep ask endpoint pageSize start pages upper pageSize found s with
      | (.error cause, s) => (.error cause, s)
      | (.overflow, s) => (.overflow, s)
      | (.exhausted, s) => (.exhausted, s)
      | (.ok more, s) =>
        if limit ≤ more.rows.length ∨ now ≤ upper then (.ok more.rows.reverse, s)
        else
          let next :=
            if more.rows.length = found.rows.length then min (2 * span) longestSpan else span
          windows view keep ask endpoint pageSize limit pages now steps upper next more s

/-- Whether a row comes before another one: by time, then by id. -/
def inOrder {ρ : Type} (view : RowView ρ) (a b : ρ) : Bool :=
  view.time a < view.time b || (view.time a == view.time b && view.id a ≤ view.id b)

/-- The oldest `limit` rows from `since` on that are wanted, oldest first. A page holds at least one
row; `steps` bounds the number of windows and that of pages in each. -/
def since {σ ρ : Type} (view : RowView ρ) (keep : ρ → Bool) (ask : Ask σ ρ) (endpoint : String)
    (pageSize limit steps : Nat) (now since : Timestamp) (s : σ) :
    Outcome ExchangeError (List ρ) × σ :=
  match windows view keep ask endpoint (max 1 pageSize) limit steps now steps since firstSpan
    Found.none s with
  | (.ok rows, s) =>
    (.ok (((rows.filter fun r => since ≤ view.time r).mergeSort (inOrder view)).take limit), s)
  | ended => ended

end Walk

end Tradebook.Ftx
