import Mathlib.Logic.Function.Basic
import Tradebook.Database
import Tradebook.Proofs.SimulatedAccount

/-!
# Simulated accounts in front of one store

A `Desk` is a world of simulated accounts, one store, and all else there is: the
clock, the signal to stop, the failures of the store. Copying from an account
asks it for its records and writes them to the store; it changes the books of no
account (`SameBooks`), and the account keeps the promise that the loop relies on
(`serving_fills`, `serving_closedOrders`).
-/

namespace Tradebook

/-- Simulated accounts, a store, and all else. -/
structure Desk (ω : Type) where
  account : Nat → Simulated
  store : Store
  rest : ω

namespace Desk

variable {ω : Type}

/-- Where an account is kept. -/
def place (now : ω → Timestamp) (i : Nat) : Simulated.Place (Desk ω) where
  get d := d.account i
  set x d := { d with account := Function.update d.account i x }
  now d := now d.rest

theorem account_set (now : ω → Timestamp) (i : Nat) (x : Simulated) (d : Desk ω) :
    ((place now i).set x d).account i = x :=
  Function.update_self ..

/-- The exchange that an account is at. -/
def exchange (now : ω → Timestamp) (names : Nat → String) (i : Nat) :
    Exchange (Desk ω) :=
  Simulated.exchange (names i) (place now i)

/-- The signal to stop and the failures of the store, at a desk. -/
def around (outside : Surroundings ω) : Surroundings (Desk ω) where
  stopped d := outside.stopped d.rest
  refusal call d :=
    let answer := outside.refusal call d.rest
    (answer.1, { d with rest := answer.2 })

/-- The store of a desk as a database. -/
def database (outside : Surroundings ω) : Database (Desk ω) where
  connect _ d := (none, d)
  store := Desk.store
  keep store d := { d with store }
  around := around outside

/-- Nothing stops a copy, and the store does not fail. -/
def undisturbed : Surroundings ω where
  stopped _ := false
  refusal _ s := (none, s)

/-- A minute after the beginning of the count. -/
def minute : Timestamp :=
  { Timestamp.epoch with seconds := 60, first_le := by decide, le_last := by decide }

/-- The same books and the same store, whatever was asked for in between. -/
structure SameBooks (d d' : Desk ω) : Prop where
  account : ∀ i, (d.account i).SameBooks (d'.account i)
  store : d'.store = d.store

theorem SameBooks.refl (d : Desk ω) : SameBooks d d :=
  ⟨fun i => .refl (d.account i), rfl⟩

/-- A question to an account is written down in it, and nothing else happens. -/
theorem SameBooks.ask {d d' : Desk ω} (h : SameBooks d d') (now : ω → Timestamp)
    (i : Nat) (call : ExchangeCall) :
    SameBooks d ((place now i).set (((place now i).get d').note call) d') := by
  refine ⟨fun j => ?_, h.store⟩
  show (d.account j).SameBooks
    (Function.update d'.account i ((d'.account i).note call) j)
  by_cases hj : j = i
  · subst hj
    rw [Function.update_self]
    exact (h.account j).trans (Simulated.sameBooks_note _ call)
  · rw [Function.update_of_ne hj]
    exact h.account j

theorem SameBooks.refusal {d d' : Desk ω} (h : SameBooks d d') (outside : Surroundings ω)
    (call : StoreCall) : SameBooks d ((around outside).refusal call d').2 :=
  ⟨h.account, h.store⟩

end Desk

namespace Simulated

theorem page_of_unlessFailing {ρ : Type} {x : Simulated} {symbol : String}
    {answer rows : List ρ}
    (h : Fetched.ofOutcome (x.unlessFailing symbol answer) = .page rows) :
    rows = answer := by
  unfold unlessFailing at h
  split at h
  · cases h
  · exact (Fetched.page.inj h).symm

end Simulated

namespace Desk

variable {ω : Type} (outside : Surroundings ω) (now : ω → Timestamp)
  (names : Nat → String) (i : Nat) (symbol : String) (d : Desk ω)

variable {outside i symbol d} in
/-- An account serves every history that it answers out of its books, whatever calls it has
written down. -/
theorem serving_books {ρ : Type} {history : History (Desk ω) ρ} {records : List ρ}
    (call : Timestamp → Nat → ExchangeCall) (answer : Simulated → Timestamp → Nat → List ρ)
    (hfetch : ∀ since limit s, history.fetch since limit s =
      (Fetched.ofOutcome (((s.account i).note (call since limit)).unlessFailing symbol
        (answer ((s.account i).note (call since limit)) since limit)),
        (place now i).set ((s.account i).note (call since limit)) s))
    (hanswer : ∀ calls since limit,
      answer { d.account i with calls } since limit = answer (d.account i) since limit)
    (holdest : ∀ since limit,
      OldestPage history.time records since limit (answer (d.account i) since limit)) :
    Serving (around outside) history records (SameBooks d) where
  page := by
    intro since limit s rows s' hs hpage
    obtain ⟨calls, hbooks⟩ := hs.account i
    rw [hfetch] at hpage
    have hrows := Simulated.page_of_unlessFailing (congrArg Prod.fst hpage)
    rw [hbooks] at hrows
    rw [hrows.trans (hanswer _ since limit)]
    exact holdest since limit
  fetch since limit s hs := by
    rw [hfetch]
    exact hs.ask now i _
  refusal call s hs := hs.refusal outside call

theorem serving_fills :
    Serving (around outside) (History.trades (exchange now names i) symbol)
      ((d.account i).trades.filter fun t => t.symbol == symbol) (SameBooks d) :=
  serving_books now (.trades symbol) (fun x since limit => (x.tradesSince symbol since).take limit)
    (fun _ _ _ => rfl) (fun _ _ _ => rfl) (Simulated.oldestPage_tradesSince (d.account i) symbol)

theorem serving_closedOrders :
    Serving (around outside) (History.orders (exchange now names i) symbol)
      ((d.account i).closed.filter fun o => o.symbol == symbol) (SameBooks d) :=
  serving_books now (.closedOrders symbol)
    (fun x since limit =>
      ((x.ordersOf symbol true).filter fun o : Order => since ≤ o.createdAt).take limit)
    (fun _ _ _ => rfl) (fun _ _ _ => rfl) (Simulated.oldestPage_closedSince (d.account i) symbol)

end Desk

end Tradebook
