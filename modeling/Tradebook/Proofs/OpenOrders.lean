import Mathlib.Data.List.Nodup
import Tradebook.Proofs.SimulatedAccount

/-!
# Open orders, closed orders and cancellations

Three places look at the status of an order: the list of what is open, the list of what is
closed, and a cancellation. The two lists divide the orders between them, whatever statuses were
recorded (`listed_once`). A cancellation is stricter than the list of what is open: it wants an
order of which nothing was filled yet. An order that is placed is such a one as long as it is
open. But an order can be recorded as filled in part, and that one is open and cannot be
cancelled (`partlyFilled_stays_open`).

A cancellation looks for the first order of an id. Ids are handed out once, so there is no
second one in a `Reachable` account, and what is changed is the order that was meant
(`cancel_moves`).
-/

namespace Tradebook.Simulated

/-- The accounts that come of orders of any status, fills, and requests that are placed,
cancelled or only written down, in any order. -/
inductive Reachable : Simulated → Prop
  | start (name : String) (balances : Balances) (markets : List Market)
      (failingAccount : Option String) :
      Reachable { new name with balances, markets, failingAccount }
  | fill {x : Simulated} (symbol : String) (side : Side) (price quantity : Decimal)
      (instant : Timestamp) :
      Reachable x → Reachable (x.recordFill symbol side price quantity instant).2
  | order {x : Simulated} (symbol : String) (side : Side) (status : OrderStatus)
      (quantity : Decimal) (instant : Timestamp) :
      Reachable x → Reachable (x.recordOrder symbol side status quantity instant).2
  | submit {x : Simulated} (request : OrderRequest) (now : Timestamp) :
      Reachable x → Reachable (x.submit request now).2
  | cancel {x : Simulated} (request : CancelRequest) (now : Timestamp) :
      Reachable x → Reachable (x.cancel request now).2
  | ask {x : Simulated} (call : ExchangeCall) : Reachable x → Reachable (x.note call)

theorem Reachable.valid {x : Simulated} (h : Reachable x) : x.Valid := by
  induction h with
  | start name _ _ _ =>
      have hnew := valid_new name
      exact ⟨hnew.trade_exchange, hnew.order_exchange, hnew.trade_ids, hnew.order_ids⟩
  | fill symbol side price quantity instant _ ih =>
      exact ih.recordFill symbol side price quantity instant
  | order symbol side status quantity instant _ ih =>
      exact ih.recordOrder symbol side status quantity instant
  | submit request now _ ih => exact ih.submit request now
  | cancel request now _ ih => exact ih.cancel request now
  | ask call _ ih => exact ih.sameBooks (sameBooks_note _ call)

theorem failingSymbols_cancel (x : Simulated) (request : CancelRequest) (now : Timestamp) :
    (x.cancel request now).2.failingSymbols = x.failingSymbols := by
  rcases cancel_orders x request now with hsame | ⟨before, o, rest, -, -, hsame⟩ <;>
    exact hsame.failingSymbols_eq

/-- No request about a symbol fails unless it is made to. -/
theorem Reachable.failingSymbols_eq {x : Simulated} (h : Reachable x) :
    x.failingSymbols = [] := by
  induction h with
  | start => rfl
  | fill symbol side price quantity instant _ ih => exact ih
  | order symbol side status quantity instant _ ih => exact ih
  | submit request now _ ih => exact ih
  | cancel request now _ ih => rw [failingSymbols_cancel, ih]
  | ask call _ ih => exact ih

/-! ## The two lists -/

theorem mem_ordersOf {x : Simulated} {symbol : String} {closed : Bool} {o : Order} :
    o ∈ x.ordersOf symbol closed ↔
      o ∈ x.orders ∧ o.symbol = symbol ∧ o.status.isClosed = closed := by
  simp [ordersOf]

theorem ordersOf_perm (x : Simulated) (symbol : String) (closed : Bool) :
    (x.ordersOf symbol closed).Perm
      (x.orders.filter fun o => o.symbol == symbol && o.status.isClosed == closed) :=
  List.mergeSort_perm _ _

theorem Valid.nodup_ids {x : Simulated} (h : x.Valid) (symbol : String) (closed : Bool) :
    ((x.ordersOf symbol closed).map Order.orderId).Nodup :=
  ((x.ordersOf_perm symbol closed).map Order.orderId).nodup_iff.2
    (h.order_ids.nodup.sublist (List.filter_sublist.map Order.orderId))

theorem Valid.eq_of_orderId {x : Simulated} (h : x.Valid) {o p : Order} (ho : o ∈ x.orders)
    (hp : p ∈ x.orders) (hid : o.orderId = p.orderId) : o = p :=
  List.inj_on_of_nodup_map h.order_ids.nodup ho hp hid

/-- How many orders of a symbol, created from an instant on, are closed. -/
def closedSince (x : Simulated) (symbol : String) (since : Timestamp) : Nat :=
  x.orders.countP fun o => o.symbol = symbol ∧ since ≤ o.createdAt ∧ o.status.isClosed = true

/-- What an exchange says is open of a symbol, and what is closed. -/
def Lists {σ : Type} (e : Exchange σ) (s : σ) (symbol : String) (since : Timestamp)
    (limit : Nat) (opened closed : List Order) : Prop :=
  (e.openOrders symbol s).1 = .ok opened ∧ (e.closedOrders symbol since limit s).1 = .ok closed

section Answers

variable {σ : Type} {place : Place σ} {name : String} {s : σ} {symbol : String}
  {since : Timestamp} {limit : Nat}

theorem openOrders_iff (h : Reachable (place.get s)) {opened : List Order} :
    ((exchange name place).openOrders symbol s).1 = .ok opened ↔
      (place.get s).ordersOf symbol false = opened := by
  simp only [exchange, unlessFailing, note, h.failingSymbols_eq, List.lookup_nil,
    Outcome.ok.injEq]
  rfl

theorem closedOrders_iff (h : Reachable (place.get s)) {closed : List Order} :
    ((exchange name place).closedOrders symbol since limit s).1 = .ok closed ↔
      (((place.get s).ordersOf symbol true).filter fun o => since ≤ o.createdAt).take limit =
        closed := by
  simp only [exchange, unlessFailing, note, h.failingSymbols_eq, List.lookup_nil,
    Outcome.ok.injEq]
  rfl

/-- Nothing is cut off by a limit that is large enough. -/
theorem lists_iff_of_closedSince_le (h : Reachable (place.get s)) {opened closed : List Order}
    (hlimit : (place.get s).closedSince symbol since ≤ limit) :
    Lists (exchange name place) s symbol since limit opened closed ↔
      (place.get s).ordersOf symbol false = opened ∧
        ((place.get s).ordersOf symbol true).filter (fun o => since ≤ o.createdAt) = closed := by
  have hlength : (((place.get s).ordersOf symbol true).filter
      fun o => since ≤ o.createdAt).length = (place.get s).closedSince symbol since := by
    rw [← List.countP_eq_length_filter, (ordersOf_perm _ symbol true).countP_eq,
      List.countP_filter, closedSince]
    exact List.countP_congr fun o _ => by simp [and_left_comm]
  rw [Lists, openOrders_iff h, closedOrders_iff h, List.take_of_length_le (hlength ▸ hlimit)]

/-- The two lists hold every order, and none of them twice. -/
theorem listed_once (h : Reachable (place.get s)) {o : Order} (ho : o ∈ (place.get s).orders)
    (hsince : since ≤ o.createdAt)
    (hlimit : (place.get s).closedSince o.symbol since ≤ limit) :
    ∃ opened closed, Lists (exchange name place) s o.symbol since limit opened closed ∧
      (opened ++ closed).filter (fun p => p.orderId = o.orderId) = [o] := by
  refine ⟨_, _, (lists_iff_of_closedSince_le h hlimit).2 ⟨rfl, rfl⟩, ?_⟩
  set listed := (place.get s).ordersOf o.symbol false ++
    ((place.get s).ordersOf o.symbol true).filter fun p => since ≤ p.createdAt with hlisted
  have hmem : ∀ p ∈ listed, p ∈ (place.get s).orders := by
    intro p hp
    rcases List.mem_append.1 hp with hp | hp
    · exact (mem_ordersOf.1 hp).1
    · exact (mem_ordersOf.1 (List.mem_of_mem_filter hp)).1
  have hnodup : listed.Nodup := by
    refine List.nodup_append.2 ⟨(h.valid.nodup_ids _ _).of_map _,
      ((h.valid.nodup_ids _ _).of_map _).filter _, ?_⟩
    rintro p hp _ hp' rfl
    have hopen := (mem_ordersOf.1 hp).2.2
    rw [(mem_ordersOf.1 (List.mem_of_mem_filter hp')).2.2] at hopen
    cases hopen
  have hself : o ∈ listed := by
    rw [hlisted, List.mem_append, List.mem_filter, mem_ordersOf, mem_ordersOf]
    cases o.status.isClosed <;> simp [ho, hsince]
  calc listed.filter (fun p => p.orderId = o.orderId)
      = listed.filter (· == o) := List.filter_congr fun p hp => by
          rw [Bool.eq_iff_iff, decide_eq_true_iff, beq_iff_eq]
          exact ⟨h.valid.eq_of_orderId (hmem p hp) ho, fun heq => heq ▸ rfl⟩
    _ = [o] := by
          rw [List.filter_beq, List.count_eq_one_of_mem hnodup hself, List.replicate_one]

end Answers

/-! ## Cancelling -/

theorem cancel_of_some {x : Simulated} {request : CancelRequest} {now : Timestamp}
    {orders : List Order} (h : cancelFirst? request now x.orders = some orders) :
    x.cancel request now = (.ok (), { x with orders, calls := x.calls ++ [.cancel request] }) := by
  simp [cancel, note, h]

theorem cancel_of_none {x : Simulated} {request : CancelRequest} {now : Timestamp}
    (h : cancelFirst? request now x.orders = none) :
    x.cancel request now =
      (.error (.orderNotFound request.display),
        { x with calls := x.calls ++ [.cancel request] }) := by
  simp [cancel, note, h]

theorem cancelFirst?_append {request : CancelRequest} {now : Timestamp} {before rest : List Order}
    {o : Order} (hbefore : ∀ p ∈ before, meant request p = false) (hmeant : meant request o = true)
    (hnew : o.status = .new) :
    cancelFirst? request now (before ++ o :: rest) =
      some (before ++ { o with status := .cancelled, updatedAt := now } :: rest) := by
  induction before with
  | nil => rw [List.nil_append, cancelFirst?, if_pos hmeant, if_pos hnew, List.nil_append]
  | cons p before ih =>
      obtain ⟨hp, hbefore⟩ := List.forall_mem_cons.1 hbefore
      rw [List.cons_append, cancelFirst?, hp, ih hbefore]
      rfl

/-- A new order is found by its id, since no order before it has that id. -/
theorem Valid.cancelFirst?_of_new {x : Simulated} (h : x.Valid) {o : Order} (ho : o ∈ x.orders)
    (hnew : o.status = .new) (now : Timestamp) :
    ∃ orders, cancelFirst? (.byOrderId o.orderId) now x.orders = some orders := by
  obtain ⟨before, rest, hsplit⟩ := List.append_of_mem ho
  have hids := h.order_ids.nodup
  rw [hsplit, List.map_append, List.map_cons] at hids
  rw [hsplit]
  refine ⟨_, cancelFirst?_append (fun p hp => ?_) (beq_self_eq_true _) hnew⟩
  have hdiffer := (List.nodup_append.1 hids).2.2 p.orderId (List.mem_map_of_mem hp) o.orderId
    List.mem_cons_self
  exact beq_eq_false_iff_ne.2 hdiffer

theorem Valid.cancel_ok_iff {x : Simulated} (h : x.Valid) (id : String) (now : Timestamp) :
    (x.cancel (.byOrderId id) now).1 = .ok () ↔
      ∃ o ∈ x.orders, o.orderId = id ∧ o.status = .new := by
  constructor
  · intro hok
    cases hcancel : cancelFirst? (.byOrderId id) now x.orders with
    | none =>
        rw [cancel_of_none hcancel] at hok
        cases hok
    | some orders =>
        obtain ⟨before, o, rest, horders, hmeant, hnew, -⟩ := cancelFirst?_spec hcancel
        exact ⟨o, horders ▸ by simp, beq_iff_eq.1 hmeant, hnew⟩
  · rintro ⟨o, ho, rfl, hnew⟩
    obtain ⟨orders, hcancel⟩ := h.cancelFirst?_of_new ho hnew now
    rw [cancel_of_some hcancel]

theorem ordersOf_split {x : Simulated} {before rest : List Order} {p : Order}
    (horders : x.orders = before ++ p :: rest) (symbol : String) (closed : Bool) :
    (x.ordersOf symbol closed).Perm ((p :: (before ++ rest)).filter
      fun o => o.symbol == symbol && o.status.isClosed == closed) := by
  have hperm := x.ordersOf_perm symbol closed
  rw [horders] at hperm
  exact hperm.trans (List.perm_middle.filter _)

section Moved

variable {x x' : Simulated} {before rest : List Order} {o o' : Order}

/-- An order that is closed instead of open is in the other list now. -/
theorem ordersOf_moved (horders : x.orders = before ++ o :: rest)
    (horders' : x'.orders = before ++ o' :: rest) (hsymbol : o'.symbol = o.symbol)
    (hopen : o.status.isClosed = false) (hclosed : o'.status.isClosed = true) :
    (x.ordersOf o.symbol false).Perm (o :: x'.ordersOf o.symbol false) ∧
      (x'.ordersOf o.symbol true).Perm (o' :: x.ordersOf o.symbol true) := by
  have hopened := ordersOf_split horders o.symbol false
  have hopened' := ordersOf_split horders' o.symbol false
  have hshut := ordersOf_split horders o.symbol true
  have hshut' := ordersOf_split horders' o.symbol true
  rw [List.filter_cons_of_pos (by simp [hopen])] at hopened
  rw [List.filter_cons_of_neg (by simp [hclosed])] at hopened'
  rw [List.filter_cons_of_neg (by simp [hopen])] at hshut
  rw [List.filter_cons_of_pos (by simp [hsymbol, hclosed])] at hshut'
  exact ⟨hopened.trans (hopened'.symm.cons o), hshut'.trans (hshut.symm.cons o')⟩

/-- A limit that is large enough afterwards was large enough before. -/
theorem closedSince_moved (horders : x.orders = before ++ o :: rest)
    (horders' : x'.orders = before ++ o' :: rest) (hopen : o.status.isClosed = false)
    (symbol : String) (since : Timestamp) :
    x.closedSince symbol since ≤ x'.closedSince symbol since := by
  rw [closedSince, closedSince, horders, horders', List.countP_append, List.countP_append,
    List.countP_cons_of_neg (by simp [hopen])]
  exact Nat.add_le_add_left (List.Sublist.countP_le (List.sublist_cons_self o' rest)) _

/-- The orders of another symbol do not notice. -/
theorem ordersOf_other (horders : x.orders = before ++ o :: rest)
    (horders' : x'.orders = before ++ o' :: rest) (hsymbol : o'.symbol = o.symbol)
    {symbol : String} (hother : symbol ≠ o.symbol) (closed : Bool) :
    x'.ordersOf symbol closed = x.ordersOf symbol closed := by
  have hout : (o.symbol == symbol) = false := beq_eq_false_iff_ne.2 (Ne.symm hother)
  simp only [ordersOf, horders, horders', List.filter_append, List.filter_cons, hsymbol, hout,
    Bool.false_and, Bool.false_eq_true, if_false]

end Moved

/-- Between two states of an exchange an order moved from the open orders of its symbol to the
closed ones, where it is `o'`. Of other symbols the exchange says what it said. -/
structure Moves {σ : Type} (e : Exchange σ) (enough : Timestamp → Nat) (s s' : σ) (o o' : Order) :
    Prop where
  moved : ∀ {since limit opened closed}, since ≤ o.createdAt → enough since ≤ limit →
    Lists e s o.symbol since limit opened closed →
    ∃ opened' closed', Lists e s' o.symbol since limit opened' closed' ∧
      opened.Perm (o :: opened') ∧ closed'.Perm (o' :: closed)
  others : ∀ {symbol since limit opened closed}, symbol ≠ o.symbol →
    Lists e s symbol since limit opened closed → Lists e s' symbol since limit opened closed

section Cancelling

variable {σ : Type} {place : Place σ} {name : String} {s s' : σ}

theorem moves_of_orders (h : Reachable (place.get s)) (h' : Reachable (place.get s'))
    {before rest : List Order} {o o' : Order}
    (horders : (place.get s).orders = before ++ o :: rest)
    (horders' : (place.get s').orders = before ++ o' :: rest) (hsymbol : o'.symbol = o.symbol)
    (hcreated : o'.createdAt = o.createdAt) (hopen : o.status.isClosed = false)
    (hclosed : o'.status.isClosed = true) :
    Moves (exchange name place) ((place.get s').closedSince o.symbol) s s' o o' := by
  obtain ⟨hopened, hshut⟩ := ordersOf_moved horders horders' hsymbol hopen hclosed
  refine ⟨fun {since _ _ _} hsince hlimit hlists => ?_, fun hother hlists => ?_⟩
  · have hlimit' := le_trans (closedSince_moved horders horders' hopen _ _) hlimit
    obtain ⟨rfl, rfl⟩ := (lists_iff_of_closedSince_le h hlimit').1 hlists
    refine ⟨_, _, (lists_iff_of_closedSince_le h' hlimit).2 ⟨rfl, rfl⟩, hopened, ?_⟩
    have hfiltered := hshut.filter fun p => decide (since ≤ p.createdAt)
    rwa [List.filter_cons_of_pos (by rw [hcreated]; exact decide_eq_true hsince)] at hfiltered
  · rw [Lists, openOrders_iff h, closedOrders_iff h] at hlists
    rw [Lists, openOrders_iff h', closedOrders_iff h',
      ordersOf_other horders horders' hsymbol hother,
      ordersOf_other horders horders' hsymbol hother]
    exact hlists

theorem exchange_cancel (request : CancelRequest) :
    (exchange name place).cancel request s =
      (((place.get s).cancel request (place.now s)).1,
        place.set ((place.get s).cancel request (place.now s)).2 s) :=
  rfl

/-- A cancellation that succeeds changes one order, which was new, and moves it to the closed
ones. -/
theorem cancel_moves (hplace : ∀ x s, place.get (place.set x s) = x)
    (h : Reachable (place.get s)) {id : String}
    (hok : (exchange name place).cancel (.byOrderId id) s = (.ok (), s')) :
    ∃ before o rest, (place.get s).orders = before ++ o :: rest ∧ o.orderId = id ∧
      s' = place.set { place.get s with
        orders := before ++ { o with status := .cancelled, updatedAt := place.now s } :: rest
        calls := (place.get s).calls ++ [.cancel (.byOrderId id)] } s ∧
      Moves (exchange name place) ((place.get s').closedSince o.symbol) s s' o
        { o with status := .cancelled, updatedAt := place.now s } := by
  rw [exchange_cancel] at hok
  have h' : Reachable (place.get s') := by
    rw [← (Prod.mk.inj hok).2, hplace]
    exact h.cancel (.byOrderId id) (place.now s)
  cases hcancel : cancelFirst? (.byOrderId id) (place.now s) (place.get s).orders with
  | none =>
      rw [cancel_of_none hcancel] at hok
      cases (Prod.mk.inj hok).1
  | some orders =>
      obtain ⟨before, o, rest, horders, hmeant, hnew, rfl⟩ := cancelFirst?_spec hcancel
      rw [cancel_of_some hcancel] at hok
      obtain rfl := (Prod.mk.inj hok).2
      exact ⟨before, o, rest, horders, beq_iff_eq.1 hmeant, rfl,
        moves_of_orders h h' horders (by rw [hplace]) rfl rfl (by rw [hnew]; rfl) rfl⟩

/-- A cancellation that fails is written down, and that is all. -/
theorem cancel_failed {request : CancelRequest} {result : Outcome ExchangeError Unit}
    (hstep : (exchange name place).cancel request s = (result, s')) (hfailed : result ≠ .ok ()) :
    s' = place.set { place.get s with
      calls := (place.get s).calls ++ [.cancel request] } s := by
  rw [exchange_cancel] at hstep
  cases hcancel : cancelFirst? request (place.now s) (place.get s).orders with
  | none =>
      rw [cancel_of_none hcancel] at hstep
      exact (Prod.mk.inj hstep).2.symm
  | some orders =>
      rw [cancel_of_some hcancel] at hstep
      exact absurd (Prod.mk.inj hstep).1.symm hfailed

/-- What can be cancelled is what is open and not filled in part. -/
theorem cancel_ok_iff_open (h : Reachable (place.get s)) (id : String) :
    ((exchange name place).cancel (.byOrderId id) s).1 = .ok () ↔
      ∃ o opened, ((exchange name place).openOrders o.symbol s).1 = .ok opened ∧ o ∈ opened ∧
        o.orderId = id ∧ o.status ≠ .partiallyFilled := by
  have hopen : ∀ o : Order, o.status = .new ↔
      o.status.isClosed = false ∧ o.status ≠ .partiallyFilled := by
    intro o
    cases o.status <;> simp [OrderStatus.isClosed]
  rw [exchange_cancel, h.valid.cancel_ok_iff]
  simp only [openOrders_iff h, exists_eq_left', mem_ordersOf, hopen]
  exact exists_congr fun o => by tauto

/-- In an account that came about by any of its requests, every order is in one of the two lists
of its symbol, once. By its id an order is cancelled if it is open and not filled in part, and
then it moves from one list to the other, with another status and another instant of its last
change. A cancellation that fails is only written down. -/
theorem open_until_cancelled (hplace : ∀ x s, place.get (place.set x s) = x)
    (h : Reachable (place.get s)) :
    (∀ o ∈ (place.get s).orders, ∀ since limit, since ≤ o.createdAt →
      (place.get s).closedSince o.symbol since ≤ limit →
      ∃ opened closed, Lists (exchange name place) s o.symbol since limit opened closed ∧
        (opened ++ closed).filter (fun p => p.orderId = o.orderId) = [o]) ∧
    (∀ id, ((exchange name place).cancel (.byOrderId id) s).1 = .ok () ↔
      ∃ o opened, ((exchange name place).openOrders o.symbol s).1 = .ok opened ∧ o ∈ opened ∧
        o.orderId = id ∧ o.status ≠ .partiallyFilled) ∧
    (∀ id s', (exchange name place).cancel (.byOrderId id) s = (.ok (), s') →
      ∃ before o rest, (place.get s).orders = before ++ o :: rest ∧ o.orderId = id ∧
        s' = place.set { place.get s with
          orders := before ++ { o with status := .cancelled, updatedAt := place.now s } :: rest
          calls := (place.get s).calls ++ [.cancel (.byOrderId id)] } s ∧
        Moves (exchange name place) ((place.get s').closedSince o.symbol) s s' o
          { o with status := .cancelled, updatedAt := place.now s }) ∧
    ∀ request result s', (exchange name place).cancel request s = (result, s') →
      result ≠ .ok () →
      s' = place.set { place.get s with
        calls := (place.get s).calls ++ [.cancel request] } s :=
  ⟨fun _ ho _ _ hsince hlimit => listed_once h ho hsince hlimit,
    fun id => cancel_ok_iff_open h id,
    fun _ _ hok => cancel_moves hplace h hok,
    fun _ _ _ hstep hfailed => cancel_failed hstep hfailed⟩

end Cancelling

/-- An account by itself, a minute after the beginning of the count. -/
def alone : Place Simulated where
  get x := x
  set x _ := x
  now _ := (Timestamp.ofParts? 60 0).getD .epoch

def oneCoin : Decimal :=
  (Decimal.ofParts? 1 0).getD .zero

/-- An account with an order that was recorded as filled in part. -/
def partlyFilled : Simulated :=
  ((new "sim").recordOrder "BTCUSDT" .buy .partiallyFilled oneCoin .epoch).2

theorem reachable_partlyFilled : Reachable partlyFilled :=
  (Reachable.start "sim" [] [] none).order "BTCUSDT" .buy .partiallyFilled oneCoin .epoch

/-- A request for an order that rests. -/
def restingRequest : OrderRequest :=
  ⟨"BTCUSDT", .sell, .limit oneCoin, oneCoin, "mine"⟩

/-- The same account with a second order. -/
def resting : Simulated :=
  (partlyFilled.submit restingRequest .epoch).2

/-- The order that rests is cancelled, and the other one stays open. -/
theorem open_until_cancelled_resting :
    (∀ x s, alone.get (alone.set x s) = x) ∧ Reachable (alone.get resting) ∧
    ∃ s', (exchange "sim" alone).cancel (.byOrderId "2") resting = (.ok (), s') ∧
      s'.orders.map Order.status = [.partiallyFilled, .cancelled] ∧
      ∃ o o', o.orderId = "2" ∧ o'.status = .cancelled ∧
        Moves (exchange "sim" alone) (s'.closedSince o.symbol) resting s' o o' := by
  have hplace : ∀ x s, alone.get (alone.set x s) = x := fun _ _ => rfl
  have hreachable : Reachable (alone.get resting) :=
    reachable_partlyFilled.submit restingRequest .epoch
  obtain ⟨-, hiff, hmoves, -⟩ := @open_until_cancelled _ alone "sim" _ hplace hreachable
  have hok := (hiff "2").2 ⟨(partlyFilled.submit restingRequest .epoch).1, _,
    (openOrders_iff hreachable).2 rfl,
    mem_ordersOf.2 ⟨List.mem_append_right _ List.mem_cons_self, rfl, rfl⟩, by decide +kernel,
    by decide⟩
  obtain ⟨_, o, _, -, hid, -, hmoved⟩ := hmoves "2" _ (Prod.ext hok rfl)
  exact ⟨hplace, hreachable, _, Prod.ext hok rfl, by decide +kernel, o, _, hid, rfl, hmoved⟩

/-- An order that is open and of which a part was filled is not cancelled. -/
theorem partlyFilled_stays_open :
    Reachable partlyFilled ∧
    (∃ o opened, ((exchange "sim" alone).openOrders o.symbol partlyFilled).1 = .ok opened ∧
      o ∈ opened ∧ o.orderId = "1") ∧
    ((exchange "sim" alone).cancel (.byOrderId "1") partlyFilled).1 ≠ .ok () := by
  refine ⟨reachable_partlyFilled, ⟨_, _, (openOrders_iff reachable_partlyFilled).2 rfl,
    mem_ordersOf.2 ⟨List.mem_cons_self, rfl, rfl⟩, by decide +kernel⟩, by decide +kernel⟩

end Tradebook.Simulated
