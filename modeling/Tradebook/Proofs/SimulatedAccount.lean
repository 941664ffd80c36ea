import Tradebook.Exchange.Simulated
import Tradebook.Proofs.SyncPages

/-!
# What a simulated account holds

Every record of a simulated account carries the account's name and an id that no
other record of its kind has (`Simulated.Valid`). A fresh account is so, and
whatever is done with it keeps it so: ids are handed out by counting, and a
cancellation changes neither the id of an order nor its place.

Orders that are closed stay as they are. Only a new order can be cancelled, and
nothing else changes an order (`mem_orders_of_closed`).

Both history queries keep the promise of `OldestPage`.
-/

namespace Tradebook

open Tradebook.Text

theorem natText_injective : Function.Injective natText := by
  intro n m h
  have hdigits := congrArg String.toList h
  simp only [natText, String.toList_ofList] at hdigits
  have hvalue := congrArg ofDigits hdigits
  rwa [ofDigits_decimalDigits, ofDigits_decimalDigits] at hvalue

namespace Simulated

/-- Ids that were handed out by counting up to `last`, each of them once. -/
structure Issued (ids : List String) (last : Nat) : Prop where
  counted : ∀ id ∈ ids, ∃ n ≤ last, id = natText n
  nodup : ids.Nodup

theorem Issued.mono {ids : List String} {last last' : Nat} (h : Issued ids last)
    (hle : last ≤ last') : Issued ids last' := by
  refine ⟨fun id hid => ?_, h.nodup⟩
  obtain ⟨n, hn, rfl⟩ := h.counted id hid
  exact ⟨n, le_trans hn hle, rfl⟩

theorem Issued.next {ids : List String} {last : Nat} (h : Issued ids last) :
    Issued (ids ++ [natText (last + 1)]) (last + 1) := by
  constructor
  · intro id hid
    rcases List.mem_append.1 hid with hid | hid
    · exact (h.mono (Nat.le_succ last)).counted id hid
    · exact ⟨last + 1, le_refl _, List.mem_singleton.1 hid⟩
  · refine List.nodup_append.2 ⟨h.nodup, List.nodup_singleton _, ?_⟩
    intro id hid id' hid' heq
    obtain ⟨n, hn, rfl⟩ := h.counted id hid
    rw [List.mem_singleton.1 hid'] at heq
    have := natText_injective heq
    omega

/-- The records of an account are its own, and their ids tell them apart. -/
structure Valid (x : Simulated) : Prop where
  trade_exchange : ∀ t ∈ x.trades, t.exchange = x.name
  order_exchange : ∀ o ∈ x.orders, o.exchange = x.name
  trade_ids : Issued (x.trades.map Trade.id) x.lastId
  order_ids : Issued (x.orders.map Order.orderId) x.lastId

theorem valid_new (name : String) : (new name).Valid :=
  ⟨by simp [new], by simp [new], ⟨by simp [new], by simp [new]⟩,
    ⟨by simp [new], by simp [new]⟩⟩

/-- The same account, whatever was asked of it since. -/
def SameBooks (x y : Simulated) : Prop :=
  ∃ calls, y = { x with calls }

theorem SameBooks.refl (x : Simulated) : SameBooks x x := ⟨x.calls, rfl⟩

theorem SameBooks.trans {x y z : Simulated} (hxy : SameBooks x y) (hyz : SameBooks y z) :
    SameBooks x z := by
  obtain ⟨calls, rfl⟩ := hxy
  obtain ⟨calls', rfl⟩ := hyz
  exact ⟨calls', rfl⟩

theorem sameBooks_note (x : Simulated) (call : ExchangeCall) : SameBooks x (x.note call) :=
  ⟨_, rfl⟩

/-! ## Placing, recording and cancelling -/

theorem Valid.addOrder {x : Simulated} (h : x.Valid) {order : Order}
    (hid : order.orderId = natText (x.lastId + 1)) (hname : order.exchange = x.name) :
    ({ x with orders := x.orders ++ [order], lastId := x.lastId + 1 } : Simulated).Valid := by
  refine ⟨h.trade_exchange, fun o ho => ?_, h.trade_ids.mono (Nat.le_succ _), ?_⟩
  · rcases List.mem_append.1 ho with ho | ho
    · exact h.order_exchange o ho
    · rw [List.mem_singleton.1 ho]
      exact hname
  · show Issued ((x.orders ++ [order]).map Order.orderId) (x.lastId + 1)
    rw [List.map_append, List.map_singleton, hid]
    exact h.order_ids.next

theorem Valid.recordFill {x : Simulated} (h : x.Valid) (symbol : String) (side : Side)
    (price quantity : Decimal) (instant : Timestamp) :
    (x.recordFill symbol side price quantity instant).2.Valid := by
  refine ⟨fun t ht => ?_, h.order_exchange, ?_, h.order_ids.mono (Nat.le_succ _)⟩
  · rcases List.mem_append.1 ht with ht | ht
    · exact h.trade_exchange t ht
    · rw [List.mem_singleton.1 ht]
      rfl
  · show Issued ((x.trades ++ [_]).map Trade.id) (x.lastId + 1)
    rw [List.map_append, List.map_singleton]
    exact h.trade_ids.next

theorem Valid.recordOrder {x : Simulated} (h : x.Valid) (symbol : String) (side : Side)
    (status : OrderStatus) (quantity : Decimal) (instant : Timestamp) :
    (x.recordOrder symbol side status quantity instant).2.Valid :=
  h.addOrder rfl rfl

theorem Valid.submit {x : Simulated} (h : x.Valid) (request : OrderRequest)
    (now : Timestamp) : (x.submit request now).2.Valid :=
  Valid.addOrder (x := x.note _) ⟨h.trade_exchange, h.order_exchange, h.trade_ids, h.order_ids⟩
    rfl rfl

/-- A cancellation changes the status and the last change of one new order that is meant. -/
theorem cancelFirst?_spec {request : CancelRequest} {now : Timestamp}
    {orders after : List Order} (h : cancelFirst? request now orders = some after) :
    ∃ before o rest, orders = before ++ o :: rest ∧ meant request o = true ∧ o.status = .new ∧
      after = before ++ { o with status := .cancelled, updatedAt := now } :: rest := by
  induction orders generalizing after with
  | nil => simp [cancelFirst?] at h
  | cons o orders ih =>
      rw [cancelFirst?] at h
      split at h
      · next hmeant =>
          split at h
          · next hnew =>
              exact ⟨[], o, orders, rfl, hmeant, hnew, (Option.some.inj h).symm⟩
          · cases h
      · obtain ⟨tail, htail, rfl⟩ := Option.map_eq_some_iff.1 h
        obtain ⟨before, o', rest, rfl, hmeant, hnew, rfl⟩ := ih htail
        exact ⟨o :: before, o', rest, rfl, hmeant, hnew, rfl⟩

/-- What becomes of the orders when a cancellation is asked for. -/
theorem cancel_orders (x : Simulated) (request : CancelRequest) (now : Timestamp) :
    SameBooks x (x.cancel request now).2 ∨
      ∃ before o rest, x.orders = before ++ o :: rest ∧ o.status = .new ∧
        SameBooks { x with orders := before ++
          { o with status := .cancelled, updatedAt := now } :: rest }
          (x.cancel request now).2 := by
  simp only [cancel]
  cases hcancel : cancelFirst? request now (x.note (.cancel request)).orders with
  | none => exact Or.inl (sameBooks_note x _)
  | some after =>
      obtain ⟨before, o, rest, horders, -, hnew, rfl⟩ := cancelFirst?_spec hcancel
      exact Or.inr ⟨before, o, rest, horders, hnew, _, rfl⟩

theorem SameBooks.trades_eq {x y : Simulated} (h : SameBooks x y) :
    y.trades = x.trades := by
  obtain ⟨calls, rfl⟩ := h
  rfl

theorem SameBooks.failingSymbols_eq {x y : Simulated} (h : SameBooks x y) :
    y.failingSymbols = x.failingSymbols := by
  obtain ⟨calls, rfl⟩ := h
  rfl

theorem SameBooks.name_eq {x y : Simulated} (h : SameBooks x y) : y.name = x.name := by
  obtain ⟨calls, rfl⟩ := h
  rfl

theorem name_cancel (x : Simulated) (request : CancelRequest) (now : Timestamp) :
    (x.cancel request now).2.name = x.name := by
  rcases cancel_orders x request now with hsame | ⟨before, o, rest, -, -, hsame⟩ <;>
    exact hsame.name_eq

theorem Valid.sameBooks {x y : Simulated} (h : x.Valid) (hsame : SameBooks x y) :
    y.Valid := by
  obtain ⟨calls, rfl⟩ := hsame
  exact ⟨h.trade_exchange, h.order_exchange, h.trade_ids, h.order_ids⟩

theorem Valid.cancel {x : Simulated} (h : x.Valid) (request : CancelRequest)
    (now : Timestamp) : (x.cancel request now).2.Valid := by
  rcases cancel_orders x request now with hsame | ⟨before, o, rest, horders, -, hsame⟩
  · exact h.sameBooks hsame
  · have hown := h.order_exchange
    have hids := h.order_ids
    rw [horders] at hown hids
    have hafter : ({ x with orders := before ++
        { o with status := .cancelled, updatedAt := now } :: rest } : Simulated).Valid := by
      refine ⟨h.trade_exchange, fun o' ho' => ?_, h.trade_ids, ?_⟩
      · rcases List.mem_append.1 ho' with ho' | ho'
        · exact hown o' (by simp [ho'])
        · rcases List.mem_cons.1 ho' with rfl | ho'
          · exact hown o (by simp)
          · exact hown o' (by simp [ho'])
      · rw [List.map_append, List.map_cons] at hids ⊢
        exact hids
    exact hafter.sameBooks hsame

/-! ## Closed orders -/

/-- The orders nothing will happen to any more. -/
def closed (x : Simulated) : List Order :=
  x.orders.filter fun o => o.status.isClosed

theorem mem_closed {x : Simulated} {o : Order} :
    o ∈ x.closed ↔ o ∈ x.orders ∧ o.status.isClosed = true :=
  List.mem_filter

theorem SameBooks.closed_eq {x y : Simulated} (h : SameBooks x y) : y.closed = x.closed := by
  obtain ⟨calls, rfl⟩ := h
  rfl

theorem closed_submit {x : Simulated} {o : Order} (h : o ∈ x.closed)
    (request : OrderRequest) (now : Timestamp) : o ∈ (x.submit request now).2.closed := by
  rw [mem_closed] at h ⊢
  exact ⟨List.mem_append_left _ h.1, h.2⟩

theorem closed_recordOrder {x : Simulated} {o : Order} (h : o ∈ x.closed) (symbol : String)
    (side : Side) (status : OrderStatus) (quantity : Decimal) (instant : Timestamp) :
    o ∈ (x.recordOrder symbol side status quantity instant).2.closed := by
  rw [mem_closed] at h ⊢
  exact ⟨List.mem_append_left _ h.1, h.2⟩

/-- Only a new order can be cancelled, so those that are closed stay as they are. -/
theorem closed_cancel {x : Simulated} {o : Order} (h : o ∈ x.closed)
    (request : CancelRequest) (now : Timestamp) : o ∈ (x.cancel request now).2.closed := by
  rcases cancel_orders x request now with hsame | ⟨before, o', rest, horders, hnew, hsame⟩
  · rw [hsame.closed_eq]
    exact h
  · rw [hsame.closed_eq]
    rw [mem_closed] at h ⊢
    refine ⟨?_, h.2⟩
    obtain ⟨hmem, hclosed⟩ := h
    rw [horders, List.mem_append, List.mem_cons] at hmem
    rw [List.mem_append, List.mem_cons]
    rcases hmem with hmem | rfl | hmem
    · exact Or.inl hmem
    · rw [hnew] at hclosed
      cases hclosed
    · exact Or.inr (Or.inr hmem)

/-! ## The history queries -/

section Queries

variable {ρ : Type} {time : ρ → Timestamp}

/-- A stable sort by time has the oldest first. -/
theorem pairwise_oldestFirst (records : List ρ) :
    (records.mergeSort fun a b => time a ≤ time b).Pairwise fun a b => time a ≤ time b := by
  have hsorted : (records.mergeSort fun a b => time a ≤ time b).Pairwise
      fun a b => decide (time a ≤ time b) = true :=
    List.pairwise_mergeSort
      (fun a b c hab hbc => by
        simpa using le_trans (of_decide_eq_true hab) (of_decide_eq_true hbc))
      (fun a b => by simpa using le_total (time a) (time b)) records
  exact hsorted.imp fun h => by simpa using h

end Queries

theorem oldestPage_tradesSince (x : Simulated) (symbol : String) (since : Timestamp)
    (limit : Nat) :
    OldestPage Trade.tradedAt (x.trades.filter fun t => t.symbol == symbol) since limit
      ((x.tradesSince symbol since).take limit) := by
  refine .of_ordered ?_ (pairwise_oldestFirst _)
  refine (List.mergeSort_perm _ _).trans (List.Perm.of_eq ?_)
  rw [List.filter_filter]
  exact List.filter_congr fun t _ => Bool.and_comm _ _

theorem oldestPage_closedSince (x : Simulated) (symbol : String) (since : Timestamp)
    (limit : Nat) :
    OldestPage Order.createdAt (x.closed.filter fun o => o.symbol == symbol) since limit
      (((x.ordersOf symbol true).filter fun o => since ≤ o.createdAt).take limit) := by
  refine .of_ordered ?_ ((pairwise_oldestFirst _).filter _)
  refine ((List.mergeSort_perm _ _).filter _).trans (List.Perm.of_eq ?_)
  rw [closed, List.filter_filter, List.filter_filter, List.filter_filter]
  refine List.filter_congr fun o _ => ?_
  cases o.status.isClosed <;> simp

end Simulated

end Tradebook
