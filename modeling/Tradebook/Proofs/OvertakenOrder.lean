import Mathlib
import Tradebook.Proofs.Ledger

/-!
# Orders that close late

A copy of closed orders resumes at the newest stored order, by the instants at
which orders were placed. An order can be copied once it is closed. So an order
that rests while a newer one is placed, closed and copied is passed by: when it
closes at last, no copy asks for it any more.

`Reached` are the runs of a simulated exchange that is dealt with in any way, in
any order, under a clock that never goes back, with copies of one symbol in
between. `stored_iff_never_overtaken` says exactly which closed orders are in the
store after a copy that ended well: those that were at no moment still to be closed
while a newer order was stored. `overtaken_order_is_missing` is a run in which an
order is not.

The invariant of the runs (`Kept`) has two halves. What is stored was never
overtaken before it was closed, because a copy takes in nothing that a stored order
has overtaken. What is due and not stored, and was never overtaken before it
was closed, is not overtaken now, so the next copy asks for it.
-/

namespace Tradebook.Desk

section Runs

variable {ω : Type} (outside : Surroundings ω) (now : ω → Timestamp)
  (names : Nat → String) (i : Nat) (symbol : String) (start : Timestamp)

/-- What may happen: the account is dealt with, time passes, or its closed orders
are copied. -/
inductive Step : Desk ω → Desk ω → Prop
  | submit {d : Desk ω} (request : OrderRequest) :
      Step d ((exchange now names i).submit request d).2
  | cancel {d : Desk ω} (request : CancelRequest) :
      Step d ((exchange now names i).cancel request d).2
  | record {d : Desk ω} (symbol : String) (side : Side) (status : OrderStatus)
      (quantity : Decimal) (instant : Timestamp) :
      Step d ((place now i).set
        ((d.account i).recordOrder symbol side status quantity instant).2 d)
  | pass {d : Desk ω} (rest : ω) (hclock : now d.rest ≤ now rest) :
      Step d { d with rest }
  | copy {d : Desk ω} (pageLimit steps : Nat) :
      Step d ((database outside).syncKind (exchange now names i) pageLimit steps .orders
        symbol start d).2

/-- A run from a fresh account and an empty store, with the moments it has passed. -/
inductive Reached : List (Desk ω) → Desk ω → Prop
  | fresh {d : Desk ω} (haccount : d.account i = .new (names i))
      (hstore : d.store = .empty) : Reached [] d
  | step {past : List (Desk ω)} {d d' : Desk ω} (h : Reached past d)
      (hstep : Step outside now names i symbol start d d') : Reached (d :: past) d'

/-- At none of the moments was the order still to be closed while a newer one was
stored. -/
def NeverOvertaken (past : List (Desk ω)) (o : Order) : Prop :=
  ∀ v ∈ past, o ∉ (v.account i).closed → ¬ Ledger.closedOrders.Overtaken v.store.orders o

/-- What holds all along a run. -/
structure Kept (past : List (Desk ω)) (d : Desk ω) : Prop where
  valid : (d.account i).Valid
  name : (d.account i).name = names i
  ascending : d.store.Ascending
  due : ∀ o ∈ d.store.orders, Ledger.closedOrders.Due (d.account i) symbol start o
  grown : ∀ v ∈ past, ∀ o ∈ v.store.orders, o ∈ d.store.orders
  stored : ∀ o ∈ d.store.orders, NeverOvertaken i past o
  missing : ∀ o, Ledger.closedOrders.Due (d.account i) symbol start o →
    o ∉ d.store.orders → NeverOvertaken i past o →
    ¬ Ledger.closedOrders.Overtaken d.store.orders o

end Runs

section Invariant

variable {ω : Type} {outside : Surroundings ω} {now : ω → Timestamp}
  {names : Nat → String} {i : Nat} {symbol : String} {start : Timestamp}
  {past : List (Desk ω)} {d d' : Desk ω}

theorem kept_fresh (haccount : d.account i = .new (names i)) (hstore : d.store = .empty) :
    Kept names i symbol start [] d := by
  have hnone : ∀ o, o ∉ d.store.orders := by simp [hstore, Store.empty]
  refine ⟨?_, ?_, ?_, fun o ho => absurd ho (hnone o), by simp,
    fun o ho => absurd ho (hnone o), ?_⟩
  · rw [haccount]
    exact Simulated.valid_new (names i)
  · rw [haccount]
    rfl
  · rw [hstore]
    exact Store.ascending_empty
  · rintro o - - - ⟨u, hu, -⟩
    exact hnone u hu

theorem Kept.agree (h : Kept names i symbol start past d) :
    Ledger.closedOrders.Agree (d.account i) d.store.orders :=
  fun u hu r hr hkey =>
    (Ledger.own_closedOrders h.valid).key u (h.due u hu).1 r hr hkey

/-- Dealing with the account keeps the invariant, as long as what is closed stays
as it is. -/
theorem Kept.deal (h : Kept names i symbol start past d) (hstore : d'.store = d.store)
    (hvalid : (d'.account i).Valid) (hname : (d'.account i).name = (d.account i).name)
    (hclosed : ∀ o ∈ (d.account i).closed, o ∈ (d'.account i).closed) :
    Kept names i symbol start (d :: past) d' := by
  refine ⟨hvalid, hname.trans h.name, hstore ▸ h.ascending, fun o ho => ?_, ?_,
    fun o ho => ?_, fun o hdue hout hnever => ?_⟩
  · rw [hstore] at ho
    obtain ⟨hheld, hrest⟩ := h.due o ho
    exact ⟨hclosed o hheld, hrest⟩
  · rw [hstore]
    intro v hv o ho
    rcases List.mem_cons.1 hv with rfl | hv
    · exact ho
    · exact h.grown v hv o ho
  · rw [hstore] at ho
    intro v hv hopen
    rcases List.mem_cons.1 hv with rfl | hv
    · exact absurd (h.due o ho).1 hopen
    · exact h.stored o ho v hv hopen
  · rw [hstore] at hout ⊢
    by_cases hheld : o ∈ (d.account i).closed
    · exact h.missing o ⟨hheld, hdue.2⟩ hout fun v hv => hnever v (List.mem_cons_of_mem _ hv)
    · exact hnever d List.mem_cons_self hheld

/-- A copy keeps the invariant, however it ends. -/
theorem Kept.copied (h : Kept names i symbol start past d)
    {result : Outcome SyncError Unit} {taken : List Order}
    (hbooks : (d.account i).SameBooks (d'.account i)) (hascending : d'.store.Ascending)
    (htaken : Ledger.closedOrders.Taken (d.account i) symbol start d.store.orders result
      d'.store.orders taken) : Kept names i symbol start (d :: past) d' := by
  have hclosed := hbooks.closed_eq
  have hdue : ∀ o, Ledger.closedOrders.Due (d'.account i) symbol start o ↔
      Ledger.closedOrders.Due (d.account i) symbol start o := by
    intro o
    show o ∈ (d'.account i).closed ∧ _ ↔ o ∈ (d.account i).closed ∧ _
    rw [hclosed]
  refine ⟨h.valid.sameBooks hbooks, hbooks.name_eq.trans h.name, hascending, fun o ho => ?_, ?_,
    fun o ho => ?_, fun o hnew hout hnever => ?_⟩
  · rw [hdue]
    rcases (htaken.rows o).1 ho with ho | ho
    · exact h.due o ho
    · exact (htaken.due o ho).1
  · intro v hv o ho
    refine (htaken.rows o).2 (Or.inl ?_)
    rcases List.mem_cons.1 hv with rfl | hv
    · exact ho
    · exact h.grown v hv o ho
  · intro v hv hopen
    rcases (htaken.rows o).1 ho with ho | ho
    · rcases List.mem_cons.1 hv with rfl | hv
      · exact absurd (h.due o ho).1 hopen
      · exact h.stored o ho v hv hopen
    · obtain ⟨⟨hheld, -⟩, hahead⟩ := htaken.due o ho
      rcases List.mem_cons.1 hv with rfl | hv
      · exact absurd hheld hopen
      · rintro ⟨u, hu, hsame⟩
        exact hahead ⟨u, h.grown v hv u hu, hsame⟩
  · rw [hdue] at hnew
    have hold : o ∉ d.store.orders := fun ho => hout ((htaken.rows o).2 (Or.inl ho))
    have hahead := h.missing o hnew hold fun v hv => hnever v (List.mem_cons_of_mem _ hv)
    rintro ⟨u, hu, hexchange, hsame, hlt⟩
    rcases (htaken.rows u).1 hu with hu | hu
    · exact hahead ⟨u, hu, hexchange, hsame, hlt⟩
    · -- What a copy leaves out is no older than what it takes in.
      have hout' : o ∉ taken := fun ho => hout ((htaken.rows o).2 (Or.inr ho))
      exact not_le_of_gt hlt ((htaken.rest o hnew hahead hout').2 u hu)

theorem Kept.step (h : Kept names i symbol start past d)
    (hstep : Step outside now names i symbol start d d') :
    Kept names i symbol start (d :: past) d' := by
  cases hstep with
  | submit request =>
      refine h.deal rfl ?_ ?_ fun o ho => ?_
      all_goals simp only [exchange, Simulated.exchange, account_set]
      · exact h.valid.submit request _
      · rfl
      · exact Simulated.closed_submit ho request _
  | cancel request =>
      refine h.deal rfl ?_ ?_ fun o ho => ?_
      all_goals simp only [exchange, Simulated.exchange, account_set]
      · exact h.valid.cancel request _
      · exact Simulated.name_cancel _ request _
      · exact Simulated.closed_cancel ho request _
  | record symbol side status quantity instant =>
      refine h.deal rfl ?_ ?_ fun o ho => ?_
      all_goals simp only [account_set]
      · exact h.valid.recordOrder symbol side status quantity instant
      · rfl
      · exact Simulated.closed_recordOrder ho symbol side status quantity instant
  | pass rest hclock => exact h.deal rfl h.valid rfl fun o ho => ho
  | copy pageLimit steps =>
      obtain ⟨hbooks, hascending, -, taken, htaken⟩ :=
        sync_closedOrders h.valid h.name h.ascending h.agree rfl
      exact h.copied (hbooks i) hascending htaken

theorem Reached.kept (h : Reached outside now names i symbol start past d) :
    Kept names i symbol start past d := by
  induction h with
  | fresh haccount hstore => exact kept_fresh haccount hstore
  | step _ hstep ih => exact ih.step hstep

end Invariant

/-- After a copy that ended well a closed order of the symbol is stored exactly if at
no earlier moment it was still to be closed while a newer order was stored. -/
theorem stored_iff_never_overtaken {ω : Type} {outside : Surroundings ω}
    {now : ω → Timestamp} {names : Nat → String} {i : Nat} {symbol : String}
    {start : Timestamp} {past : List (Desk ω)} {d d' : Desk ω}
    (hreached : Reached outside now names i symbol start past d) {pageLimit steps : Nat}
    (hcopy : (database outside).syncKind (exchange now names i) pageLimit steps .orders
      symbol start d = (.ok (), d'))
    {o : Order} (hclosed : o ∈ (d'.account i).closed) (hsymbol : o.symbol = symbol)
    (hstart : start ≤ o.createdAt) :
    o ∈ d'.store.orders ↔ NeverOvertaken i (d :: past) o := by
  have hkept := hreached.kept
  obtain ⟨hbooks, hascending, -, taken, htaken⟩ :=
    sync_closedOrders hkept.valid hkept.name hkept.ascending hkept.agree hcopy
  constructor
  · intro ho
    exact (hkept.copied (hbooks i) hascending htaken).stored o ho
  · intro hnever
    rw [(hbooks i).closed_eq] at hclosed
    have hdue : Ledger.closedOrders.Due (d.account i) symbol start o :=
      ⟨hclosed, hsymbol, hstart⟩
    by_contra hout
    have hold : o ∉ d.store.orders := fun ho => hout ((htaken.rows o).2 (Or.inl ho))
    have hout' : o ∉ taken := fun ho => hout ((htaken.rows o).2 (Or.inr ho))
    have hahead := hkept.missing o hdue hold
      fun v hv => hnever v (List.mem_cons_of_mem _ hv)
    exact (htaken.rest o hdue hahead hout').1 rfl

/-! ## A run in which an order is passed by -/

/-- One unit, as a price and as a quantity. -/
def unit : Decimal :=
  .ofWord 1 (by decide)

/-- The order that rests, once it is cancelled. -/
def restingOrder : Order where
  orderId := "1"
  clientOrderId := some "resting"
  exchange := "sim"
  symbol := "BTCUSDT"
  side := .buy
  orderType := .limit
  price := some unit
  quantity := unit
  executedQuantity := .zero
  status := .cancelled
  createdAt := .epoch
  updatedAt := minute

/-- The order that is filled at once, a minute later. -/
def filledOrder : Order where
  orderId := "2"
  clientOrderId := some "filled"
  exchange := "sim"
  symbol := "BTCUSDT"
  side := .buy
  orderType := .market
  price := none
  quantity := unit
  executedQuantity := unit
  status := .filled
  createdAt := minute
  updatedAt := minute

abbrev simulated : Exchange (Desk Timestamp) :=
  exchange id (fun _ => "sim") 0

abbrev copyOrders (d : Desk Timestamp) : Outcome SyncError Unit × Desk Timestamp :=
  (database undisturbed).syncKind simulated 100 3 .orders "BTCUSDT" .epoch d

/-- A limit order rests, and a minute later a market order is filled. -/
def filledDesk : Desk Timestamp :=
  let fresh : Desk Timestamp := ⟨fun _ => .new "sim", .empty, .epoch⟩
  let resting := (simulated.submit ⟨"BTCUSDT", .buy, .limit unit, unit, "resting"⟩ fresh).2
  (simulated.submit ⟨"BTCUSDT", .buy, .market, unit, "filled"⟩ { resting with rest := minute }).2

/-- The closed orders are copied, and after that the limit order is cancelled. -/
def cancelledDesk : Desk Timestamp :=
  (simulated.cancel (.byClientOrderId "resting") (copyOrders filledDesk).2).2

theorem reached_cancelledDesk : ∃ past,
    Reached undisturbed id (fun _ => "sim") 0 "BTCUSDT" .epoch past cancelledDesk :=
  ⟨_, .step (.step (.step (.step (.step (.fresh rfl rfl) (.submit _)) (.pass minute (by decide)))
    (.submit _)) (.copy 100 3)) (.cancel _)⟩

theorem copyOrders_cancelledDesk :
    copyOrders cancelledDesk = (.ok (), (copyOrders cancelledDesk).2) :=
  Prod.ext (by cbv) rfl

theorem mem_closed_after_copy {o : Order}
    (h : ((copyOrders cancelledDesk).2.account 0).closed.contains o = true) :
    o ∈ ((copyOrders cancelledDesk).2.account 0).closed := by
  simpa using h

/-- The order that was filled is stored and was never overtaken. The one that was
cancelled after it is not stored and was. -/
theorem stored_iff_never_overtaken_resting :
    ∃ past, Reached undisturbed id (fun _ => "sim") 0 "BTCUSDT" .epoch past
        cancelledDesk ∧
      NeverOvertaken 0 (cancelledDesk :: past) filledOrder ∧
      ¬ NeverOvertaken 0 (cancelledDesk :: past) restingOrder := by
  obtain ⟨past, hreached⟩ := reached_cancelledDesk
  have hfilled := stored_iff_never_overtaken hreached copyOrders_cancelledDesk
    (o := filledOrder) (mem_closed_after_copy (by cbv)) rfl (by decide)
  have hresting := stored_iff_never_overtaken hreached copyOrders_cancelledDesk
    (o := restingOrder) (mem_closed_after_copy (by cbv)) rfl (by decide)
  have hstored : (copyOrders cancelledDesk).2.store.orders = [filledOrder] := by cbv
  rw [hstored] at hfilled hresting
  refine ⟨past, hreached, hfilled.1 (by simp), fun hnever => ?_⟩
  exact absurd (hresting.2 hnever) (by decide)

/-- An order that is closed at last is not stored, although the copy ended well. -/
theorem overtaken_order_is_missing :
    (∃ past, Reached undisturbed id (fun _ => "sim") 0 "BTCUSDT" .epoch past
      cancelledDesk) ∧
    copyOrders cancelledDesk = (.ok (), (copyOrders cancelledDesk).2) ∧
    restingOrder ∈ ((copyOrders cancelledDesk).2.account 0).closed ∧
    restingOrder.symbol = "BTCUSDT" ∧ Timestamp.epoch ≤ restingOrder.createdAt ∧
    restingOrder ∉ (copyOrders cancelledDesk).2.store.orders := by
  refine ⟨reached_cancelledDesk, copyOrders_cancelledDesk,
    mem_closed_after_copy (by cbv), rfl, by decide, ?_⟩
  have hstored : (copyOrders cancelledDesk).2.store.orders = [filledOrder] := by cbv
  rw [hstored]
  decide

end Tradebook.Desk
