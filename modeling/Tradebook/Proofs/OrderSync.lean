import Mathlib
import Tradebook.Proofs.Desk
import Tradebook.Proofs.StoreHistory

/-!
# Copying the closed orders of a symbol

A fill that comes again changes nothing. An order that comes again changes the row that
stands at its key, so how often it comes, and on which page, might tell. It does not: all
pages are about one and the same account of the order, and a row that took its progress from
it once is not changed by taking it again (`rowAt_putRows_of_alike`).

So a copy that ended well leaves at each key what one look at the exchange would leave there.
And a second copy leaves the store alone, whatever it ends with: it resumes no earlier than
the first one did, so it meets only orders that are settled already
(`refreshed_orders_of_run`).
-/

namespace Tradebook

open Sync

/-- An order of a history that a copy of the symbol asks for: one that is neither before the
start nor older than the newest stored order of the symbol. -/
def InReach (exchange symbol : String) (start : Timestamp) (store : Store) (history : List Order)
    (o : Order) : Prop :=
  o ∈ history ∧ o.symbol = symbol ∧
    (store.lastOrderTime exchange symbol).elim start (max start) ≤ o.createdAt

namespace Store

/-- Orders that were written move the newest instant of no symbol back. -/
theorem lastOrderTime_upsertOrders (rows : List Order) (s : Store) (exchange symbol : String) :
    ∀ t ∈ s.lastOrderTime exchange symbol,
      ∃ t' ∈ (s.upsertOrders rows).lastOrderTime exchange symbol, t ≤ t' :=
  (newest_write (.orders rows) s exchange symbol).2

/-- Writing orders a second time, any of them in any order, changes nothing. -/
theorem upsertOrders_again {s : Store} (h : s.Ascending) {rows again : List Order}
    (halike : ∀ a ∈ rows, ∀ b ∈ rows, a.key = b.key → a = b) (hagain : ∀ o ∈ again, o ∈ rows) :
    (s.upsertOrders rows).upsertOrders again = s.upsertOrders rows := by
  have hrows : putRows Order.key Order.refresh again (s.upsertOrders rows).orders =
      (s.upsertOrders rows).orders := by
    refine putRows_of_settled (h.upsertOrders rows).orders fun o ho => ?_
    refine ⟨settle Order.refresh (rowAt Order.key o.key s.orders) o, ?_, ?_⟩
    · exact rowAt_putRows_of_alike Order.key_refresh Order.refresh_self Order.refresh_refresh
        h.orders (hagain o ho) fun r hr hkey => halike r hr o (hagain o ho) hkey
    · exact merge_settle Order.refresh_self Order.refresh_refresh _ o
  have hwrite : (s.upsertOrders rows).upsertOrders again =
      { s.upsertOrders rows with
        orders := putRows Order.key Order.refresh again (s.upsertOrders rows).orders } := rfl
  rw [hwrite, hrows]

end Store

section Copies

variable {σ : Type} {around : Surroundings σ} {x : Exchange σ} {symbol : String}
  {history : List Order} {inv : σ → Prop}

theorem inReach_iff {start : Timestamp} {store : Store} {o : Order} :
    InReach x.name symbol start store history o ↔
      o ∈ (history.filter fun o => o.symbol == symbol) ∧
        resumePoint start ((History.orders x symbol).newest store) ≤ o.createdAt := by
  have hresume : resumePoint start (store.lastOrderTime x.name symbol) =
      (store.lastOrderTime x.name symbol).elim start (max start) := by
    cases store.lastOrderTime x.name symbol with
    | none => rfl
    | some last => exact Timestamp.later_eq_max start last
  rw [InReach, List.mem_filter, beq_iff_eq, and_assoc]
  exact and_congr_right fun _ => and_congr_right fun _ => by rw [← hresume]; rfl

/-- A later start and newer rows leave less in reach. -/
theorem InReach.mono {exchange : String} {start start' : Timestamp} {store store' : Store}
    {o : Order} (hstart : start ≤ start')
    (hnewest : ∀ t ∈ store.lastOrderTime exchange symbol,
      ∃ t' ∈ store'.lastOrderTime exchange symbol, t ≤ t')
    (h : InReach exchange symbol start' store' history o) :
    InReach exchange symbol start store history o := by
  obtain ⟨hheld, hsymbol, hlate⟩ := h
  refine ⟨hheld, hsymbol, le_trans ?_ hlate⟩
  cases hlast : store.lastOrderTime exchange symbol with
  | none =>
      cases store'.lastOrderTime exchange symbol with
      | none => exact hstart
      | some last' => exact le_max_of_le_left hstart
  | some last =>
      obtain ⟨last', hlast', hle⟩ := hnewest last hlast
      rw [hlast']
      exact max_le_max hstart hle

/-- Whatever a copy ends with, it wrote orders in reach and nothing else; at a good end it wrote
them all. -/
theorem written_of_order_run
    (hserving : Serving around (.orders x symbol)
      (history.filter fun o => o.symbol == symbol) inv)
    (pageLimit steps : Nat) (start : Timestamp) (store : Store) {s : σ} (hs : inv s)
    {ended : Outcome SyncError Unit × Store × σ}
    (hrun : run around (.orders x symbol) pageLimit steps start store s = ended) :
    ∃ rows, ended.2.1 = store.upsertOrders rows ∧ inv ended.2.2 ∧
      (∀ o ∈ rows, InReach x.name symbol start store history o) ∧
      (ended.1 = .ok () → ∀ o, InReach x.name symbol start store history o → o ∈ rows) := by
  obtain ⟨written, hcopied⟩ := hserving.run_copied pageLimit steps start store hs
  rw [hrun] at hcopied
  refine ⟨written.flatten, ?_, hcopied.world, fun o ho => ?_, fun hok o ho => ?_⟩
  · rw [← History.writeAll_orders x symbol]
    exact hcopied.store_eq
  · exact inReach_iff.2 (hcopied.sound o ho)
  · exact (hcopied.mem_iff hok).2 (inReach_iff.1 ho)

end Copies

/-- A copy of the closed orders of a symbol ends within a number of pages that depends on the
length of the history alone. If it ends well, each order in reach is stored: where its key was
free as it is, and where a row stood there with its progress put into that row. All other rows
are as they were. No further copy from the same start or a later one changes the store. -/
theorem refreshed_orders_of_run {σ : Type} {around : Surroundings σ} {x : Exchange σ}
    {symbol : String} {history : List Order} {inv : σ → Prop}
    (hserving : Serving around (.orders x symbol)
      (history.filter fun o => o.symbol == symbol) inv)
    (hkeys : (history.map Order.key).Nodup) (hfew : history.length < greatestLimit)
    (pageLimit : Nat) (start : Timestamp) {store : Store} (hstore : store.Ascending)
    {s : σ} (hs : inv s) :
    ∃ ended : Outcome SyncError Unit × Store × σ, ended.1 ≠ .exhausted ∧
      (∀ steps, enoughPages history.length ≤ steps →
        run around (.orders x symbol) pageLimit steps start store s = ended) ∧
      (ended.1 = .ok () →
        (∀ o, InReach x.name symbol start store history o →
          rowAt Order.key o.key ended.2.1.orders =
            some (match rowAt Order.key o.key store.orders with
              | none => o
              | some stored =>
                { stored with
                  executedQuantity := o.executedQuantity
                  status := o.status
                  updatedAt := o.updatedAt })) ∧
        (∀ k, (∀ o, InReach x.name symbol start store history o → o.key ≠ k) →
          rowAt Order.key k ended.2.1.orders = rowAt Order.key k store.orders) ∧
        ended.2.1.Ascending ∧ ended.2.1.trades = store.trades ∧ inv ended.2.2 ∧
        ∀ pageLimit' steps start' s', start ≤ start' → inv s' →
          (run around (.orders x symbol) pageLimit' steps start' ended.2.1 s').2.1 =
            ended.2.1) := by
  have hlength : (history.filter fun o => o.symbol == symbol).length ≤ history.length :=
    List.length_filter_le _ _
  obtain ⟨ended, hends, hrun⟩ :=
    hserving.run_settles (by omega) pageLimit start store hs
  refine ⟨ended, hends, fun steps hsteps => hrun steps ?_, fun hok => ?_⟩
  · exact le_trans (enoughPages_mono hlength) hsteps
  obtain ⟨rows, hstored, hworld, hsound, hwhole⟩ :=
    written_of_order_run hserving pageLimit _ start store hs (hrun _ (le_refl _))
  have halike : ∀ a ∈ rows, ∀ b ∈ rows, a.key = b.key → a = b := fun a ha b hb =>
    List.inj_on_of_nodup_map hkeys (hsound a ha).1 (hsound b hb).1
  refine ⟨fun o ho => ?_, fun k hk => ?_, ?_, ?_, hworld, ?_⟩
  · have hrow := hwhole hok o ho
    have hat : rowAt Order.key o.key (store.upsertOrders rows).orders =
        some (settle Order.refresh (rowAt Order.key o.key store.orders) o) :=
      rowAt_putRows_of_alike Order.key_refresh Order.refresh_self Order.refresh_refresh
        hstore.orders hrow fun r hr hkey => halike r hr o hrow hkey
    rw [hstored, hat]
    cases rowAt Order.key o.key store.orders <;> rfl
  · rw [hstored]
    refine rowAt_putRows_of_not_mem Order.key_refresh hstore.orders fun hmem => ?_
    obtain ⟨o, ho, hkey⟩ := List.mem_map.1 hmem
    exact hk o (hsound o ho) hkey
  · rw [hstored]
    exact hstore.upsertOrders rows
  · rw [hstored]
    rfl
  · intro pageLimit' steps start' s' hstart hs'
    obtain ⟨again, hstored', -, hsound', -⟩ :=
      written_of_order_run hserving pageLimit' steps start' ended.2.1 hs' rfl
    rw [hstored', hstored]
    refine Store.upsertOrders_again hstore halike fun o ho => hwhole hok o ?_
    refine (hsound' o ho).mono hstart ?_
    rw [hstored]
    exact store.lastOrderTime_upsertOrders rows x.name symbol

/-! ## Stale rows, and a crowded instant -/

/-- A desk whose only account has three closed orders of one symbol at one instant. The first
one is stored as it was when it was new, at another price; and there is a row of another
exchange. -/
def staleDesk : Desk Unit :=
  let order (x : Simulated) (status : OrderStatus) : Simulated :=
    (x.recordOrder "BTCUSDT" .buy status ((Decimal.ofParts? 1 0).getD .zero) .epoch).2
  let account := order (order (order (.new "sim") .filled) .cancelled) .rejected
  let stale := account.orders.take 1 |>.map fun o =>
    { o with price := some .zero, executedQuantity := .zero, status := .new }
  let elsewhere := account.orders.take 1 |>.map fun o => { o with exchange := "other" }
  { account := fun _ => account
    store := Store.empty.upsertOrders (stale ++ elsewhere)
    rest := () }

/-- A copy of the orders, in pages of two, into some store. -/
def staleRun (steps : Nat) (start : Timestamp) (store : Store) :
    Outcome SyncError Unit × Store × Desk Unit :=
  run (Desk.around Desk.undisturbed)
    (.orders (Desk.exchange (fun _ => .epoch) (fun _ => "sim") 0) "BTCUSDT") 2 steps start
    store staleDesk

/-- How a copy ended, and what the rows are then. -/
def summary (ended : Outcome SyncError Unit × Store × Desk Unit) :
    Outcome SyncError Unit × List (String × String × Option Decimal × OrderStatus) :=
  (ended.1, ended.2.1.orders.map fun o => (o.exchange, o.orderId, o.price, o.status))

theorem summary_staleRun : summary (staleRun 6 .epoch staleDesk.store) =
    (.ok (), [("other", "1", none, .filled), ("sim", "1", some .zero, .filled),
      ("sim", "2", none, .cancelled), ("sim", "3", none, .rejected)]) := by
  cbv

/-- Pages of two orders get through three orders of one instant. The stale row keeps its price
and is filled now, and a second copy finds nothing to do. -/
theorem refreshed_orders_of_run_stale :
    ∃ ended : Outcome SyncError Unit × Store × Desk Unit,
      (∀ steps, 30 ≤ steps → staleRun steps .epoch staleDesk.store = ended) ∧
      ended.1 = .ok () ∧
      ended.2.1.orders.map (fun o => (o.exchange, o.orderId, o.price, o.status)) =
        [("other", "1", none, .filled), ("sim", "1", some .zero, .filled),
          ("sim", "2", none, .cancelled), ("sim", "3", none, .rejected)] ∧
      ∀ steps start, Timestamp.epoch ≤ start →
        (staleRun steps start ended.2.1).2.1 = ended.2.1 := by
  obtain ⟨ended, -, hrun, hstored⟩ := refreshed_orders_of_run
    (Desk.serving_closedOrders Desk.undisturbed (fun _ => .epoch) (fun _ => "sim") 0 "BTCUSDT"
      staleDesk)
    (by decide +kernel) (by decide +kernel) 2 .epoch
    (Store.ascending_empty.upsertOrders _) (Desk.SameBooks.refl staleDesk)
  have hrun : ∀ steps, 30 ≤ steps → staleRun steps .epoch staleDesk.store = ended :=
    fun steps hsteps => hrun steps (le_trans (by decide +kernel) hsteps)
  have hgood : (staleRun 6 .epoch staleDesk.store).1 = .ok () :=
    congrArg Prod.fst summary_staleRun
  have hended : staleRun 6 .epoch staleDesk.store = ended := by
    rw [← hrun 30 (le_refl 30)]
    refine (run_mono (by decide) ?_).symm
    rw [show (run _ _ 2 6 _ _ _).1 = _ from hgood]
    decide
  have hok : ended.1 = .ok () := hended ▸ hgood
  obtain ⟨-, -, -, -, -, hagain⟩ := hstored hok
  refine ⟨ended, hrun, hok,
    congrArg Prod.snd (hended ▸ summary_staleRun), fun steps start hstart => ?_⟩
  exact hagain 2 steps start staleDesk hstart (Desk.SameBooks.refl staleDesk)

end Tradebook
