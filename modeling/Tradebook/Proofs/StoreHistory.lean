import Mathlib
import Tradebook.Proofs.StoreRows

/-!
# A store as the sum of its batches

A store that began empty is settled by the rows that came in, one kind apart from
the other and each kind in the order in which it came; where one batch ends and the
next begins leaves no trace (`writeAll_empty`). So every law of a store is a law of
two lists of rows.

What stands at a key is what a walk over the rows of that key makes of them
(`rowAt_putRows`). The two walks are short. The first fill stays whatever comes
after it; an order takes from each later account of it the same three fields, so of
all accounts only the first and the last count.

The symbol of a record and the instant it is dated by are among what stays. So the
newest instant of a symbol can only move forward (`exists_mem_putRows`).
-/

namespace Tradebook

/-- Rows that are written to a store at once. -/
inductive Batch where
  | fills (rows : List Trade)
  | orders (rows : List Order)

namespace Batch

def write : Batch → Store → Store
  | fills rows, s => s.insertTrades rows
  | orders rows, s => s.upsertOrders rows

def trades : Batch → List Trade
  | fills rows => rows
  | orders _ => []

def placed : Batch → List Order
  | fills _ => []
  | orders rows => rows

/-- The store after some batches, one after the other. -/
def writeAll (batches : List Batch) (s : Store) : Store :=
  batches.foldl (fun s batch => batch.write s) s

/-- What the store answers to the batches of fills: how many of each were new. -/
def counts : List Batch → Store → List Nat
  | [], _ => []
  | fills rows :: batches, s => s.countNew rows :: counts batches (s.insertTrades rows)
  | orders rows :: batches, s => counts batches (s.upsertOrders rows)

end Batch

/-! ## What many rows make of what stands at a key -/

section Rows

variable {α : Type} {key : α → RecordKey} {merge : α → α → α}

theorem putRows_append (page page' rows : List α) :
    putRows key merge (page ++ page') rows =
      putRows key merge page' (putRows key merge page rows) :=
  List.foldl_append

theorem rowAt_putRows (hmerge : ∀ a b, key (merge a b) = key a) (page : List α)
    {rows : List α} (h : AscendingBy key rows) (k : RecordKey) :
    rowAt key k (putRows key merge page rows) =
      (page.filter fun r => key r = k).foldl (fun standing row => some (settle merge standing row))
        (rowAt key k rows) := by
  induction page generalizing rows with
  | nil => rfl
  | cons row page ih =>
      rw [putRows_cons, ih (ascending_putRow hmerge row h), rowAt_putRow hmerge row h,
        List.filter_cons]
      by_cases hk : key row = k
      · simp [hk]
      · simp [hk]

theorem settle_of_keep (hkeep : ∀ a b, merge a b = a) (rows : List α) (a : α) :
    rows.foldl (fun standing row => some (settle merge standing row)) (some a) = some a := by
  induction rows with
  | nil => rfl
  | cons row rows ih =>
      rw [List.foldl_cons, settle, hkeep]
      exact ih

/-- Where a row that stands at its key is kept, the first one stays. -/
theorem rowAt_putRows_of_keep (hkeep : ∀ a b, merge a b = a) (page : List α) (k : RecordKey) :
    rowAt key k (putRows key merge page []) = rowAt key k page := by
  have hfirst : rowAt key k page = (page.filter fun r => key r = k).head? :=
    (List.head?_filter ..).symm
  rw [rowAt_putRows (key_merge_of_keep hkeep) page List.Pairwise.nil, hfirst]
  cases page.filter fun r => decide (key r = k) with
  | nil => rfl
  | cons first rest => exact settle_of_keep hkeep rest first

theorem settle_of_absorb (habsorb : ∀ a b c, merge (merge a b) c = merge a c) (rows : List α)
    (a b : α) :
    rows.foldl (fun standing row => some (settle merge standing row)) (some (merge a b)) =
      some (merge a ((b :: rows).getLast (List.cons_ne_nil b rows))) := by
  induction rows generalizing b with
  | nil => rfl
  | cons row rows ih =>
      rw [List.foldl_cons, settle, habsorb, ih, List.getLast_cons_cons]

/-- Where a merged row forgets all but its first and its last account, these two are what
stands. -/
theorem rowAt_putRows_of_absorb (hmerge : ∀ a b, key (merge a b) = key a)
    (hself : ∀ a, merge a a = a) (habsorb : ∀ a b c, merge (merge a b) c = merge a c)
    (page : List α) (k : RecordKey) :
    rowAt key k (putRows key merge page []) =
      (rowAt key k page).bind fun first =>
        (rowAt key k page.reverse).map fun last => merge first last := by
  have hfirst : rowAt key k page = (page.filter fun r => key r = k).head? :=
    (List.head?_filter ..).symm
  have hlast : rowAt key k page.reverse = (page.filter fun r => key r = k).getLast? := by
    rw [List.getLast?_eq_head?_reverse, ← List.filter_reverse, List.head?_filter]
    rfl
  rw [rowAt_putRows hmerge page List.Pairwise.nil, hfirst, hlast]
  cases page.filter fun r => decide (key r = k) with
  | nil => rfl
  | cons first rest =>
      have hwalk := settle_of_absorb habsorb rest first first
      rw [hself] at hwalk
      rw [List.getLast?_eq_some_getLast (List.cons_ne_nil first rest)]
      exact hwalk

/-- A row that comes again finds itself settled. -/
theorem merge_settle (hself : ∀ a, merge a a = a)
    (habsorb : ∀ a b c, merge (merge a b) c = merge a c) (standing : Option α) (row : α) :
    merge (settle merge standing row) row = settle merge standing row := by
  cases standing with
  | none => exact hself row
  | some stored => exact habsorb stored row row

/-- However often a row comes, and wherever in the page, it settles once. -/
theorem rowAt_putRows_of_alike (hmerge : ∀ a b, key (merge a b) = key a)
    (hself : ∀ a, merge a a = a) (habsorb : ∀ a b c, merge (merge a b) c = merge a c)
    {page rows : List α} (h : AscendingBy key rows) {row : α} (hrow : row ∈ page)
    (halike : ∀ r ∈ page, key r = key row → r = row) :
    rowAt key (key row) (putRows key merge page rows) =
      some (settle merge (rowAt key (key row) rows) row) := by
  rw [rowAt_putRows hmerge page h]
  have hmem : row ∈ page.filter fun r => key r = key row := by simpa using hrow
  have hall : ∀ r ∈ page.filter fun r => key r = key row, r = row := by
    intro r hr
    obtain ⟨hr, hkey⟩ := List.mem_filter.1 hr
    exact halike r hr (by simpa using hkey)
  have hagain : ∀ rest : List α, (∀ r ∈ rest, r = row) →
      rest.foldl (fun standing r => some (settle merge standing r))
        (some (settle merge (rowAt key (key row) rows) row)) =
      some (settle merge (rowAt key (key row) rows) row) := by
    intro rest hrest
    induction rest with
    | nil => rfl
    | cons r rest ih =>
        obtain ⟨rfl, hrest⟩ := List.forall_mem_cons.1 hrest
        rw [List.foldl_cons, settle, merge_settle hself habsorb]
        exact ih hrest
  cases hpage : page.filter fun r => decide (key r = key row) with
  | nil =>
      rw [hpage] at hmem
      cases hmem
  | cons first rest =>
      rw [hpage] at hall
      obtain ⟨rfl, hrest⟩ := List.forall_mem_cons.1 hall
      exact hagain rest hrest

theorem rowAt_putRows_of_not_mem (hmerge : ∀ a b, key (merge a b) = key a)
    {page rows : List α} (h : AscendingBy key rows) {k : RecordKey} (hk : k ∉ page.map key) :
    rowAt key k (putRows key merge page rows) = rowAt key k rows := by
  have hnone : (page.filter fun r => key r = k) = [] := by
    refine List.filter_eq_nil_iff.2 fun r hr hkey => hk ?_
    exact List.mem_map.2 ⟨r, hr, by simpa using hkey⟩
  rw [rowAt_putRows hmerge page h, hnone]
  rfl

/-- A row that is settled already changes nothing. -/
theorem putRow_of_settled (row : α) {rows : List α} (h : AscendingBy key rows) {stored : α}
    (hat : rowAt key (key row) rows = some stored) (hsettled : merge stored row = stored) :
    putRow key merge row rows = rows := by
  induction rows with
  | nil => cases hat
  | cons first rows ih =>
      obtain ⟨hhead, htail⟩ := List.pairwise_cons.1 h
      rw [putRow]
      split
      · next heq =>
          have hfirst : first = stored := by simpa [rowAt, heq] using hat
          rw [hfirst, hsettled]
      · next hne =>
          have hat : rowAt key (key row) rows = some stored := by
            simpa [rowAt, Ne.symm hne] using hat
          obtain ⟨hstored, hkey⟩ := key_of_rowAt hat
          split
          · next hlt =>
              refine absurd (RecordKey.lt_trans hlt (hhead stored hstored)) ?_
              rw [hkey]
              exact RecordKey.not_lt_self (key row)
          · rw [ih htail hat]

theorem putRows_of_settled {page rows : List α} (h : AscendingBy key rows)
    (hpage : ∀ row ∈ page, ∃ stored, rowAt key (key row) rows = some stored ∧
      merge stored row = stored) : putRows key merge page rows = rows := by
  induction page with
  | nil => rfl
  | cons row page ih =>
      obtain ⟨⟨stored, hat, hsettled⟩, hpage⟩ := List.forall_mem_cons.1 hpage
      rw [putRows_cons, putRow_of_settled row h hat hsettled]
      exact ih hpage

theorem length_putRow (merge : α → α → α) (row : α) {rows : List α} (h : AscendingBy key rows) :
    (putRow key merge row rows).length =
      rows.length + if key row ∈ rows.map key then 0 else 1 := by
  induction rows with
  | nil => rfl
  | cons stored rows ih =>
      obtain ⟨hhead, htail⟩ := List.pairwise_cons.1 h
      rw [putRow]
      split
      · next heq => simp [heq]
      · next hne =>
          split
          · next hlt =>
              have hout : key row ∉ (stored :: rows).map key := by
                rintro hmem
                obtain ⟨r, hr, hkey⟩ := List.mem_map.1 hmem
                rcases List.mem_cons.1 hr with rfl | hr
                · exact hne hkey.symm
                · exact RecordKey.not_lt_self (key row)
                    (RecordKey.lt_trans hlt (hkey ▸ hhead r hr))
              rw [if_neg hout, List.length_cons]
          · simp only [List.length_cons, ih htail, List.map_cons, List.mem_cons, hne, false_or]
            omega

theorem length_le_putRows (hmerge : ∀ a b, key (merge a b) = key a) (page : List α)
    {rows : List α} (h : AscendingBy key rows) :
    rows.length ≤ (putRows key merge page rows).length := by
  induction page generalizing rows with
  | nil => exact le_refl _
  | cons row page ih =>
      have hone := length_putRow merge row h
      have hmore := ih (ascending_putRow hmerge row h)
      rw [putRows_cons]
      omega

/-- Whatever a merge leaves alone is still there for every row that was. -/
theorem exists_mem_putRow {β : Type} {f : α → β} (hf : ∀ a b, f (merge a b) = f a) (row : α)
    {rows : List α} {r : α} (hr : r ∈ rows) :
    ∃ r' ∈ putRow key merge row rows, f r' = f r := by
  induction rows with
  | nil => cases hr
  | cons stored rows ih =>
      rw [putRow]
      split
      · rcases List.mem_cons.1 hr with rfl | hr
        · exact ⟨_, List.mem_cons_self, hf _ _⟩
        · exact ⟨r, List.mem_cons_of_mem _ hr, rfl⟩
      · split
        · exact ⟨r, List.mem_cons_of_mem _ hr, rfl⟩
        · rcases List.mem_cons.1 hr with rfl | hr
          · exact ⟨_, List.mem_cons_self, rfl⟩
          · obtain ⟨r', hr', hsame⟩ := ih hr
            exact ⟨r', List.mem_cons_of_mem _ hr', hsame⟩

theorem exists_mem_putRows {β : Type} {f : α → β} (hf : ∀ a b, f (merge a b) = f a)
    (page : List α) {rows : List α} {r : α} (hr : r ∈ rows) :
    ∃ r' ∈ putRows key merge page rows, f r' = f r := by
  induction page generalizing rows r with
  | nil => exact ⟨r, hr, rfl⟩
  | cons row page ih =>
      obtain ⟨r₁, hr₁, hsame₁⟩ := exists_mem_putRow hf row hr
      obtain ⟨r₂, hr₂, hsame₂⟩ := ih hr₁
      exact ⟨r₂, hr₂, hsame₂.trans hsame₁⟩

end Rows

/-! ## The newest instant of some rows -/

section Newest

variable {ρ : Type} (exchange symbol : ρ → String) (time : ρ → Timestamp)

/-- The instants of the rows of a symbol at an exchange. -/
def instantsOf (e s : String) (rows : List ρ) : Set Timestamp :=
  {t | ∃ r ∈ rows, exchange r = e ∧ symbol r = s ∧ time r = t}

theorem latest?_eq_some_iff {times : List Timestamp} {t : Timestamp} :
    latest? times = some t ↔ t ∈ times ∧ ∀ u ∈ times, u ≤ t := by
  constructor
  · exact latest?_eq_some
  · rintro ⟨ht, hle⟩
    cases hlatest : latest? times with
    | none =>
        rw [latest?_eq_none.1 hlatest] at ht
        cases ht
    | some last =>
        obtain ⟨hlast, hmost⟩ := latest?_eq_some hlatest
        rw [le_antisymm (hle last hlast) (hmost t ht)]

theorem latest?_filter_iff {e s : String} {rows : List ρ} {t : Timestamp} :
    latest? ((rows.filter fun r => exchange r == e && symbol r == s).map time) = some t ↔
      IsGreatest (instantsOf exchange symbol time e s rows) t := by
  have hmem : ∀ u, u ∈ (rows.filter fun r => exchange r == e && symbol r == s).map time ↔
      u ∈ instantsOf exchange symbol time e s rows := by
    intro u
    simp [instantsOf, and_assoc]
  rw [latest?_eq_some_iff, hmem]
  simp only [hmem]
  rfl

/-- Rows that keep the exchange, the symbol and the instant of all old ones are no less
new. -/
theorem latest?_filter_le {e s : String} {before after : List ρ}
    (hkept : ∀ r ∈ before, ∃ r' ∈ after,
      (exchange r', symbol r', time r') = (exchange r, symbol r, time r)) {t : Timestamp}
    (ht : t ∈ latest? ((before.filter fun r => exchange r == e && symbol r == s).map time)) :
    ∃ t' ∈ latest? ((after.filter fun r => exchange r == e && symbol r == s).map time),
      t ≤ t' := by
  obtain ⟨⟨r, hr, hexchange, hsymbol, rfl⟩, -⟩ := (latest?_filter_iff _ _ _).1 ht
  obtain ⟨r', hr', hsame⟩ := hkept r hr
  simp only [Prod.mk.injEq] at hsame
  obtain ⟨hexchange', hsymbol', htime⟩ := hsame
  have hin : time r ∈ instantsOf exchange symbol time e s after :=
    ⟨r', hr', hexchange'.trans hexchange, hsymbol'.trans hsymbol, htime⟩
  cases hlatest : latest? ((after.filter fun r => exchange r == e && symbol r == s).map time) with
  | none =>
      have hnil := latest?_eq_none.1 hlatest
      have hmem : time r' ∈
          (after.filter fun r => exchange r == e && symbol r == s).map time :=
        List.mem_map_of_mem (List.mem_filter.2
          ⟨hr', by simp [hexchange'.trans hexchange, hsymbol'.trans hsymbol]⟩)
      rw [hnil] at hmem
      cases hmem
  | some t' => exact ⟨t', rfl, ((latest?_filter_iff _ _ _).1 hlatest).2 hin⟩

end Newest

/-! ## Stores that began empty -/

theorem Order.refresh_refresh (first middle last : Order) :
    (first.refresh middle).refresh last = first.refresh last := rfl

namespace Store

theorem Ascending.write {s : Store} (h : s.Ascending) (batch : Batch) :
    (batch.write s).Ascending := by
  cases batch with
  | fills rows => exact h.insertTrades rows
  | orders rows => exact h.upsertOrders rows

theorem Ascending.writeAll {s : Store} (h : s.Ascending) (batches : List Batch) :
    (Batch.writeAll batches s).Ascending := by
  induction batches generalizing s with
  | nil => exact h
  | cons batch batches ih => exact ih (h.write batch)

theorem length_writeAll {s : Store} (h : s.Ascending) (batches : List Batch) :
    (Batch.writeAll batches s).trades.length =
      s.trades.length + (Batch.counts batches s).sum := by
  induction batches generalizing s with
  | nil => rfl
  | cons batch batches ih =>
      have hrest := ih (h.write batch)
      cases batch with
      | fills rows =>
          have hmore : s.trades.length ≤ (s.insertTrades rows).trades.length :=
            length_le_putRows (fun _ _ => rfl) rows h.trades
          have hcount : s.countNew rows =
              (s.insertTrades rows).trades.length - s.trades.length := rfl
          rw [Batch.counts, List.sum_cons]
          simp only [Batch.write] at hrest
          show (Batch.writeAll batches (s.insertTrades rows)).trades.length = _
          omega
      | orders rows => exact hrest

/-- Only the order within either kind of rows tells, not how they came in batches. -/
theorem writeAll_empty (batches : List Batch) :
    Batch.writeAll batches empty =
      ⟨putRows Trade.key keepStored (batches.flatMap Batch.trades) [],
        putRows Order.key Order.refresh (batches.flatMap Batch.placed) []⟩ := by
  induction batches using List.reverseRecOn with
  | nil => rfl
  | append_singleton batches batch ih =>
      have hlast : Batch.writeAll (batches ++ [batch]) empty =
          batch.write (Batch.writeAll batches empty) := List.foldl_concat ..
      rw [hlast, ih, List.flatMap_append, List.flatMap_append, List.flatMap_singleton,
        List.flatMap_singleton, putRows_append, putRows_append]
      cases batch <;> rfl

/-- No batch makes the newest fill or the newest order of a symbol older. -/
theorem newest_write (batch : Batch) (s : Store) (exchange symbol : String) :
    (∀ t ∈ s.lastTradeTime exchange symbol,
      ∃ t' ∈ (batch.write s).lastTradeTime exchange symbol, t ≤ t') ∧
    (∀ t ∈ s.lastOrderTime exchange symbol,
      ∃ t' ∈ (batch.write s).lastOrderTime exchange symbol, t ≤ t') := by
  cases batch with
  | fills rows =>
      refine ⟨fun t ht => ?_, fun t ht => ⟨t, ht, le_refl t⟩⟩
      refine latest?_filter_le Trade.exchange Trade.symbol Trade.tradedAt (fun r hr => ?_) ht
      have hkept : ∀ a b, ((keepStored a b).exchange, (keepStored a b).symbol,
          (keepStored a b).tradedAt) = (a.exchange, a.symbol, a.tradedAt) := fun _ _ => rfl
      exact exists_mem_putRows (f := fun t => (t.exchange, t.symbol, t.tradedAt)) hkept rows hr
  | orders rows =>
      refine ⟨fun t ht => ⟨t, ht, le_refl t⟩, fun t ht => ?_⟩
      refine latest?_filter_le Order.exchange Order.symbol Order.createdAt (fun r hr => ?_) ht
      have hkept : ∀ a b : Order, ((a.refresh b).exchange, (a.refresh b).symbol,
          (a.refresh b).createdAt) = (a.exchange, a.symbol, a.createdAt) := fun _ _ => rfl
      exact exists_mem_putRows (f := fun o => (o.exchange, o.symbol, o.createdAt)) hkept rows hr

/-- A store that began empty, after any batches. Its fills are ascending, and under a key
stands the first fill that came with it. Its orders are ascending, and under a key stands the
first order that came with it, with the progress that the last one tells. The counts add up to
the fills that are stored. Batches of the same rows in the same order make the same store. The
newest instants are those of the rows, and the last batch has made none of them older. -/
theorem written_is_history (batches : List Batch) :
    let s := Batch.writeAll batches empty
    let fills := batches.flatMap Batch.trades
    let placed := batches.flatMap Batch.placed
    (AscendingBy Trade.key s.trades ∧
      ∀ k, rowAt Trade.key k s.trades = rowAt Trade.key k fills) ∧
    (AscendingBy Order.key s.orders ∧
      ∀ k, rowAt Order.key k s.orders =
        (rowAt Order.key k placed).bind fun first =>
          (rowAt Order.key k placed.reverse).map fun last =>
            { first with
              executedQuantity := last.executedQuantity
              status := last.status
              updatedAt := last.updatedAt }) ∧
    (Batch.counts batches empty).sum = s.trades.length ∧
    (∀ batches' : List Batch, batches'.flatMap Batch.trades = fills →
      batches'.flatMap Batch.placed = placed → Batch.writeAll batches' empty = s) ∧
    ∀ exchange symbol,
      (∀ t, s.lastTradeTime exchange symbol = some t ↔
        IsGreatest (instantsOf Trade.exchange Trade.symbol Trade.tradedAt exchange symbol
          s.trades) t) ∧
      (∀ t, s.lastOrderTime exchange symbol = some t ↔
        IsGreatest (instantsOf Order.exchange Order.symbol Order.createdAt exchange symbol
          s.orders) t) ∧
      ∀ next : Batch,
        (∀ t ∈ s.lastTradeTime exchange symbol,
          ∃ t' ∈ (Batch.writeAll (batches ++ [next]) empty).lastTradeTime exchange symbol,
            t ≤ t') ∧
        (∀ t ∈ s.lastOrderTime exchange symbol,
          ∃ t' ∈ (Batch.writeAll (batches ++ [next]) empty).lastOrderTime exchange symbol,
            t ≤ t') := by
  intro s fills placed
  have hascending : s.Ascending := ascending_empty.writeAll batches
  have hwhole : s = ⟨putRows Trade.key keepStored fills [],
      putRows Order.key Order.refresh placed []⟩ := writeAll_empty batches
  refine ⟨⟨hascending.trades, fun k => ?_⟩, ⟨hascending.orders, fun k => ?_⟩, ?_,
    fun batches' hfills hplaced => ?_, fun exchange symbol => ⟨fun t => ?_, fun t => ?_,
    fun next => ?_⟩⟩
  · rw [hwhole]
    exact rowAt_putRows_of_keep (fun _ _ => rfl) fills k
  · rw [hwhole]
    exact rowAt_putRows_of_absorb Order.key_refresh Order.refresh_self Order.refresh_refresh
      placed k
  · rw [length_writeAll ascending_empty batches]
    exact (Nat.zero_add _).symm
  · rw [writeAll_empty, hfills, hplaced]
    exact hwhole.symm
  · exact latest?_filter_iff Trade.exchange Trade.symbol Trade.tradedAt
  · exact latest?_filter_iff Order.exchange Order.symbol Order.createdAt
  · have hnext : Batch.writeAll (batches ++ [next]) empty = next.write s := List.foldl_concat ..
    rw [hnext]
    exact newest_write next s exchange symbol

end Store

end Tradebook
