import Tradebook.Proofs.Desk

/-!
# What a copy from an account stores

Fills and closed orders differ in their fields and in nothing that matters to a
copy. A `Ledger` is what they share, so what follows is said once for both.

A copy is about the records that are `Due`: those of its symbol from its start
on. It resumes at the newest row that is stored for the symbol at an exchange of
that name. So it does not ask for records that such a row has overtaken, be they
stored or not. `Taken` says that this is the only thing it misses: of the other
due records it takes in all, or, if it ends early, the oldest.

The rows of a store stay apart from the records of an account by their keys, so
all of this needs that a row and a record of one key are the same (`Agree`).
-/

namespace Tradebook

/-- What fills and closed orders have in common: how a record is known, and where
accounts and stores keep such records. -/
structure Ledger (ρ : Type) where
  key : ρ → RecordKey
  symbol : ρ → String
  time : ρ → Timestamp
  held : Simulated → List ρ
  rows : Store → List ρ
  held_sameBooks : ∀ {x y}, x.SameBooks y → held y = held x

namespace Ledger

def fills : Ledger Trade where
  key := Trade.key
  symbol := Trade.symbol
  time := Trade.tradedAt
  held := Simulated.trades
  rows := Store.trades
  held_sameBooks h := h.trades_eq

def closedOrders : Ledger Order where
  key := Order.key
  symbol := Order.symbol
  time := Order.createdAt
  held := Simulated.closed
  rows := Store.orders
  held_sameBooks h := h.closed_eq

section Copies

variable {ρ : Type} (L : Ledger ρ)

/-- The record is one that a copy of the symbol from the start on is about. -/
def Due (x : Simulated) (symbol : String) (start : Timestamp) (r : ρ) : Prop :=
  r ∈ L.held x ∧ L.symbol r = symbol ∧ start ≤ L.time r

/-- A newer record of the symbol is stored for an exchange of the same name. -/
def Overtaken (rows : List ρ) (r : ρ) : Prop :=
  ∃ u ∈ rows, (L.key u).exchange = (L.key r).exchange ∧
    L.symbol u = L.symbol r ∧ L.time r < L.time u

/-- A row and a record of one key are the same record. -/
def Agree (x : Simulated) (rows : List ρ) : Prop :=
  ∀ u ∈ rows, ∀ r ∈ L.held x, L.key u = L.key r → u = r

/-- The records of an account carry its name, and their keys tell them apart. -/
structure Own (x : Simulated) : Prop where
  exchange : ∀ r ∈ L.held x, (L.key r).exchange = x.name
  key : ∀ a ∈ L.held x, ∀ b ∈ L.held x, L.key a = L.key b → a = b

/-- What became of the rows of a store in a copy that took in some records. -/
structure Taken (x : Simulated) (symbol : String) (start : Timestamp) (before : List ρ)
    (result : Outcome SyncError Unit) (after taken : List ρ) : Prop where
  rows : ∀ r, r ∈ after ↔ r ∈ before ∨ r ∈ taken
  due : ∀ r ∈ taken, L.Due x symbol start r ∧ ¬ L.Overtaken before r
  rest : ∀ r, L.Due x symbol start r → ¬ L.Overtaken before r → r ∉ taken →
    result ≠ .ok () ∧ ∀ w ∈ taken, L.time w ≤ L.time r

variable {L} {x : Simulated} {symbol : String} {start : Timestamp}
  {before after taken : List ρ} {result : Outcome SyncError Unit}

/-- A copy resumes after the records that a stored row has overtaken. -/
theorem resumePoint_le_iff (hown : L.Own x) {r : ρ} (hr : r ∈ L.held x)
    (hsymbol : L.symbol r = symbol) :
    Sync.resumePoint start (latest? ((before.filter fun u =>
        (L.key u).exchange == x.name && L.symbol u == symbol).map L.time)) ≤ L.time r ↔
      start ≤ L.time r ∧ ¬ L.Overtaken before r := by
  rw [Sync.resumePoint_le_iff, latest?_le_iff]
  refine and_congr_right fun _ => ?_
  constructor
  · rintro h ⟨u, hu, hexchange, hsame, hlt⟩
    refine not_le_of_gt hlt (h (L.time u) (List.mem_map_of_mem (List.mem_filter.2 ⟨hu, ?_⟩)))
    rw [hexchange, hown.exchange r hr, hsame, hsymbol]
    simp
  · intro h t ht
    obtain ⟨u, hu, rfl⟩ := List.mem_map.1 ht
    obtain ⟨hu, hkept⟩ := List.mem_filter.1 hu
    simp only [Bool.and_eq_true, beq_iff_eq] at hkept
    refine not_lt.1 fun hlt => h ⟨u, hu, ?_, ?_, hlt⟩
    · rw [hkept.1, hown.exchange r hr]
    · rw [hkept.2, hsymbol]

/-- The copy of a history is a copy of the ledger, if it resumes where the ledger
says and writes no more than its pages. -/
theorem taken_of_copied {σ : Type} {history : History σ ρ} {inv : σ → Prop}
    {store : Store} {written : List (List ρ)}
    {ended : Outcome SyncError Unit × Store × σ} (hown : L.Own x)
    (htime : history.time = L.time)
    (hrows : ∀ r, r ∈ L.rows (history.writeAll written store) ↔
      r ∈ L.rows store ∨ r ∈ written.flatten)
    (hcopied : Copied history ((L.held x).filter fun r => L.symbol r == symbol) inv
      (Sync.resumePoint start (latest? (((L.rows store).filter fun u =>
        (L.key u).exchange == x.name && L.symbol u == symbol).map L.time)))
      store written ended) :
    L.Taken x symbol start (L.rows store) ended.1 (L.rows ended.2.1) written.flatten := by
  refine ⟨fun r => ?_, fun r hr => ?_, fun r hdue hahead hout => ?_⟩
  · rw [hcopied.store_eq]
    exact hrows r
  · obtain ⟨hmem, hresume⟩ := hcopied.sound r hr
    obtain ⟨hheld, hsymbol⟩ := List.mem_filter.1 hmem
    rw [beq_iff_eq] at hsymbol
    rw [htime, resumePoint_le_iff hown hheld hsymbol] at hresume
    exact ⟨⟨hheld, hsymbol, hresume.1⟩, hresume.2⟩
  · obtain ⟨hheld, hsymbol, hstart⟩ := hdue
    have hresume := (resumePoint_le_iff hown hheld hsymbol).2 ⟨hstart, hahead⟩
    have hrest := hcopied.rest r (List.mem_filter.2 ⟨hheld, by simpa using hsymbol⟩)
      (by rwa [htime]) hout
    rwa [htime] at hrest

theorem Overtaken.mono {r : ρ} (h : L.Overtaken before r)
    (hrows : ∀ u ∈ before, u ∈ after) : L.Overtaken after r := by
  obtain ⟨u, hu, hnewer⟩ := h
  exact ⟨u, hrows u hu, hnewer⟩

theorem due_sameBooks {y : Simulated} (h : x.SameBooks y) {r : ρ} :
    L.Due y symbol start r ↔ L.Due x symbol start r := by
  rw [Due, Due, L.held_sameBooks h]

theorem Agree.sameBooks {y : Simulated} (h : x.SameBooks y)
    (hagree : L.Agree x before) : L.Agree y before := by
  rw [Agree, L.held_sameBooks h]
  exact hagree

theorem Taken.sameBooks {y : Simulated} (h : x.SameBooks y)
    (htaken : L.Taken y symbol start before result after taken) :
    L.Taken x symbol start before result after taken where
  rows := htaken.rows
  due r hr := by
    rw [← due_sameBooks h]
    exact htaken.due r hr
  rest r hdue := by
    rw [← due_sameBooks h] at hdue
    exact htaken.rest r hdue

end Copies

/-! ## Copies one after the other -/

section Chains

variable {ρ : Type} (L : Ledger ρ) (account : Nat → Simulated) (start : Timestamp)

/-- Copies that all ended well, each of a symbol from an account, lead from some rows
to others. -/
inductive Copies : List (Nat × String) → List ρ → List ρ → Prop
  | none {rows : List ρ} : Copies [] rows rows
  | next {i : Nat} {symbol : String} {jobs : List (Nat × String)}
      {before between after taken : List ρ}
      (htaken : L.Taken (account i) symbol start before (.ok ()) between taken)
      (hrest : Copies jobs between after) : Copies ((i, symbol) :: jobs) before after

variable {L account start} {jobs jobs' : List (Nat × String)}
  {before between after : List ρ}

theorem Copies.append (h : Copies L account start jobs before between)
    (h' : Copies L account start jobs' between after) :
    Copies L account start (jobs ++ jobs') before after := by
  induction h with
  | none => exact h'
  | next htaken _ ih => exact .next htaken (ih h')

theorem Copies.split (h : Copies L account start (jobs ++ jobs') before after) :
    ∃ between, Copies L account start jobs before between ∧
      Copies L account start jobs' between after := by
  induction jobs generalizing before with
  | nil => exact ⟨before, .none, h⟩
  | cons job jobs ih =>
      cases h with
      | next htaken hrest =>
          obtain ⟨between, hfirst, hlast⟩ := ih hrest
          exact ⟨between, .next htaken hfirst, hlast⟩

theorem Copies.rows_mono (h : Copies L account start jobs before after) :
    ∀ r ∈ before, r ∈ after := by
  induction h with
  | none => exact fun _ hr => hr
  | next htaken _ ih => exact fun r hr => ih r ((htaken.rows r).2 (Or.inl hr))

/-- Every row is an old one or was due in one of the copies. -/
theorem Copies.due_of_mem (h : Copies L account start jobs before after) {r : ρ}
    (hr : r ∈ after) :
    r ∈ before ∨ ∃ job ∈ jobs, L.Due (account job.1) job.2 start r := by
  induction h with
  | none => exact Or.inl hr
  | next htaken _ ih =>
      rcases ih hr with hr | ⟨job, hjob, hdue⟩
      · rcases (htaken.rows r).1 hr with hr | hr
        · exact Or.inl hr
        · exact Or.inr ⟨_, List.mem_cons_self, (htaken.due r hr).1⟩
      · exact Or.inr ⟨job, List.mem_cons_of_mem _ hjob, hdue⟩

/-- A record that was due in one of the copies is stored or overtaken. -/
theorem Copies.mem_or_overtaken (h : Copies L account start jobs before after)
    {job : Nat × String} (hjob : job ∈ jobs) {r : ρ}
    (hdue : L.Due (account job.1) job.2 start r) :
    r ∈ after ∨ L.Overtaken after r := by
  induction h with
  | none => cases hjob
  | next htaken hrest ih =>
      rename_i before between _ taken
      rcases List.mem_cons.1 hjob with rfl | hjob
      · by_cases hahead : L.Overtaken before r
        · refine Or.inr (hahead.mono fun u hu => ?_)
          exact hrest.rows_mono u ((htaken.rows u).2 (Or.inl hu))
        · refine Or.inl (hrest.rows_mono r ((htaken.rows r).2 (Or.inr ?_)))
          by_contra hout
          exact (htaken.rest r hdue hahead hout).1 rfl
      · exact ih hjob

/-- No copy takes in a record that a stored row has overtaken. -/
theorem Copies.not_mem_of_overtaken (h : Copies L account start jobs before after) {r : ρ}
    (hout : r ∉ before) (hover : L.Overtaken before r) : r ∉ after := by
  induction h with
  | none => exact hout
  | next htaken _ ih =>
      refine ih (fun hr => ?_) (hover.mono fun u hu => (htaken.rows u).2 (Or.inl hu))
      rcases (htaken.rows r).1 hr with hr | hr
      · exact hout hr
      · exact (htaken.due r hr).2 hover

/-- What overtakes a record after some copies into an empty store is due in one of
them. -/
theorem Copies.overtaken_iff (h : Copies L account start jobs [] after) {r : ρ} :
    L.Overtaken after r ↔ ∃ job ∈ jobs, ∃ u, L.Due (account job.1) job.2 start u ∧
      (L.key u).exchange = (L.key r).exchange ∧ L.symbol u = L.symbol r ∧
      L.time r < L.time u := by
  constructor
  · rintro ⟨u, hu, hnewer⟩
    rcases h.due_of_mem hu with hu | ⟨job, hjob, hdue⟩
    · cases hu
    · exact ⟨job, hjob, u, hdue, hnewer⟩
  · rintro ⟨job, hjob, u, hdue, hexchange, hsymbol, hlt⟩
    rcases h.mem_or_overtaken hjob hdue with hu | ⟨v, hv, hexchange', hsymbol', hlt'⟩
    · exact ⟨u, hu, hexchange, hsymbol, hlt⟩
    · exact ⟨v, hv, hexchange'.trans hexchange, hsymbol'.trans hsymbol, hlt.trans hlt'⟩

end Chains

theorem own_fills {x : Simulated} (h : x.Valid) : fills.Own x := by
  refine ⟨h.trade_exchange, fun a ha b hb hkey => ?_⟩
  exact List.inj_on_of_nodup_map h.trade_ids.nodup ha hb (RecordKey.mk.inj hkey).2

theorem own_closedOrders {x : Simulated} (h : x.Valid) : closedOrders.Own x := by
  refine ⟨fun o ho => h.order_exchange o (Simulated.mem_closed.1 ho).1, ?_⟩
  intro a ha b hb hkey
  exact List.inj_on_of_nodup_map h.order_ids.nodup (Simulated.mem_closed.1 ha).1
    (Simulated.mem_closed.1 hb).1 (RecordKey.mk.inj hkey).2

end Ledger

/-! ## One copy at a desk -/

namespace Desk

variable {ω : Type} {outside : Surroundings ω} {now : ω → Timestamp}
  {names : Nat → String} {i : Nat} {symbol : String} {d d' : Desk ω}
  {pageLimit steps : Nat} {start : Timestamp} {result : Outcome SyncError Unit}

/-- Rows of one key are one row, wherever they come from. -/
theorem agree_pages {ρ : Type} {L : Ledger ρ} {x : Simulated} {rows pages : List ρ}
    (hrows : AscendingBy L.key rows) (hown : L.Own x) (hagree : L.Agree x rows)
    (hpages : ∀ r ∈ pages, r ∈ L.held x) :
    ∀ a ∈ rows ++ pages, ∀ b ∈ rows ++ pages, L.key a = L.key b → a = b := by
  intro a ha b hb hkey
  rcases List.mem_append.1 ha with ha | ha <;> rcases List.mem_append.1 hb with hb | hb
  · exact List.inj_on_of_nodup_map hrows.nodup_keys ha hb hkey
  · exact hagree a ha b (hpages b hb) hkey
  · exact (hagree b hb a (hpages a ha) hkey.symm).symm
  · exact hown.key a (hpages a ha) b (hpages b hb) hkey

/-- A copy of a history at a desk leaves the books alone and is a copy of the
ledger. -/
theorem sync_taken {ρ : Type} {L : Ledger ρ} {history : History (Desk ω) ρ}
    (hserving : Serving (around outside) history
      ((L.held (d.account i)).filter fun r => L.symbol r == symbol) (SameBooks d))
    (htime : history.time = L.time)
    (hnewest : history.newest d.store = latest? (((L.rows d.store).filter fun u =>
      (L.key u).exchange == (d.account i).name && L.symbol u == symbol).map L.time))
    (hown : L.Own (d.account i))
    (hwrite : ∀ written : List (List ρ), (∀ r ∈ written.flatten, r ∈ L.held (d.account i)) →
      ∀ r, r ∈ L.rows (history.writeAll written d.store) ↔
        r ∈ L.rows d.store ∨ r ∈ written.flatten)
    (hsync : (database outside).sync history pageLimit steps start d = (result, d')) :
    (∀ j, (d.account j).SameBooks (d'.account j)) ∧
      ∃ written, d'.store = history.writeAll written d.store ∧
        L.Taken (d.account i) symbol start (L.rows d.store) result (L.rows d'.store)
          written.flatten := by
  obtain ⟨written, hcopied⟩ := hserving.run_copied pageLimit steps start d.store
    (SameBooks.refl d)
  obtain ⟨ended, hended⟩ : ∃ ended, Sync.run (around outside) history pageLimit steps start
    d.store d = ended := ⟨_, rfl⟩
  rw [hended] at hcopied
  have hparts : (ended.1, { ended.2.2 with store := ended.2.1 }) = (result, d') := by
    rw [← hsync, ← hended]
    rfl
  obtain ⟨rfl, rfl⟩ := Prod.mk.inj hparts
  have hheld : ∀ r ∈ written.flatten, r ∈ L.held (d.account i) :=
    fun r hr => List.mem_of_mem_filter (hcopied.sound r hr).1
  refine ⟨hcopied.world.account, written, hcopied.store_eq, ?_⟩
  rw [hnewest] at hcopied
  exact Ledger.taken_of_copied hown htime (hwrite written hheld) hcopied

/-- The same for the fills of any exchange that answers from the account's books. -/
theorem taken_fills {x : Exchange (Desk ω)} (hserving : Serving (around outside)
      (.trades x symbol) ((d.account i).trades.filter fun t => t.symbol == symbol) (SameBooks d))
    (hname : x.name = (d.account i).name) (hvalid : (d.account i).Valid)
    (hstore : d.store.Ascending) (hagree : Ledger.fills.Agree (d.account i) d.store.trades)
    (hsync : (database outside).syncKind x pageLimit steps .trades symbol start d =
      (result, d')) :
    (∀ j, (d.account j).SameBooks (d'.account j)) ∧ d'.store.Ascending ∧
      d'.store.orders = d.store.orders ∧
      ∃ taken, Ledger.fills.Taken (d.account i) symbol start d.store.trades result
        d'.store.trades taken := by
  have hown := Ledger.own_fills hvalid
  obtain ⟨hbooks, written, hwritten, htaken⟩ := sync_taken (L := .fills) hserving rfl
    (by rw [← hname]; rfl) hown
    (fun written hheld r => by
      rw [History.writeAll_trades]
      exact Store.mem_insertTrades_of_agree hstore
        (agree_pages (L := .fills) hstore.trades hown hagree hheld)) hsync
  rw [History.writeAll_trades] at hwritten
  refine ⟨hbooks, ?_, by rw [hwritten]; rfl, written.flatten, htaken⟩
  rw [hwritten]
  exact hstore.insertTrades _

theorem sync_fills (hvalid : (d.account i).Valid) (hname : (d.account i).name = names i)
    (hstore : d.store.Ascending) (hagree : Ledger.fills.Agree (d.account i) d.store.trades)
    (hsync : (database outside).syncKind (exchange now names i) pageLimit steps .trades
      symbol start d = (result, d')) :
    (∀ j, (d.account j).SameBooks (d'.account j)) ∧ d'.store.Ascending ∧
      d'.store.orders = d.store.orders ∧
      ∃ taken, Ledger.fills.Taken (d.account i) symbol start d.store.trades result
        d'.store.trades taken :=
  taken_fills (serving_fills outside now names i symbol d) hname.symm hvalid hstore hagree hsync

theorem sync_closedOrders (hvalid : (d.account i).Valid)
    (hname : (d.account i).name = names i) (hstore : d.store.Ascending)
    (hagree : Ledger.closedOrders.Agree (d.account i) d.store.orders)
    (hsync : (database outside).syncKind (exchange now names i) pageLimit steps .orders
      symbol start d = (result, d')) :
    (∀ j, (d.account j).SameBooks (d'.account j)) ∧ d'.store.Ascending ∧
      d'.store.trades = d.store.trades ∧
      ∃ taken, Ledger.closedOrders.Taken (d.account i) symbol start d.store.orders result
        d'.store.orders taken := by
  have hown := Ledger.own_closedOrders hvalid
  obtain ⟨hbooks, written, hwritten, htaken⟩ := sync_taken (L := .closedOrders)
    (serving_closedOrders outside now names i symbol d) rfl (by rw [hname]; rfl) hown
    (fun written hheld r => by
      rw [History.writeAll_orders]
      exact Store.mem_upsertOrders_of_agree hstore
        (agree_pages (L := .closedOrders) hstore.orders hown hagree hheld)) hsync
  rw [History.writeAll_orders] at hwritten
  refine ⟨hbooks, ?_, by rw [hwritten]; rfl, written.flatten, htaken⟩
  rw [hwritten]
  exact hstore.upsertOrders _

end Desk

end Tradebook
