import Mathlib
import Tradebook.Proofs.Ledger

/-!
# Copies that are cut short

A copy may end in the middle: the exchange fails on some page, the store refuses
one, the signal to stop comes. What it has written by then stays, and it may end in
the middle of an instant. The next copy resumes at the newest stored fill.

Nothing is lost that way as long as no fill comes in behind the newest stored one.
The invariant (`Kept`) is that of a frontier: a fill that is due and not stored is
not older than any stored fill of the symbol. A copy keeps it however it ends,
because of what it has to write it writes the oldest first; a new fill keeps it
because it is not older than the frontier. So the first copy that ends well
has the whole history (`stored_as_uninterrupted`), and its store is the one that a
single undisturbed copy of that history leaves.
-/

namespace Tradebook

/-- An exchange that a mishap may keep from answering about fills. -/
def Exchange.disturbed {σ : Type} (x : Exchange σ)
    (mishap : σ → Outcome ExchangeError Unit × σ) : Exchange σ :=
  { x with
    trades := fun symbol since limit s =>
      match mishap s with
      | (.ok (), s) => x.trades symbol since limit s
      | (.error cause, s) => (.error cause, s)
      | (.overflow, s) => (.overflow, s)
      | (.exhausted, s) => (.exhausted, s) }

theorem Serving.disturbed {σ : Type} {around : Surroundings σ} {x : Exchange σ}
    {symbol : String} {records : List Trade} {inv : σ → Prop}
    (h : Serving around (.trades x symbol) records inv)
    (mishap : σ → Outcome ExchangeError Unit × σ) (hmishap : ∀ s, inv s → inv (mishap s).2) :
    Serving around (.trades (x.disturbed mishap) symbol) records inv := by
  constructor
  case page =>
    intro since limit s rows s' hs hfetch
    have hinv := hmishap s hs
    simp only [History.trades, Exchange.disturbed] at hfetch
    rcases hcase : mishap s with ⟨⟨⟩ | cause | _ | _, s₁⟩ <;> rw [hcase] at hfetch hinv
    · exact h.page hinv hfetch
    all_goals simp [Fetched.ofOutcome] at hfetch
  case fetch =>
    intro since limit s hs
    have hinv := hmishap s hs
    simp only [History.trades, Exchange.disturbed]
    rcases hcase : mishap s with ⟨⟨⟩ | cause | _ | _, s₁⟩ <;> rw [hcase] at hinv
    · exact h.fetch since limit s₁ hinv
    all_goals exact hinv
  case refusal =>
    exact h.refusal

/-! ## Copies that nothing disturbs -/

namespace Sync

variable {σ ρ : Type} {around : Surroundings σ} {history : History σ ρ} (inv : σ → Prop)

/-- Where nobody stops a copy and nothing fails, it ends well or not at all. -/
theorem pages_ok_or_exhausted (hstopped : ∀ s, inv s → around.stopped s = false)
    (hfetch : ∀ since limit s, inv s →
      ∃ rows s', history.fetch since limit s = (.page rows, s') ∧ inv s')
    (hrefusal : ∀ call s, inv s → ∃ s', around.refusal call s = (none, s') ∧ inv s')
    {pageLimit steps : Nat} {cursor : Timestamp} {limit : Nat} {store : Store} {s : σ}
    (hs : inv s) :
    (pages around history pageLimit steps cursor limit store s).1 = .ok () ∨
      (pages around history pageLimit steps cursor limit store s).1 = .exhausted := by
  induction steps generalizing cursor limit store s with
  | zero => exact Or.inr rfl
  | succ steps ih =>
      obtain ⟨rows, s₁, hpage, hs₁⟩ := hfetch cursor limit s hs
      rw [pages, hstopped s hs, if_neg Bool.false_ne_true, hpage]
      cases hlatest : latest? (rows.map history.time) with
      | none =>
          simp [hlatest]
      | some newest =>
          obtain ⟨s₂, haccepted, hs₂⟩ := hrefusal history.writeCall s₁ hs₁
          simp only [hlatest, haccepted]
          split
          · exact Or.inl rfl
          · exact ih hs₂

theorem run_ok_or_exhausted (hstopped : ∀ s, inv s → around.stopped s = false)
    (hfetch : ∀ since limit s, inv s →
      ∃ rows s', history.fetch since limit s = (.page rows, s') ∧ inv s')
    (hrefusal : ∀ call s, inv s → ∃ s', around.refusal call s = (none, s') ∧ inv s')
    {pageLimit steps : Nat} {start : Timestamp} {store : Store} {s : σ} (hs : inv s) :
    (run around history pageLimit steps start store s).1 = .ok () ∨
      (run around history pageLimit steps start store s).1 = .exhausted := by
  obtain ⟨s', haccepted, hs'⟩ := hrefusal history.newestCall s hs
  simp only [run, haccepted]
  exact pages_ok_or_exhausted inv hstopped hfetch hrefusal hs'

/-- A copy that is given no page does not end well. -/
theorem run_ne_ok (hfetch : ∀ since limit s rows s', inv s →
      history.fetch since limit s ≠ (.page rows, s'))
    (hrefusal : ∀ call s, inv s → inv (around.refusal call s).2)
    {pageLimit steps : Nat} {start : Timestamp} {store : Store} {s : σ} (hs : inv s) :
    (run around history pageLimit steps start store s).1 ≠ .ok () := by
  have hinv := hrefusal history.newestCall s hs
  unfold run
  rcases hrefusal : around.refusal history.newestCall s with ⟨_ | reason, s₁⟩
  case some => simp
  rw [hrefusal] at hinv
  cases steps with
  | zero => simp [pages]
  | succ steps =>
      simp only [pages]
      split
      · simp
      · rcases hcase : history.fetch _ _ s₁ with ⟨rows | cause | _ | _, s₂⟩
        · exact absurd hcase (hfetch _ _ _ _ _ hinv)
        all_goals simp

end Sync

/-- Rows in ascending order are told apart by what they are. -/
theorem AscendingBy.eq_of_mem_iff {α : Type} {key : α → RecordKey} {rows rows' : List α}
    (h : AscendingBy key rows) (h' : AscendingBy key rows')
    (hmem : ∀ r, r ∈ rows ↔ r ∈ rows') : rows = rows' := by
  have hirrefl : Std.Irrefl fun a b => (key a).lt (key b) = true :=
    ⟨fun a => RecordKey.not_lt_self (key a)⟩
  have hantisymm : Std.Antisymm fun a b => (key a).lt (key b) = true :=
    ⟨fun a b hab hba => absurd (RecordKey.lt_trans hab hba) (RecordKey.not_lt_self (key a))⟩
  exact List.Pairwise.eq_of_mem_iff h h' hmem

namespace Desk.Fills

open Sync

variable {ω : Type}

section Runs

variable (outside : Surroundings ω) (mishap : ω → Outcome ExchangeError Unit × ω)
  (now : ω → Timestamp) (names : Nat → String) (i : Nat) (symbol : String)
  (start : Timestamp)

/-- A mishap as the desk meets it: it comes from outside and touches neither an account
nor the store. -/
def mishapAt (d : Desk ω) : Outcome ExchangeError Unit × Desk ω :=
  let met := mishap d.rest
  (met.1, { d with rest := met.2 })

/-- A copy of the fills of the symbol that may meet mishaps. -/
def copy (pageLimit steps : Nat) (d : Desk ω) : Outcome SyncError Unit × Desk ω :=
  (database outside).syncKind ((exchange now names i).disturbed (mishapAt mishap)) pageLimit
    steps .trades symbol start d

/-- What may happen: a fill is recorded, the exchange starts to refuse a symbol, the world
outside moves on, or the fills are copied with any end. A fill of the symbol comes in no
earlier than the newest one that is stored. -/
inductive Step : Desk ω → Desk ω → Prop
  | fill {d : Desk ω} (traded : String) (side : Side) (price quantity : Decimal)
      (instant : Timestamp) (hlate : traded = symbol →
        ∀ last ∈ d.store.lastTradeTime (names i) symbol, last ≤ instant) :
      Step d ((place now i).set
        ((d.account i).recordFill traded side price quantity instant).2 d)
  | refuse {d : Desk ω} (refused message : String) :
      Step d ((place now i).set ((d.account i).failSymbol refused message) d)
  | pass {d : Desk ω} (rest : ω) : Step d { d with rest }
  | copy {d : Desk ω} (pageLimit steps : Nat) :
      Step d (copy outside mishap now names i symbol start pageLimit steps d).2

/-- A run from an account without records and an empty store. -/
inductive Reached : Desk ω → Prop
  | fresh {d : Desk ω} (hname : (d.account i).name = names i)
      (htrades : (d.account i).trades = []) (horders : (d.account i).orders = [])
      (hstore : d.store = .empty) : Reached d
  | step {d d' : Desk ω} (h : Reached d)
      (hstep : Step outside mishap now names i symbol start d d') : Reached d'

structure Kept (d : Desk ω) : Prop where
  valid : (d.account i).Valid
  name : (d.account i).name = names i
  ascending : d.store.Ascending
  orders : d.store.orders = []
  due : ∀ t ∈ d.store.trades, Ledger.fills.Due (d.account i) symbol start t
  frontier : ∀ t, Ledger.fills.Due (d.account i) symbol start t → t ∉ d.store.trades →
    ¬ Ledger.fills.Overtaken d.store.trades t

end Runs

section Invariant

variable {outside : Surroundings ω} {mishap : ω → Outcome ExchangeError Unit × ω}
  {now : ω → Timestamp} {names : Nat → String} {i : Nat} {symbol : String}
  {start : Timestamp} {d d' : Desk ω} {pageLimit steps : Nat}
  {result : Outcome SyncError Unit}

theorem SameBooks.mishapAt {e : Desk ω} (h : SameBooks d e) :
    SameBooks d (mishapAt mishap e).2 :=
  ⟨h.account, h.store⟩

theorem kept_fresh (hname : (d.account i).name = names i)
    (htrades : (d.account i).trades = []) (horders : (d.account i).orders = [])
    (hstore : d.store = .empty) : Kept names i symbol start d := by
  have hempty : d.store.trades = [] := by rw [hstore]; rfl
  constructor
  case valid =>
    refine ⟨by simp [htrades], by simp [horders], ?_, ?_⟩
    · rw [htrades]
      exact ⟨by simp, List.nodup_nil⟩
    · rw [horders]
      exact ⟨by simp, List.nodup_nil⟩
  case name => exact hname
  case ascending =>
    rw [hstore]
    exact Store.ascending_empty
  case orders => rw [hstore]; rfl
  case due => simp [hempty]
  case frontier =>
    intro t hdue
    simp [Ledger.Due, Ledger.fills, htrades] at hdue

/-- A change of the account that leaves its fills alone changes nothing here. -/
theorem Kept.deal (h : Kept names i symbol start d) (hstore : d'.store = d.store)
    (hvalid : (d'.account i).Valid) (hname : (d'.account i).name = (d.account i).name)
    (htrades : (d'.account i).trades = (d.account i).trades) :
    Kept names i symbol start d' := by
  have hdue : ∀ t, Ledger.fills.Due (d'.account i) symbol start t ↔
      Ledger.fills.Due (d.account i) symbol start t := by
    intro t
    show t ∈ (d'.account i).trades ∧ _ ↔ t ∈ (d.account i).trades ∧ _
    rw [htrades]
  refine ⟨hvalid, hname.trans h.name, hstore ▸ h.ascending, hstore ▸ h.orders, ?_, ?_⟩
  · intro t ht
    rw [hstore] at ht
    exact (hdue t).2 (h.due t ht)
  · intro t hnew hout
    rw [hstore] at hout ⊢
    exact h.frontier t ((hdue t).1 hnew) hout

theorem Kept.fill (h : Kept names i symbol start d) (traded : String) (side : Side)
    (price quantity : Decimal) (instant : Timestamp) (hlate : traded = symbol →
      ∀ last ∈ d.store.lastTradeTime (names i) symbol, last ≤ instant) :
    Kept names i symbol start ((place now i).set
      ((d.account i).recordFill traded side price quantity instant).2 d) := by
  constructor
  case valid =>
    rw [account_set]
    exact h.valid.recordFill traded side price quantity instant
  case name =>
    rw [account_set]
    exact h.name
  case ascending => exact h.ascending
  case orders => exact h.orders
  case due =>
    intro t ht
    rw [account_set]
    obtain ⟨hheld, hrest⟩ := h.due t ht
    exact ⟨List.mem_append_left _ hheld, hrest⟩
  case frontier =>
    rintro t ⟨hheld, hsymbol, hstart⟩ hout
    rw [account_set] at hheld
    rcases List.mem_append.1 hheld with hold | hnew
    · exact h.frontier t ⟨hold, hsymbol, hstart⟩ hout
    · rw [List.mem_singleton] at hnew
      subst hnew
      rintro ⟨u, hu, hexchange, hsame, hlt⟩
      have hsymbol : traded = symbol := hsymbol
      have hlast := latest?_le_iff.1 (hlate hsymbol) u.tradedAt
        (List.mem_map_of_mem (List.mem_filter.2 ⟨hu, ?_⟩))
      · exact not_le_of_gt hlt hlast
      · have hexchange : u.exchange = (d.account i).name := hexchange
        have hsame : u.symbol = traded := hsame
        simp [hexchange, hsame, hsymbol, h.name]

theorem Kept.taken (h : Kept names i symbol start d)
    (hcopy : copy outside mishap now names i symbol start pageLimit steps d = (result, d')) :
    (∀ j, (d.account j).SameBooks (d'.account j)) ∧ d'.store.Ascending ∧
      d'.store.orders = d.store.orders ∧
      ∃ taken, Ledger.fills.Taken (d.account i) symbol start d.store.trades result
        d'.store.trades taken := by
  have hserving := (serving_fills outside now names i symbol d).disturbed
    (mishapAt mishap) fun s hs => SameBooks.mishapAt hs
  refine taken_fills hserving h.name.symm h.valid h.ascending ?_ hcopy
  exact fun u hu r hr hkey => (Ledger.own_fills h.valid).key u (h.due u hu).1 r hr hkey

/-- A copy keeps the frontier, however it ends: what it leaves out is no older than
what it has taken in. -/
theorem Kept.copied (h : Kept names i symbol start d) {taken : List Trade}
    (hbooks : (d.account i).SameBooks (d'.account i)) (hascending : d'.store.Ascending)
    (horders : d'.store.orders = d.store.orders)
    (htaken : Ledger.fills.Taken (d.account i) symbol start d.store.trades result
      d'.store.trades taken) : Kept names i symbol start d' := by
  refine ⟨h.valid.sameBooks hbooks, hbooks.name_eq.trans h.name, hascending,
    horders.trans h.orders, fun t ht => ?_, fun t hnew hout => ?_⟩
  · rw [Ledger.due_sameBooks hbooks]
    rcases (htaken.rows t).1 ht with ht | ht
    · exact h.due t ht
    · exact (htaken.due t ht).1
  · rw [Ledger.due_sameBooks hbooks] at hnew
    have hold : t ∉ d.store.trades := fun ht => hout ((htaken.rows t).2 (Or.inl ht))
    have hout' : t ∉ taken := fun ht => hout ((htaken.rows t).2 (Or.inr ht))
    have hahead := h.frontier t hnew hold
    rintro ⟨u, hu, hexchange, hsame, hlt⟩
    rcases (htaken.rows u).1 hu with hu | hu
    · exact hahead ⟨u, hu, hexchange, hsame, hlt⟩
    · exact not_le_of_gt hlt ((htaken.rest t hnew hahead hout').2 u hu)

theorem Kept.step (h : Kept names i symbol start d)
    (hstep : Step outside mishap now names i symbol start d d') :
    Kept names i symbol start d' := by
  cases hstep with
  | fill traded side price quantity instant hlate =>
      exact h.fill traded side price quantity instant hlate
  | refuse refused message =>
      refine h.deal rfl ?_ ?_ ?_
      all_goals rw [account_set]
      · exact ⟨h.valid.trade_exchange, h.valid.order_exchange, h.valid.trade_ids,
          h.valid.order_ids⟩
      · rfl
      · rfl
  | pass rest => exact h.deal rfl h.valid rfl rfl
  | copy pageLimit steps =>
      obtain ⟨hbooks, hascending, horders, taken, htaken⟩ := h.taken rfl
      exact h.copied (hbooks i) hascending horders htaken

theorem Reached.kept (h : Reached outside mishap now names i symbol start d) :
    Kept names i symbol start d := by
  induction h with
  | fresh hname htrades horders hstore => exact kept_fresh hname htrades horders hstore
  | step _ hstep ih => exact ih.step hstep

/-- A copy that takes in all that is due leaves behind what is due, and nothing else. -/
theorem mem_of_taken {x : Simulated} {before after taken : List Trade}
    (hdue : ∀ t ∈ before, Ledger.fills.Due x symbol start t)
    (hfrontier : ∀ t, Ledger.fills.Due x symbol start t → t ∉ before →
      ¬ Ledger.fills.Overtaken before t)
    (htaken : Ledger.fills.Taken x symbol start before (.ok ()) after taken) (t : Trade) :
    t ∈ after ↔ Ledger.fills.Due x symbol start t := by
  constructor
  · intro ht
    rcases (htaken.rows t).1 ht with ht | ht
    · exact hdue t ht
    · exact (htaken.due t ht).1
  · intro hnew
    by_contra hout
    have hold : t ∉ before := fun ht => hout ((htaken.rows t).2 (Or.inl ht))
    have hout' : t ∉ taken := fun ht => hout ((htaken.rows t).2 (Or.inr ht))
    exact (htaken.rest t hnew (hfrontier t hnew hold) hout').1 rfl

end Invariant

/-! ## The undisturbed copy -/

section Undisturbed

variable {outside : Surroundings ω} {mishap : ω → Outcome ExchangeError Unit × ω}
  {now : ω → Timestamp} {names : Nat → String} {i : Nat} {symbol : String}
  {start : Timestamp} {d d' : Desk ω} {pageLimit steps : Nat}

/-- An exchange that refuses a symbol lets no copy of it end well. -/
theorem not_refused
    (hcopy : copy outside mishap now names i symbol start pageLimit steps d = (.ok (), d')) :
    (d.account i).failingSymbols.lookup symbol = none := by
  by_contra hrefused
  obtain ⟨message, hmessage⟩ := Option.ne_none_iff_exists'.1 hrefused
  have hended : (run (around outside)
      (.trades ((exchange now names i).disturbed (mishapAt mishap)) symbol) pageLimit steps start
      d.store d).1 = .ok () := congrArg Prod.fst hcopy
  refine run_ne_ok (SameBooks d) ?_ (fun call s hs => hs.refusal outside call) (SameBooks.refl d)
    hended
  intro since limit s rows s' hs hfetch
  simp only [History.trades, Exchange.disturbed] at hfetch
  have hs₁ : SameBooks d (mishapAt mishap s).2 := SameBooks.mishapAt hs
  rcases hcase : mishapAt mishap s with ⟨⟨⟩ | cause | _ | _, s₁⟩ <;> rw [hcase] at hfetch hs₁
  · have hlookup : (s₁.account i).failingSymbols.lookup symbol = some message := by
      rw [(hs₁.account i).failingSymbols_eq, hmessage]
    have hanswer := congrArg Prod.fst hfetch
    simp [exchange, Simulated.exchange, place, Simulated.note, Simulated.unlessFailing,
      hlookup, Fetched.ofOutcome] at hanswer
  all_goals simp [Fetched.ofOutcome] at hfetch

theorem undisturbed_ok (hanswers : (d.account i).failingSymbols.lookup symbol = none)
    (hfew : (d.account i).trades.length < greatestLimit) (pageLimit : Nat)
    (hsteps : enoughPages (d.account i).trades.length ≤ steps) :
    ((database undisturbed).syncKind (exchange now names i) pageLimit steps .trades symbol
      start d).1 = .ok () := by
  have hlength : ((d.account i).trades.filter fun t => t.symbol == symbol).length ≤
      (d.account i).trades.length := List.length_filter_le _ _
  obtain ⟨ended, hends, hrun⟩ :=
    (serving_fills undisturbed now names i symbol d).run_settles (by omega) pageLimit start
      d.store (SameBooks.refl d)
  have hsettled := hrun steps (le_trans (enoughPages_mono hlength) hsteps)
  have hpage : ∀ since limit s, SameBooks d s → ∃ rows s',
      (History.trades (exchange now names i) symbol).fetch since limit s = (.page rows, s') ∧
        SameBooks d s' := by
    intro since limit s hs
    have hlookup : (s.account i).failingSymbols.lookup symbol = none := by
      rw [(hs.account i).failingSymbols_eq, hanswers]
    refine ⟨((s.account i).tradesSince symbol since).take limit, _, Prod.ext ?_ rfl,
      hs.ask now i (.trades symbol since limit)⟩
    show Fetched.ofOutcome (((s.account i).note _).unlessFailing symbol _) = _
    simp only [Simulated.note, Simulated.unlessFailing, hlookup]
    rfl
  have hgood : (run (around undisturbed) (.trades (exchange now names i) symbol) pageLimit steps
        start d.store d).1 = .ok () ∨
      (run (around undisturbed) (.trades (exchange now names i) symbol) pageLimit steps start
        d.store d).1 = .exhausted :=
    run_ok_or_exhausted (SameBooks d) (fun _ _ => rfl) hpage
      (fun call s hs => ⟨_, rfl, hs.refusal undisturbed call⟩) (SameBooks.refl d)
  rw [hsettled] at hgood
  have hok := hgood.resolve_right hends
  rw [← hsettled] at hok
  exact hok

end Undisturbed

/-- After a copy that ended well the store holds the fills of the symbol from the
start on, each of them once and nothing else, as an undisturbed copy of the final
history into an empty store leaves it. -/
theorem stored_as_uninterrupted {outside : Surroundings ω}
    {mishap : ω → Outcome ExchangeError Unit × ω} {now : ω → Timestamp}
    {names : Nat → String} {i : Nat} {symbol : String} {start : Timestamp} {d d' : Desk ω}
    (hreached : Reached outside mishap now names i symbol start d) {pageLimit steps : Nat}
    (hcopy : copy outside mishap now names i symbol start pageLimit steps d = (.ok (), d')) :
    (∀ t, t ∈ d'.store.trades ↔
      t ∈ (d'.account i).trades ∧ t.symbol = symbol ∧ start ≤ t.tradedAt) ∧
    (d'.store.trades.map Trade.key).Nodup ∧
    ((d'.account i).trades.length < greatestLimit → ∀ pageLimit steps,
      enoughPages (d'.account i).trades.length ≤ steps →
      ∃ d'', (database undisturbed).syncKind (exchange now names i) pageLimit steps .trades
        symbol start { d' with store := .empty } = (.ok (), d'') ∧ d''.store = d'.store) := by
  have hkept := hreached.kept
  obtain ⟨hbooks, hascending, horders, taken, htaken⟩ := hkept.taken hcopy
  have hmem : ∀ t, t ∈ d'.store.trades ↔ Ledger.fills.Due (d'.account i) symbol start t := by
    intro t
    rw [Ledger.due_sameBooks (hbooks i)]
    exact mem_of_taken hkept.due hkept.frontier htaken t
  refine ⟨hmem, hascending.trades.nodup_keys, fun hfew pageLimit steps hsteps => ?_⟩
  have hafter := hkept.copied (hbooks i) hascending horders htaken
  have hanswers : (d'.account i).failingSymbols.lookup symbol = none := by
    obtain ⟨calls, hsame⟩ := hbooks i
    rw [hsame]
    exact not_refused hcopy
  -- The same desk before anything was stored.
  have hbare : ∀ t, t ∉ (Store.empty).trades := fun t => List.not_mem_nil
  obtain ⟨d'', hd''⟩ : ∃ d'', (database undisturbed).syncKind (exchange now names i) pageLimit
      steps .trades symbol start { d' with store := .empty } = (.ok (), d'') :=
    ⟨_, Prod.ext (undisturbed_ok (d := { d' with store := .empty }) hanswers hfew pageLimit
      hsteps) rfl⟩
  obtain ⟨-, hascending'', horders'', taken'', htaken''⟩ :=
    sync_fills (d := { d' with store := .empty }) hafter.valid hafter.name
      Store.ascending_empty (fun u hu => absurd hu (hbare u)) hd''
  refine ⟨d'', hd'', ?_⟩
  have htrades : d''.store.trades = d'.store.trades := by
    refine hascending''.trades.eq_of_mem_iff hascending.trades fun t => ?_
    rw [hmem]
    refine mem_of_taken (fun u hu => absurd hu (hbare u)) (fun u _ _ => ?_) htaken'' t
    rintro ⟨v, hv, -⟩
    exact hbare v hv
  have horders' : d''.store.orders = d'.store.orders := horders''.trans hafter.orders.symm
  show (⟨_, _⟩ : Store) = _
  rw [htrades, horders']

/-! ## A copy that is cut within an instant -/

/-- A store that takes a number of requests and refuses the one after them. -/
def refusesLast : Surroundings Nat where
  stopped _ := false
  refusal _ n :=
    match n with
    | 0 => (none, 0)
    | 1 => (some "closed", 0)
    | n + 2 => (none, n + 1)

abbrev simulatedFill (d : Desk Nat) : Desk Nat :=
  (place (fun _ => .epoch) 0).set
    ((d.account 0).recordFill "BTCUSDT" .buy .zero .zero .epoch).2 d

abbrev simulatedCopy (d : Desk Nat) : Outcome SyncError Unit × Desk Nat :=
  copy refusesLast (fun n => (.ok (), n)) (fun _ => .epoch) (fun _ => "sim") 0 "BTCUSDT" .epoch 1
    9 d

/-- Two fills of one instant, of which the copy in pages of one gets only the first into the
store, and then a third fill of that instant. -/
def cutDesk : Desk Nat :=
  let fresh : Desk Nat := ⟨fun _ => .new "sim", .empty, 3⟩
  let cut := (simulatedCopy (simulatedFill (simulatedFill fresh))).2
  { simulatedFill cut with rest := 0 }

theorem last_le_of_check {store : Store} {instant : Timestamp}
    (h : (store.lastTradeTime "sim" "BTCUSDT").all (· ≤ instant) = true) :
    ∀ last ∈ store.lastTradeTime "sim" "BTCUSDT", last ≤ instant := by
  intro last hlast
  rw [Option.mem_def.1 hlast] at h
  simpa using h

theorem reached_cutDesk : Reached refusesLast (fun n => (.ok (), n)) (fun _ => .epoch)
    (fun _ => "sim") 0 "BTCUSDT" .epoch cutDesk := by
  refine .step (.step (.step (.step (.step (.fresh rfl rfl rfl rfl)
    (.fill "BTCUSDT" .buy .zero .zero .epoch fun _ => last_le_of_check ?_))
    (.fill "BTCUSDT" .buy .zero .zero .epoch fun _ => last_le_of_check ?_)) (.copy 1 9))
    (.fill "BTCUSDT" .buy .zero .zero .epoch fun _ => last_le_of_check ?_)) (.pass 0)
  all_goals cbv

/-- One fill of three was stored, the next copy ends well, and then all three are. -/
theorem stored_as_uninterrupted_cut :
    cutDesk.store.trades.length = 1 ∧
    ∃ d', simulatedCopy cutDesk = (.ok (), d') ∧ d'.store.trades.length = 3 ∧
      (∀ t, t ∈ d'.store.trades ↔
        t ∈ (d'.account 0).trades ∧ t.symbol = "BTCUSDT" ∧ Timestamp.epoch ≤ t.tradedAt) := by
  have hcopy : simulatedCopy cutDesk = (.ok (), (simulatedCopy cutDesk).2) :=
    Prod.ext (by cbv) rfl
  refine ⟨by cbv, _, hcopy, by cbv, ?_⟩
  exact (stored_as_uninterrupted reached_cutDesk hcopy).1

end Desk.Fills

end Tradebook
