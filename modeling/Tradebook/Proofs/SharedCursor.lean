import Mathlib
import Tradebook.Proofs.GoodRun
import Tradebook.Proofs.Ledger

/-!
# Sessions that share a cursor

A run copies one session after the other into one store. Where a copy resumes
depends on the name of the exchange, and two accounts may be at exchanges of one
name. Then the second account is copied from the newest record of the first one
on, and what it holds from before is passed by.

`Run.jobs` are the copies that a run comes to if every one of them ends well, and
`run_copies` says that it comes to these. `stored_iff_foremost` then says which
records a run leaves in the store: those that are at least as new as all that an
earlier session of the same exchange name had to copy for the symbol.
`later_session_loses_fill` is a run that loses a fill in this way.
-/

namespace Tradebook

namespace Run

/-- The symbols that a run copies for a session with a simulated account. -/
def syncedSymbols (request : RunRequest) (session : Session) (x : Simulated) : List String :=
  match request.symbol with
  | some symbol => [session.effectiveSymbol symbol]
  | none => ((Discovery.symbols? x.balances x.markets).getD []).map session.effectiveSymbol

/-- The copies of a run: for each session in turn, one of each of its symbols. -/
def jobs (request : RunRequest) (account : Nat → Simulated) :
    Nat → List Session → List (Nat × String)
  | _, [] => []
  | position, session :: sessions =>
    (syncedSymbols request session (account position)).map (position, ·) ++
      jobs request account (position + 1) sessions

theorem mem_jobs {request : RunRequest} {account : Nat → Simulated} {position : Nat}
    {sessions : List Session} {job : Nat × String} :
    job ∈ jobs request account position sessions ↔
      ∃ k, ∃ session ∈ sessions[k]?, job.1 = position + k ∧
        job.2 ∈ syncedSymbols request session (account job.1) := by
  induction sessions generalizing position with
  | nil => simp [jobs]
  | cons session sessions ih =>
      rw [jobs, List.mem_append, ih]
      constructor
      · rintro (hjob | ⟨k, other, hother, hposition, hsymbol⟩)
        · obtain ⟨symbol, hsymbol, rfl⟩ := List.mem_map.1 hjob
          exact ⟨0, session, rfl, rfl, hsymbol⟩
        · exact ⟨k + 1, other, hother, by omega, hsymbol⟩
      · rintro ⟨k, other, hother, hposition, hsymbol⟩
        cases k with
        | zero =>
            obtain rfl : session = other := by simpa using hother
            obtain ⟨i, symbol⟩ := job
            obtain rfl : i = position := hposition
            exact Or.inl (List.mem_map.2 ⟨symbol, hsymbol, rfl⟩)
        | succ k => exact Or.inr ⟨k, other, hother, by omega, hsymbol⟩

/-- The sessions come in turn. -/
theorem jobs_ordered (request : RunRequest) (account : Nat → Simulated) (position : Nat)
    (sessions : List Session) :
    (jobs request account position sessions).Pairwise fun a b => a.1 ≤ b.1 := by
  induction sessions generalizing position with
  | nil => exact List.Pairwise.nil
  | cons session sessions ih =>
      refine List.pairwise_append.2 ⟨?_, ih (position + 1), fun a ha b hb => ?_⟩
      · rw [List.pairwise_map]
        exact List.pairwise_of_forall fun _ _ => le_refl _
      · obtain ⟨symbol, -, rfl⟩ := List.mem_map.1 ha
        obtain ⟨k, -, -, hposition, -⟩ := mem_jobs.1 hb
        dsimp only
        omega

end Run

namespace Ledger

variable {ρ : Type} (L : Ledger ρ)

/-- The records of some accounts can be told apart by their keys. -/
structure Apart (n : Nat) (account : Nat → Simulated) : Prop where
  own : ∀ i < n, L.Own (account i)
  position : ∀ i < n, ∀ j < n, ∀ a ∈ L.held (account i), ∀ b ∈ L.held (account j),
    L.key a = L.key b → i = j

/-- Every row is a record of one of the accounts. -/
def Sourced (n : Nat) (account : Nat → Simulated) (rows : List ρ) : Prop :=
  ∀ u ∈ rows, ∃ j < n, u ∈ L.held (account j)

variable {L} {n : Nat} {account : Nat → Simulated} {start : Timestamp}
  {before after : List ρ} {i : Nat}

theorem Apart.agree (h : L.Apart n account) (hsourced : L.Sourced n account before)
    (hi : i < n) : L.Agree (account i) before := by
  intro u hu r hr hkey
  obtain ⟨j, hj, hheld⟩ := hsourced u hu
  obtain rfl := h.position j hj i hi u hheld r hr hkey
  exact (h.own j hj).key u hheld r hr hkey

theorem Sourced.taken (h : L.Sourced n account before) (hi : i < n) {symbol : String}
    {result : Outcome SyncError Unit} {taken : List ρ}
    (htaken : L.Taken (account i) symbol start before result after taken) :
    L.Sourced n account after := by
  intro u hu
  rcases (htaken.rows u).1 hu with hu | hu
  · exact h u hu
  · exact ⟨i, hi, (htaken.due u hu).1.1⟩

end Ledger

namespace Desk

/-- Accounts at exchanges of given names. The ids of their records are distinct among
the accounts at exchanges of one name. -/
structure Separate {ω : Type} (names : Nat → String) (n : Nat) (d : Desk ω) : Prop where
  valid : ∀ i < n, (d.account i).Valid
  name : ∀ i < n, (d.account i).name = names i
  tradeIds : ∀ i < n, ∀ j < n, i ≠ j → names i = names j →
    ∀ t ∈ (d.account i).trades, ∀ u ∈ (d.account j).trades, t.id ≠ u.id
  orderIds : ∀ i < n, ∀ j < n, i ≠ j → names i = names j →
    ∀ o ∈ (d.account i).orders, ∀ u ∈ (d.account j).orders, o.orderId ≠ u.orderId

variable {ω : Type} {outside : Surroundings ω} {now : ω → Timestamp}
  {names : Nat → String} {n pageLimit steps i : Nat} {start : Timestamp}
  {d₀ d d' : Desk ω}

theorem Separate.apart_fills (h : Separate names n d) :
    Ledger.fills.Apart n d.account := by
  refine ⟨fun i hi => Ledger.own_fills (h.valid i hi), ?_⟩
  intro i hi j hj a ha b hb hkey
  by_contra hne
  obtain ⟨hexchange, hid⟩ := RecordKey.mk.inj hkey
  rw [(h.valid i hi).trade_exchange a ha, (h.valid j hj).trade_exchange b hb, h.name i hi,
    h.name j hj] at hexchange
  exact h.tradeIds i hi j hj hne hexchange a ha b hb hid

theorem Separate.apart_closedOrders (h : Separate names n d) :
    Ledger.closedOrders.Apart n d.account := by
  refine ⟨fun i hi => Ledger.own_closedOrders (h.valid i hi), ?_⟩
  intro i hi j hj a ha b hb hkey
  by_contra hne
  obtain ⟨hexchange, hid⟩ := RecordKey.mk.inj hkey
  have ha' := (Simulated.mem_closed.1 ha).1
  have hb' := (Simulated.mem_closed.1 hb).1
  rw [(h.valid i hi).order_exchange a ha', (h.valid j hj).order_exchange b hb', h.name i hi,
    h.name j hj] at hexchange
  exact h.orderIds i hi j hj hne hexchange a ha' b hb' hid

/-! ## The copies of a run -/

/-- A desk in the middle of a run that began at another one. -/
structure Midway (n : Nat) (d₀ d : Desk ω) : Prop where
  books : ∀ i, (d₀.account i).SameBooks (d.account i)
  ascending : d.store.Ascending
  fills : Ledger.fills.Sourced n d₀.account d.store.trades
  closedOrders : Ledger.closedOrders.Sourced n d₀.account d.store.orders

/-- Copies that ended well lead from one desk of a run to another. -/
structure Went (n : Nat) (d₀ : Desk ω) (start : Timestamp) (jobs : List (Nat × String))
    (d d' : Desk ω) : Prop where
  midway : Midway n d₀ d'
  fills : Ledger.fills.Copies d₀.account start jobs d.store.trades d'.store.trades
  closedOrders : Ledger.closedOrders.Copies d₀.account start jobs d.store.orders d'.store.orders

theorem Midway.went (h : Midway n d₀ d) : Went n d₀ start [] d d :=
  ⟨h, .none, .none⟩

theorem Went.trans {jobs jobs' : List (Nat × String)} {between : Desk ω}
    (h : Went n d₀ start jobs d between) (h' : Went n d₀ start jobs' between d') :
    Went n d₀ start (jobs ++ jobs') d d' :=
  ⟨h'.midway, h.fills.append h'.fills, h.closedOrders.append h'.closedOrders⟩

/-- Questions to the accounts are not noticed. -/
theorem Midway.ask (h : Midway n d₀ d) (hbooks : SameBooks d d') : Midway n d₀ d' := by
  refine ⟨fun i => (h.books i).trans (hbooks.account i), ?_, ?_, ?_⟩
  all_goals rw [hbooks.store]
  · exact h.ascending
  · exact h.fills
  · exact h.closedOrders

theorem Midway.went_fills (hmid : Midway n d₀ d) (hapart : Separate names n d₀)
    (hi : i < n) {symbol : String}
    (hsync : (database outside).syncKind (exchange now names i) pageLimit steps .trades
      symbol start d = (.ok (), d')) :
    Midway n d₀ d' ∧ d'.store.orders = d.store.orders ∧
      Ledger.fills.Copies d₀.account start [(i, symbol)] d.store.trades d'.store.trades := by
  have hbooks := hmid.books i
  have hagree := (hapart.apart_fills.agree hmid.fills hi).sameBooks hbooks
  obtain ⟨hbooks', hascending, horders, taken, htaken⟩ :=
    sync_fills ((hapart.valid i hi).sameBooks hbooks)
      (hbooks.name_eq.trans (hapart.name i hi)) hmid.ascending hagree hsync
  have htaken := htaken.sameBooks hbooks
  refine ⟨⟨fun j => (hmid.books j).trans (hbooks' j), hascending,
    hmid.fills.taken hi htaken, ?_⟩, horders, .next htaken .none⟩
  rw [horders]
  exact hmid.closedOrders

theorem Midway.went_closedOrders (hmid : Midway n d₀ d) (hapart : Separate names n d₀)
    (hi : i < n) {symbol : String}
    (hsync : (database outside).syncKind (exchange now names i) pageLimit steps .orders
      symbol start d = (.ok (), d')) :
    Midway n d₀ d' ∧ d'.store.trades = d.store.trades ∧
      Ledger.closedOrders.Copies d₀.account start [(i, symbol)] d.store.orders
        d'.store.orders := by
  have hbooks := hmid.books i
  have hagree := (hapart.apart_closedOrders.agree hmid.closedOrders hi).sameBooks hbooks
  obtain ⟨hbooks', hascending, htrades, taken, htaken⟩ :=
    sync_closedOrders ((hapart.valid i hi).sameBooks hbooks)
      (hbooks.name_eq.trans (hapart.name i hi)) hmid.ascending hagree hsync
  have htaken := htaken.sameBooks hbooks
  refine ⟨⟨fun j => (hmid.books j).trans (hbooks' j), hascending, ?_,
    hmid.closedOrders.taken hi htaken⟩, htrades, .next htaken .none⟩
  rw [htrades]
  exact hmid.fills

/-- The accounts of a desk, as a run sees them. -/
abbrev accounts (outside : Surroundings ω) (now : ω → Timestamp) (names : Nat → String)
    (pageLimit steps : Nat) : Accounts (Desk ω) :=
  (database outside).accounts (exchange now names) pageLimit steps

/-- Both copies of a symbol are copies of both ledgers, because neither touches the
rows of the other. -/
theorem Midway.went_symbol (hmid : Midway n d₀ d) (hapart : Separate names n d₀) (hi : i < n)
    {session : Session} {requested : String}
    (hsync : Run.syncSymbol (accounts outside now names pageLimit steps) i session start
      requested d = (.ok (), d')) :
    Went n d₀ start [(i, session.effectiveSymbol requested)] d d' := by
  obtain ⟨between, hfills, horders⟩ := Run.syncSymbol_ok hsync
  obtain ⟨hmid', hsame, hcopies⟩ := hmid.went_fills hapart hi hfills
  obtain ⟨hmid'', hsame', hcopies'⟩ := hmid'.went_closedOrders hapart hi horders
  rw [hsame] at hcopies'
  rw [← hsame'] at hcopies
  exact ⟨hmid'', hcopies, hcopies'⟩

theorem Midway.went_symbols (hmid : Midway n d₀ d) (hapart : Separate names n d₀) (hi : i < n)
    {session : Session} {symbols : List String}
    (hsync : Run.syncSymbols (accounts outside now names pageLimit steps) i session start
      symbols d = (.ok (), d')) :
    Went n d₀ start ((symbols.map session.effectiveSymbol).map (i, ·)) d d' := by
  induction symbols generalizing d with
  | nil =>
      obtain ⟨-, rfl⟩ := Prod.mk.inj hsync
      exact hmid.went
  | cons symbol symbols ih =>
      obtain ⟨between, hfirst, hrest⟩ := Run.syncSymbols_cons_ok hsync
      have hwent := hmid.went_symbol hapart hi hfirst
      exact hwent.trans (ih hwent.midway hrest)

/-- What an account answers about its balances is what it holds. -/
theorem balances_ok (names : Nat → String) {balances : Balances}
    (h : (exchange now names i).balances d = (.ok balances, d')) :
    balances = (d.account i).balances ∧ SameBooks d d' := by
  obtain ⟨hanswer, rfl⟩ := Prod.mk.inj h
  refine ⟨?_, (SameBooks.refl d).ask now i .balances⟩
  split at hanswer
  · cases hanswer
  · exact (Outcome.ok.inj hanswer).symm

theorem markets_ok (names : Nat → String) {markets : List Market}
    (h : (exchange now names i).markets d = (.ok markets, d')) :
    markets = (d.account i).markets ∧ SameBooks d d' := by
  obtain ⟨hanswer, rfl⟩ := Prod.mk.inj h
  exact ⟨(Outcome.ok.inj hanswer).symm, (SameBooks.refl d).ask now i .markets⟩

theorem Midway.went_session (hmid : Midway n d₀ d) (hapart : Separate names n d₀) (hi : i < n)
    {request : RunRequest} {session session' : Session}
    (hsync : Run.syncSession (accounts outside now names pageLimit steps) request i session d =
      (.ok (), session', d')) :
    Went n d₀ request.start
      ((Run.syncedSymbols request session (d₀.account i)).map (i, ·)) d d' := by
  unfold Run.syncedSymbols
  rcases Run.syncSession_ok hsync with
    ⟨symbol, hsymbol, hrun⟩ | ⟨hsymbol, symbols, found, hdiscover, hrun⟩
  · rw [hsymbol]
    exact hmid.went_symbols hapart hi hrun
  · obtain ⟨balances, markets, between, hbalances, hmarkets, rfl, hsymbols⟩ :=
      Run.discover_ok hdiscover
    obtain ⟨rfl, hasked⟩ := balances_ok names hbalances
    obtain ⟨rfl, hasked'⟩ := markets_ok names hmarkets
    -- The answers are those of the account at the beginning of the run.
    have hbooks := hmid.books i
    obtain ⟨calls, hcalls⟩ := hbooks.trans (hasked.account i)
    obtain ⟨calls', hcalls'⟩ := hbooks
    rw [hcalls, hcalls'] at hsymbols
    rw [hsymbol, show Discovery.symbols? (d₀.account i).balances (d₀.account i).markets =
      some symbols from hsymbols]
    have hwent := ((hmid.ask hasked).ask hasked').went_symbols hapart hi hrun
    refine ⟨hwent.midway, ?_, ?_⟩
    · rw [← hasked.store, ← hasked'.store]
      exact hwent.fills
    · rw [← hasked.store, ← hasked'.store]
      exact hwent.closedOrders

theorem Midway.went_sessions (hmid : Midway n d₀ d) (hapart : Separate names n d₀)
    {request : RunRequest} {position : Nat} {sessions sessions' : List Session}
    (hn : position + sessions.length ≤ n)
    (hsync : Run.syncSessions (accounts outside now names pageLimit steps) request position
      (sessions.map (true, ·)) d = (.ok (), sessions', d')) :
    Went n d₀ request.start (Run.jobs request d₀.account position sessions) d d' := by
  induction sessions generalizing position d sessions' with
  | nil =>
      obtain ⟨-, hrest⟩ := Prod.mk.inj hsync
      obtain ⟨-, rfl⟩ := Prod.mk.inj hrest
      exact hmid.went
  | cons session sessions ih =>
      rw [List.length_cons] at hn
      obtain ⟨session', rest, between, hfirst, hrest⟩ := Run.syncSessions_target_ok hsync
      have hwent := hmid.went_session hapart (by omega) hfirst
      exact hwent.trans (ih hwent.midway (by omega) hrest)

/-- A run over all sessions that ended well comes to its copies. -/
theorem run_copies {request : RunRequest} {sessions sessions' : List Session}
    (hall : request.session = none) (hempty : d.store = .empty)
    (hapart : Separate names sessions.length d)
    (hrun : Run.run (accounts outside now names pageLimit steps) request sessions d =
      (.ok (), sessions', d')) :
    Ledger.fills.Copies d.account request.start (Run.jobs request d.account 0 sessions) []
      d'.store.trades ∧
    Ledger.closedOrders.Copies d.account request.start (Run.jobs request d.account 0 sessions)
      [] d'.store.orders := by
  have hmid : Midway sessions.length d d := by
    refine ⟨fun i => .refl (d.account i), ?_, ?_, ?_⟩
    all_goals rw [hempty]
    · exact Store.ascending_empty
    · intro u hu
      cases hu
    · intro u hu
      cases hu
  rw [Run.run, hall] at hrun
  have hwent := hmid.went_sessions hapart (by omega) hrun
  have hfills := hwent.fills
  have horders := hwent.closedOrders
  rw [hempty] at hfills horders
  exact ⟨hfills, horders⟩

end Desk

/-! ## What a run stores -/

namespace Ledger

variable {ρ : Type} {L : Ledger ρ} {n : Nat} {account : Nat → Simulated}
  {start : Timestamp} {jobs : List (Nat × String)} {i : Nat} {symbol : String}
  {after : List ρ} {r : ρ}

/-- No earlier account of the same name had a newer record of the symbol to copy. -/
def Foremost (L : Ledger ρ) (account : Nat → Simulated) (start : Timestamp)
    (jobs : List (Nat × String)) (i : Nat) (symbol : String) (r : ρ) : Prop :=
  ∀ j < i, (j, symbol) ∈ jobs → (account j).name = (account i).name →
    ∀ u, L.Due (account j) symbol start u → L.time u ≤ L.time r

/-- What overtook a record when its own copy began is a record of an earlier account. -/
theorem Copies.not_overtaken_iff {before : List (Nat × String)}
    {rest : List (Nat × String)} {between : List ρ} (hapart : L.Apart n account)
    (hcopies : Copies L account start before [] between)
    (hordered : (before ++ (i, symbol) :: rest).Pairwise fun a b => a.1 ≤ b.1)
    (hbound : ∀ job ∈ before ++ (i, symbol) :: rest, job.1 < n)
    (hfirst : (i, symbol) ∉ before) (hdue : L.Due (account i) symbol start r) :
    ¬ L.Overtaken between r ↔
      L.Foremost account start (before ++ (i, symbol) :: rest) i symbol r := by
  obtain ⟨-, hlater, hcross⟩ := List.pairwise_append.1 hordered
  have hi : i < n := hbound (i, symbol) (by simp)
  have hname : ∀ j < n, ∀ u ∈ L.held (account j),
      (L.key u).exchange = (L.key r).exchange ↔ (account j).name = (account i).name := by
    intro j hj u hu
    rw [(hapart.own j hj).exchange u hu, (hapart.own i hi).exchange r hdue.1]
  rw [hcopies.overtaken_iff]
  constructor
  · intro h j hj hjob hsame u hu
    have hbefore : (j, symbol) ∈ before := by
      rcases List.mem_append.1 hjob with hjob | hjob
      · exact hjob
      · rcases List.mem_cons.1 hjob with heq | hjob
        · exact absurd (congrArg Prod.fst heq) (Nat.ne_of_lt hj)
        · have hle := (List.pairwise_cons.1 hlater).1 _ hjob
          exact absurd hj (Nat.not_lt.2 hle)
    refine not_lt.1 fun hlt => h ⟨(j, symbol), hbefore, u, hu, ?_, ?_, hlt⟩
    · exact (hname j (hbound _ hjob) u hu.1).2 hsame
    · rw [hu.2.1, hdue.2.1]
  · rintro h ⟨⟨j, other⟩, hjob, u, hu, hexchange, hsymbol, hlt⟩
    have hmem : (j, other) ∈ before ++ (i, symbol) :: rest := List.mem_append_left _ hjob
    obtain rfl : other = symbol := hu.2.1.symm.trans (hsymbol.trans hdue.2.1)
    have hle : j ≤ i := hcross _ hjob _ List.mem_cons_self
    have hne : j ≠ i := by
      rintro rfl
      exact hfirst hjob
    have hsame := (hname j (hbound _ hmem) u hu.1).1 hexchange
    exact not_le_of_gt hlt (h j (lt_of_le_of_ne hle hne) hmem hsame u hu)

/-- After copies into an empty store, in the order of the accounts, a record that was
due is stored exactly if it is foremost. -/
theorem Copies.mem_iff_foremost (hapart : L.Apart n account)
    (hcopies : Copies L account start jobs [] after)
    (hordered : jobs.Pairwise fun a b => a.1 ≤ b.1) (hbound : ∀ job ∈ jobs, job.1 < n)
    (hjob : (i, symbol) ∈ jobs) (hdue : L.Due (account i) symbol start r) :
    r ∈ after ↔ L.Foremost account start jobs i symbol r := by
  obtain ⟨before, rest, rfl, hfirst⟩ := List.eq_append_cons_of_mem hjob
  obtain ⟨between, hbefore, hrest⟩ := hcopies.split
  rw [← hbefore.not_overtaken_iff hapart hordered hbound hfirst hdue]
  constructor
  · -- Nothing of this account was copied for the symbol before, so the record is new.
    intro hr hover
    refine hrest.not_mem_of_overtaken (fun hold => ?_) hover hr
    rcases hbefore.due_of_mem hold with hnil | ⟨⟨j, other⟩, hother, hdue'⟩
    · cases hnil
    · have hj := hbound (j, other) (List.mem_append_left _ hother)
      obtain rfl := hapart.position j hj i (hbound _ hjob) r hdue'.1 r hdue.1 rfl
      obtain rfl : other = symbol := hdue'.2.1.symm.trans hdue.2.1
      exact hfirst hother
  · intro hahead
    cases hrest with
    | next htaken hlast =>
        refine hlast.rows_mono r ((htaken.rows r).2 (Or.inr ?_))
        by_contra hout
        exact (htaken.rest r hdue hahead hout).1 rfl

end Ledger

namespace Desk

/-- A run over all sessions that ended well has stored a due record exactly if no
earlier session of the same exchange name had a newer one to copy for the symbol. -/
theorem stored_iff_foremost {ω : Type} {outside : Surroundings ω} {now : ω → Timestamp}
    {names : Nat → String} {pageLimit steps : Nat} {request : RunRequest}
    {sessions sessions' : List Session} {d d' : Desk ω} (hall : request.session = none)
    (hempty : d.store = .empty) (hapart : Separate names sessions.length d)
    (hrun : Run.run (accounts outside now names pageLimit steps) request sessions d =
      (.ok (), sessions', d'))
    {i : Nat} {symbol : String} (hjob : (i, symbol) ∈ Run.jobs request d.account 0 sessions) :
    (∀ t, Ledger.fills.Due (d.account i) symbol request.start t →
      (t ∈ d'.store.trades ↔ Ledger.fills.Foremost d.account request.start
        (Run.jobs request d.account 0 sessions) i symbol t)) ∧
    ∀ o, Ledger.closedOrders.Due (d.account i) symbol request.start o →
      (o ∈ d'.store.orders ↔ Ledger.closedOrders.Foremost d.account request.start
        (Run.jobs request d.account 0 sessions) i symbol o) := by
  obtain ⟨hfills, horders⟩ := run_copies hall hempty hapart hrun
  have hordered := Run.jobs_ordered request d.account 0 sessions
  have hbound : ∀ job ∈ Run.jobs request d.account 0 sessions, job.1 < sessions.length := by
    intro job hmem
    obtain ⟨k, session, hsession, hposition, -⟩ := Run.mem_jobs.1 hmem
    have hk := (List.getElem?_eq_some_iff.1 hsession).1
    omega
  exact ⟨fun t hdue => hfills.mem_iff_foremost hapart.apart_fills hordered hbound hjob hdue,
    fun o hdue =>
      horders.mem_iff_foremost hapart.apart_closedOrders hordered hbound hjob hdue⟩

/-- The fill of the first account. -/
def lateFill : Trade where
  id := "1"
  exchange := "sim"
  symbol := "BTCUSDT"
  side := .buy
  price := .zero
  quantity := .zero
  fee := .zero
  feeCurrency := ""
  isMaker := false
  orderId := none
  tradedAt := minute

/-- The fill of the second account. -/
def earlyFill : Trade :=
  { lateFill with id := "2", tradedAt := .epoch }

/-- A fill of no price and no quantity. -/
def fillAt (instant : Timestamp) (x : Simulated) : Simulated :=
  (x.recordFill "BTCUSDT" .buy .zero .zero instant).2

/-- An account with one fill. -/
def lateAccount : Simulated :=
  fillAt minute (.new "sim")

/-- An account at an exchange of the same name, with an order and an earlier fill. -/
def earlyAccount : Simulated :=
  fillAt .epoch ((Simulated.new "sim").recordOrder "ETHUSDT" .buy .filled .zero .epoch).2

/-- The account with the later fill comes first. -/
def sharedDesk : Desk Unit where
  account i := match i with
    | 0 => lateAccount
    | _ + 1 => earlyAccount
  store := .empty
  rest := ()

/-- A run over both, for the symbol of the fills. -/
def sharedRun : Outcome RunError Unit × List Session × Desk Unit :=
  Run.run (accounts undisturbed (fun _ => minute) (fun _ => "sim") 100 3)
    ⟨none, some "BTCUSDT", .epoch⟩ [.new "late", .new "early"] sharedDesk

theorem separate_sharedDesk : Separate (fun _ => "sim") 2 sharedDesk where
  valid i _ := by
    cases i with
    | zero => exact (Simulated.valid_new "sim").recordFill _ _ _ _ _
    | succ i => exact ((Simulated.valid_new "sim").recordOrder _ _ _ _ _).recordFill _ _ _ _ _
  name i _ := by cases i <;> rfl
  tradeIds i hi j hj hne _ := by
    obtain rfl | rfl : i = 0 ∨ i = 1 := by omega
    all_goals
      obtain rfl | rfl : j = 0 ∨ j = 1 := by omega
      all_goals first
        | exact absurd rfl hne
        | decide +kernel
  orderIds i hi j hj hne _ := by
    obtain rfl | rfl : i = 0 ∨ i = 1 := by omega
    all_goals
      obtain rfl | rfl : j = 0 ∨ j = 1 := by omega
      all_goals first
        | exact absurd rfl hne
        | decide +kernel

theorem sharedRun_ok : sharedRun = (.ok (), sharedRun.2) :=
  Prod.ext (by cbv) rfl

theorem sharedRun_trades : sharedRun.2.2.store.trades = lateAccount.trades := by
  cbv

theorem due_lateFill : Ledger.fills.Due (sharedDesk.account 0) "BTCUSDT" .epoch lateFill :=
  ⟨by decide +kernel, rfl, by decide⟩

theorem due_earlyFill : Ledger.fills.Due (sharedDesk.account 1) "BTCUSDT" .epoch earlyFill :=
  ⟨by decide +kernel, rfl, by decide⟩

/-- The fill of the first account is foremost and stored, that of the second account
is neither. -/
theorem stored_iff_foremost_shared :
    Ledger.fills.Foremost sharedDesk.account .epoch [(0, "BTCUSDT"), (1, "BTCUSDT")] 0
      "BTCUSDT" lateFill ∧
    ¬ Ledger.fills.Foremost sharedDesk.account .epoch [(0, "BTCUSDT"), (1, "BTCUSDT")] 1
      "BTCUSDT" earlyFill := by
  have hlate := (stored_iff_foremost rfl rfl separate_sharedDesk sharedRun_ok
    (i := 0) (by decide +kernel)).1 lateFill due_lateFill
  have hearly := (stored_iff_foremost rfl rfl separate_sharedDesk sharedRun_ok
    (i := 1) (by decide +kernel)).1 earlyFill due_earlyFill
  rw [sharedRun_trades] at hlate hearly
  exact ⟨hlate.1 (by decide +kernel), fun h => absurd (hearly.2 h) (by decide +kernel)⟩

/-- A run that ended well has not stored a fill that it was to copy. -/
theorem later_session_loses_fill :
    sharedDesk.store = .empty ∧ Separate (fun _ => "sim") 2 sharedDesk ∧
    sharedRun = (.ok (), sharedRun.2) ∧
    (1, "BTCUSDT") ∈ Run.jobs ⟨none, some "BTCUSDT", .epoch⟩ sharedDesk.account 0
      [.new "late", .new "early"] ∧
    Ledger.fills.Due (sharedDesk.account 1) "BTCUSDT" .epoch earlyFill ∧
    earlyFill ∉ sharedRun.2.2.store.trades := by
  refine ⟨rfl, separate_sharedDesk, sharedRun_ok, by decide +kernel, due_earlyFill, ?_⟩
  rw [sharedRun_trades]
  decide +kernel

end Desk

end Tradebook
