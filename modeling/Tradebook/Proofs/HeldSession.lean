import Mathlib
import Tradebook.Proofs.GoodRun
import Tradebook.Proofs.RunPlan

/-!
# A session that is held to one pair

What a session is held to takes the place of a symbol when that symbol's turn comes. The
symbols themselves are found as for any other session, from what the account holds and what
its exchange trades. So a held session is copied once for each symbol that is found, always
the same pair: twice where it holds two coins, and not at all where it holds none.

`syncSessions_found` says of every session of a run that ended well what it was asked: its
balances and its markets, and then the two copies of each symbol found in the answers. The
log of a run is the calls of all sessions, one session after the other, so those of one session
are found by its position. `held_session_copied_per_symbol` reads off the copies of a held
session.
-/

namespace Tradebook

namespace RunCall

/-- Whether the call is a copy of a kind of history from the session at a position, of whatever
symbol. -/
def copies (kind : RecordKind) (position : Nat) : RunCall → Bool
  | sync kind' position' _ _ => kind' = kind ∧ position' = position
  | _ => false

theorem position_of_copies {kind : RecordKind} {position : Nat} {call : RunCall}
    (h : call.copies kind position = true) : call.position = position := by
  cases call with
  | balances _ => cases h
  | markets _ => cases h
  | sync _ _ _ _ => exact (of_decide_eq_true h).2

end RunCall

namespace Run

variable {σ : Type} {accounts : Accounts σ} {request : RunRequest}

/-- Among some calls are the two questions to the session at a position, and `symbols` are those
worth copying by the answers. -/
def Found (accounts : Accounts σ) (made : List (MadeCall σ)) (position : Nat)
    (symbols : List String) : Prop :=
  ∃ w w' balances markets,
    ⟨w, .balances position⟩ ∈ made ∧ (accounts.balances position w).1 = .ok balances ∧
    ⟨w', .markets position⟩ ∈ made ∧ (accounts.markets position w').1 = .ok markets ∧
    Discovery.symbols? balances markets = some symbols

theorem Found.mono {made made' : List (MadeCall σ)} {position : Nat} {symbols : List String}
    (h : Found accounts made position symbols) (hsub : made ⊆ made') :
    Found accounts made' position symbols := by
  obtain ⟨w, w', balances, markets, hasked, hbalances, hasked', hmarkets, hsymbols⟩ := h
  exact ⟨w, w', balances, markets, hsub hasked, hbalances, hsub hasked', hmarkets, hsymbols⟩

/-! ## What the sessions were asked -/

section Sessions

variable {position : Nat} {session session' : Session} {s s' : σ} {log log' : List (MadeCall σ)}

/-- A session whose symbols were not given, in a run that writes down its calls. -/
theorem syncSession_found (hsymbol : request.symbol = none)
    (h : syncSession accounts.recorded request position session (s, log) =
      (.ok (), session', (s', log'))) :
    ∃ made symbols, log' = log ++ made ∧ Found accounts made position symbols ∧
      made.map MadeCall.call = sessionCalls request position session symbols := by
  rcases syncSession_ok h with ⟨symbol, hgiven, -⟩ | ⟨-, symbols, between, hfound, hsync⟩
  · rw [hsymbol] at hgiven
    cases hgiven
  obtain ⟨balances, markets, asked, hbalances, hmarkets, rfl, hsymbols⟩ := discover_ok hfound
  obtain ⟨hanswer, rfl⟩ := Prod.mk.inj hbalances
  obtain ⟨hanswer', rfl⟩ := Prod.mk.inj hmarkets
  dsimp only at hanswer hanswer' hsync
  obtain ⟨result, s'', made, -, hrecorded, hgoes⟩ := @syncSymbols_goes σ accounts
    (fun _ => session.name) position { session with balances, markets } rfl request.start symbols
    (accounts.markets position (accounts.balances position s).2).2
    (log ++ [⟨s, .balances position⟩] ++
      [⟨(accounts.balances position s).2, .markets position⟩])
  rw [hsync] at hrecorded
  obtain ⟨rfl, hstate⟩ := Prod.mk.inj hrecorded
  obtain ⟨rfl, rfl⟩ := Prod.mk.inj hstate
  refine ⟨⟨s, .balances position⟩ :: ⟨(accounts.balances position s).2, .markets position⟩ :: made,
    symbols, by simp, ?_, ?_⟩
  · exact ⟨s, (accounts.balances position s).2, balances, markets, by simp, hanswer, by simp,
      hanswer', hsymbols⟩
  · rw [List.map_cons, List.map_cons, hgoes.calls_eq, sessionCalls, hsymbol]
    rfl

/-- The calls of one session are all at its position. -/
theorem filter_position_self {made : List (MadeCall σ)} {symbols : List String}
    (h : made.map MadeCall.call = sessionCalls request position session symbols) :
    (made.map MadeCall.call).filter (fun call => call.position = position) =
      sessionCalls request position session symbols := by
  rw [h]
  refine List.filter_eq_self.2 fun call hcall => ?_
  rw [sessionCalls_position hcall]
  exact decide_eq_true rfl

theorem filter_position_other {made : List (MadeCall σ)} {p : Nat}
    (h : ∀ m ∈ made, m.call.position ≠ p) :
    (made.map MadeCall.call).filter (fun call => call.position = p) = [] := by
  refine List.filter_eq_nil_iff.2 fun call hcall => ?_
  obtain ⟨m, hm, rfl⟩ := List.mem_map.1 hcall
  simpa using h m hm

theorem syncSessions_found (hsymbol : request.symbol = none) {flagged : List (Bool × Session)}
    {sessions' : List Session}
    (h : syncSessions accounts.recorded request position flagged (s, log) =
      (.ok (), sessions', (s', log'))) :
    ∃ made, log' = log ++ made ∧ (∀ m ∈ made, position ≤ m.call.position) ∧
      ∀ target ∈ marked position flagged, ∃ symbols, Found accounts made target.2 symbols ∧
        (made.map MadeCall.call).filter (fun call => call.position = target.2) =
          sessionCalls request target.2 target.1 symbols := by
  induction flagged generalizing position s log sessions' with
  | nil =>
      obtain ⟨-, hrest⟩ := Prod.mk.inj h
      obtain ⟨-, hstate⟩ := Prod.mk.inj hrest
      obtain ⟨-, rfl⟩ := Prod.mk.inj hstate
      exact ⟨[], by simp, by simp, by simp [marked]⟩
  | cons first flagged ih =>
      rcases first with ⟨_ | _, session⟩
      · obtain ⟨rest, hrest⟩ := syncSessions_other_ok h
        obtain ⟨made, hlog, hlater, hall⟩ := ih hrest
        exact ⟨made, hlog, fun m hm => le_of_lt (hlater m hm), hall⟩
      · obtain ⟨session', rest, ⟨between, log₁⟩, hfirst, hrest⟩ := syncSessions_target_ok h
        obtain ⟨made, symbols, rfl, hfound, hcalls⟩ := syncSession_found hsymbol hfirst
        obtain ⟨made', hlog, hlater, hall⟩ := ih hrest
        have hhere : ∀ m ∈ made, m.call.position = position := fun m hm =>
          sessionCalls_position (hcalls ▸ List.mem_map_of_mem hm)
        refine ⟨made ++ made', by rw [hlog, List.append_assoc], fun m hm => ?_, fun target ht => ?_⟩
        · rcases List.mem_append.1 hm with hm | hm
          · exact le_of_eq (hhere m hm).symm
          · exact le_of_lt (hlater m hm)
        rw [List.map_append, List.filter_append]
        rcases List.mem_cons.1 ht with rfl | ht
        · refine ⟨symbols, hfound.mono (List.subset_append_left _ _), ?_⟩
          rw [filter_position_self hcalls,
            filter_position_other fun m hm => ne_of_gt (hlater m hm), List.append_nil]
        · obtain ⟨symbols', hfound', hcalls'⟩ := hall target ht
          refine ⟨symbols', hfound'.mono (List.subset_append_right _ _), ?_⟩
          have hafter := le_of_mem_marked ht
          rw [filter_position_other fun m hm => by rw [hhere m hm]; omega, hcalls',
            List.nil_append]

end Sessions

/-! ## The run -/

/-- A run that finds its sessions is a run over these, in their places among all. -/
theorem run_eq_syncSessions {sessions : List Session} {targets : List (Session × Nat)}
    (h : targets? request sessions = some targets) :
    ∃ flagged, flagged.map Prod.snd = sessions ∧ marked 0 flagged = targets ∧
      ∀ {σ : Type} (accounts : Accounts σ) (s : σ),
        run accounts request sessions s = syncSessions accounts request 0 flagged s := by
  unfold targets? at h
  cases hsession : request.session with
  | none =>
      simp only [hsession, Option.some.injEq] at h
      refine ⟨sessions.map (true, ·), by simp [Function.comp_def], ?_, fun accounts s => ?_⟩
      · rw [marked_all, h]
      · simp only [run, hsession]
  | some name =>
      simp only [hsession] at h
      rw [← marked_first, Option.map_eq_some_iff] at h
      obtain ⟨flagged, hflagged, hmarked⟩ := h
      refine ⟨flagged, targetFirst_sessions hflagged, hmarked, fun accounts s => ?_⟩
      simp only [run, hsession, hflagged]

/-- A run that ended well found its sessions. -/
theorem exists_targets_of_run_ok {sessions sessions' : List Session} {s s' : σ}
    (h : run accounts request sessions s = (.ok (), sessions', s')) :
    ∃ targets, targets? request sessions = some targets := by
  unfold targets?
  cases hsession : request.session with
  | none => exact ⟨_, rfl⟩
  | some name =>
      simp only [run, hsession] at h
      dsimp only
      rw [← marked_first]
      cases hfirst : targetFirst name sessions with
      | none =>
          rw [hfirst] at h
          cases h
      | some flagged => exact ⟨_, rfl⟩

/-- The copies among the calls of a held session: the pair, once for each symbol. -/
theorem filter_copies_held {session : Session} {pair : String}
    (hisolated : session.isolatedMargin = true) (hpair : session.isolatedSymbol = some pair)
    (hsymbol : request.symbol = none) (position : Nat) (symbols : List String)
    (kind : RecordKind) :
    (sessionCalls request position session symbols).filter (RunCall.copies kind position) =
      List.replicate symbols.length (.sync kind position pair request.start) := by
  have hheld : ∀ symbol, session.effectiveSymbol symbol = pair := by
    intro symbol
    rw [Session.effectiveSymbol, hisolated, hpair]
  have hone : ∀ symbol, (pairCalls position session request.start symbol).filter
      (RunCall.copies kind position) = [.sync kind position pair request.start] := by
    intro symbol
    rw [pairCalls, hheld]
    cases kind <;> simp [RunCall.copies]
  simp only [sessionCalls, hsymbol]
  rw [List.filter_cons_of_neg (by simp [RunCall.copies]),
    List.filter_cons_of_neg (by simp [RunCall.copies])]
  induction symbols with
  | nil => rfl
  | cons symbol symbols ih =>
      rw [List.flatMap_cons, List.filter_append, hone, ih, List.length_cons, List.replicate_succ,
        List.singleton_append]

/-- In a run over sessions whose symbols were not given, if it ended well, a session that is held
to a pair was copied once for each symbol found in what it answered, both histories of the pair
each time. -/
theorem held_session_copied_per_symbol (hsymbol : request.symbol = none)
    {sessions sessions' : List Session} {s s' : σ}
    (hrun : run accounts request sessions s = (.ok (), sessions', s')) :
    ∃ targets made, targets? request sessions = some targets ∧
      run accounts.recorded request sessions (s, []) = (.ok (), sessions', s', made) ∧
      ∀ target ∈ targets, ∀ pair, target.1.isolatedMargin = true →
        target.1.isolatedSymbol = some pair →
        ∃ symbols, Found accounts made target.2 symbols ∧ ∀ kind,
          (made.map MadeCall.call).filter (RunCall.copies kind target.2) =
            List.replicate symbols.length (.sync kind target.2 pair request.start) := by
  obtain ⟨targets, htargets⟩ := exists_targets_of_run_ok hrun
  obtain ⟨flagged, hflagged, rfl, hover⟩ := run_eq_syncSessions htargets
  rw [hover] at hrun
  obtain ⟨result, ended, s'', made, found, hplain, hrecorded, -⟩ :=
    syncSessions_follows accounts request flagged 0 (nameAt_flagged hflagged) s []
  rw [hrun] at hplain
  obtain ⟨rfl, hstate⟩ := Prod.mk.inj hplain
  obtain ⟨rfl, rfl⟩ := Prod.mk.inj hstate
  obtain ⟨made', hmade, -, hall⟩ := syncSessions_found hsymbol hrecorded
  rw [List.nil_append, List.nil_append] at hmade
  subst hmade
  refine ⟨_, made, htargets, ?_, fun target ht pair hisolated hpair => ?_⟩
  · rw [hover]
    exact hrecorded
  · obtain ⟨symbols, hfound, hcalls⟩ := hall target ht
    refine ⟨symbols, hfound, fun kind => ?_⟩
    rw [← filter_copies_held hisolated hpair hsymbol, ← hcalls, List.filter_filter]
    refine List.filter_congr fun call _ => ?_
    cases hcopies : call.copies kind target.2 with
    | false => rfl
    | true => simp [RunCall.position_of_copies hcopies]

/-! ## A session that holds two coins -/

/-- An account that holds so much of each of two coins and of cash, of which both coins are traded
against the cash. -/
def twoCoins (held : Decimal) : Accounts Unit where
  stopped _ := false
  balances _ s := (.ok (["BTC", "ETH", "USDT"].map fun c => (c, ⟨c, held, .zero⟩)), s)
  markets _ s := (.ok [⟨"BTCUSDT", "BTC", "USDT"⟩, ⟨"ETHUSDT", "ETH", "USDT"⟩], s)
  sync _ _ _ _ s := (.ok (), s)

/-- A run over an ordinary session and one that is held to a pair of neither coin. -/
def heldRun (held : Decimal) : Outcome RunError Unit × List Session × Unit × List (MadeCall Unit) :=
  run (twoCoins held).recorded ⟨none, none, .epoch⟩
    [.new "spot", (Session.new "margin").withIsolatedMargin "LTCUSDT"] ((), [])

/-- The copies of fills that the run made from the session that is held. -/
def heldCopies (held : Decimal) : List RunCall :=
  ((heldRun held).2.2.2.map MadeCall.call).filter (RunCall.copies .trades 1)

def oneUnit : Decimal :=
  (Decimal.ofParts? 1 0).getD .zero

/-- The two coins are two symbols, so the session that is held is copied twice. -/
theorem held_session_copied_per_symbol_twice :
    run (twoCoins oneUnit) ⟨none, none, .epoch⟩
        [.new "spot", (Session.new "margin").withIsolatedMargin "LTCUSDT"] () =
      (.ok (), (heldRun oneUnit).2.1, ()) ∧
    ∃ symbols, Found (twoCoins oneUnit) (heldRun oneUnit).2.2.2 1 symbols ∧
      heldCopies oneUnit = List.replicate symbols.length (.sync .trades 1 "LTCUSDT" .epoch) ∧
      symbols.length = 2 := by
  have hrun : run (twoCoins oneUnit) ⟨none, none, .epoch⟩
      [.new "spot", (Session.new "margin").withIsolatedMargin "LTCUSDT"] () =
        (.ok (), (heldRun oneUnit).2.1, ()) :=
    Prod.ext (by decide +kernel) (Prod.ext rfl rfl)
  obtain ⟨targets, made, htargets, hrecorded, hall⟩ := held_session_copied_per_symbol rfl hrun
  have hmade : (heldRun oneUnit).2.2.2 = made := by rw [heldRun, hrecorded]
  obtain rfl := Option.some.inj htargets
  obtain ⟨symbols, hfound, hcopies⟩ :=
    hall ((Session.new "margin").withIsolatedMargin "LTCUSDT", 1) (by simp) "LTCUSDT" rfl rfl
  rw [← hmade] at hfound hcopies
  refine ⟨hrun, symbols, hfound, hcopies .trades, ?_⟩
  have hlength : (heldCopies oneUnit).length = 2 := by decide +kernel
  rw [heldCopies, hcopies, List.length_replicate] at hlength
  exact hlength

/-- One copy for the pair is not what a held session gets: there are two where the account holds
two coins, and none where it holds nothing. -/
theorem held_session_not_copied_once :
    (heldRun oneUnit).1 = .ok () ∧
    heldCopies oneUnit = [.sync .trades 1 "LTCUSDT" .epoch, .sync .trades 1 "LTCUSDT" .epoch] ∧
    (heldRun .zero).1 = .ok () ∧ heldCopies .zero = [] := by
  decide +kernel

end Run

end Tradebook
