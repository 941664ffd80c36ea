import Tradebook.Run

/-!
# What a run that ended well did

A run stops at the first step that fails, so a good end says something of every
step: each was taken, in turn, and ended well itself. The lemmas here take a good
end apart, one for each function of a run, and say how the state went from step to
step. They hold for whatever the accounts do.
-/

namespace Tradebook.Run

variable {σ : Type} {accounts : Accounts σ} {request : RunRequest} {position : Nat}
  {session session' : Session} {start : Timestamp} {s s' : σ}

theorem syncKind_ok {symbol : String} {kind : RecordKind}
    (h : syncKind accounts position session symbol start kind s = (.ok (), s')) :
    accounts.sync kind position symbol start s = (.ok (), s') := by
  unfold syncKind at h
  rcases hsync : accounts.sync kind position symbol start s with ⟨result, after⟩
  rw [hsync] at h
  obtain ⟨hresult, rfl⟩ := Prod.mk.inj h
  cases result with
  | ok value => rfl
  | error cause => cases hresult
  | overflow => cases hresult
  | exhausted => cases hresult

/-- Fills were copied before orders, and both well. -/
theorem syncSymbol_ok {requested : String}
    (h : syncSymbol accounts position session start requested s = (.ok (), s')) :
    ∃ between,
      accounts.sync .trades position (session.effectiveSymbol requested) start s =
        (.ok (), between) ∧
      accounts.sync .orders position (session.effectiveSymbol requested) start between =
        (.ok (), s') := by
  unfold syncSymbol at h
  split at h
  · cases h
  · rcases hfills : syncKind accounts position session (session.effectiveSymbol requested)
      start .trades s with ⟨result, between⟩
    simp only [hfills] at h
    cases result with
    | ok value => exact ⟨between, syncKind_ok hfills, syncKind_ok h⟩
    | error cause => cases h
    | overflow => cases h
    | exhausted => cases h

theorem syncSymbols_cons_ok {symbol : String} {symbols : List String}
    (h : syncSymbols accounts position session start (symbol :: symbols) s = (.ok (), s')) :
    ∃ between, syncSymbol accounts position session start symbol s = (.ok (), between) ∧
      syncSymbols accounts position session start symbols between = (.ok (), s') := by
  rw [syncSymbols] at h
  rcases hfirst : syncSymbol accounts position session start symbol s with ⟨result, between⟩
  rw [hfirst] at h
  cases result with
  | ok value => exact ⟨between, rfl, h⟩
  | error cause => cases h
  | overflow => cases h
  | exhausted => cases h

/-- Balances and markets were both had, and the symbols are those worth copying. -/
theorem discover_ok {symbols : List String}
    (h : discover accounts position session s = (.ok symbols, session', s')) :
    ∃ balances markets between, accounts.balances position s = (.ok balances, between) ∧
      accounts.markets position between = (.ok markets, s') ∧
      session' = { session with balances, markets } ∧
      Discovery.symbols? balances markets = some symbols := by
  unfold discover init at h
  split at h
  · cases h
  · rcases hbalances : accounts.balances position s with ⟨⟨balances⟩ | cause | _ | _, between⟩
    case ok balances =>
      rcases hmarkets : accounts.markets position between with ⟨⟨markets⟩ | cause | _ | _, after⟩
      case ok markets =>
        simp only [hbalances, hmarkets, Prod.mk.injEq] at h
        obtain ⟨hsymbols, rfl, rfl⟩ := h
        refine ⟨balances, markets, between, rfl, hmarkets, rfl, ?_⟩
        cases hfound : Discovery.symbols? balances markets with
        | none =>
            rw [hfound] at hsymbols
            cases hsymbols
        | some found =>
            rw [hfound] at hsymbols
            exact congrArg some (Outcome.ok.inj hsymbols)
      all_goals
        simp only [hbalances, hmarkets] at h
        cases h
    all_goals
      simp only [hbalances] at h
      cases h

theorem syncSession_ok
    (h : syncSession accounts request position session s = (.ok (), session', s')) :
    (∃ symbol, request.symbol = some symbol ∧
      syncSymbols accounts position session request.start [symbol] s = (.ok (), s')) ∨
    request.symbol = none ∧ ∃ symbols between,
      discover accounts position session s = (.ok symbols, session', between) ∧
      syncSymbols accounts position session' request.start symbols between =
        (.ok (), s') := by
  unfold syncSession at h
  cases hsymbol : request.symbol with
  | some symbol =>
      simp only [hsymbol, Prod.mk.injEq] at h
      obtain ⟨hresult, -, hstate⟩ := h
      exact Or.inl ⟨symbol, rfl, Prod.ext hresult hstate⟩
  | none =>
      simp only [hsymbol] at h
      rcases hfound : discover accounts position session s with
        ⟨⟨symbols⟩ | cause | _ | _, known, between⟩
      case ok =>
        simp only [hfound, Prod.mk.injEq] at h
        obtain ⟨hresult, rfl, hstate⟩ := h
        exact Or.inr ⟨rfl, symbols, between, rfl, Prod.ext hresult hstate⟩
      all_goals
        simp only [hfound] at h
        cases h

theorem syncSessions_target_ok {flagged : List (Bool × Session)} {sessions' : List Session} (h :
    syncSessions accounts request position ((true, session) :: flagged) s =
      (.ok (), sessions', s')) :
    ∃ session' rest between,
      syncSession accounts request position session s = (.ok (), session', between) ∧
      syncSessions accounts request (position + 1) flagged between = (.ok (), rest, s') := by
  rw [syncSessions, if_pos rfl] at h
  rcases hfirst : syncSession accounts request position session s with
    ⟨⟨value⟩ | cause | _ | _, known, between⟩
  case ok =>
    simp only [hfirst, Prod.mk.injEq] at h
    obtain ⟨hresult, -, hstate⟩ := h
    exact ⟨known, _, between, rfl, Prod.ext hresult (Prod.ext rfl hstate)⟩
  all_goals
    simp only [hfirst] at h
    cases h

/-- A session that is not targeted is passed over. -/
theorem syncSessions_other_ok {flagged : List (Bool × Session)} {sessions' : List Session} (h :
    syncSessions accounts request position ((false, session) :: flagged) s =
      (.ok (), sessions', s')) :
    ∃ rest, syncSessions accounts request (position + 1) flagged s = (.ok (), rest, s') := by
  rw [syncSessions, if_neg Bool.false_ne_true] at h
  simp only [Prod.mk.injEq] at h
  obtain ⟨hresult, -, hstate⟩ := h
  exact ⟨_, Prod.ext hresult (Prod.ext rfl hstate)⟩

end Tradebook.Run
