import Tradebook.Proofs.HistoryLog
import Tradebook.Proofs.SentRequests

/-!
# Requests under two secrets

Of two accounts that differ in the secret alone every request of the one is that of the other, but
for the signature: `HttpRequest.unsigned` is what the two have in common (`request_twins`). A server
that does not look at signatures answers both alike, and then both are told the same of every
errand (`Errand.agree`).

The worlds of the two need not be the same for that. In one of them other signatures are
written down than in the other, so the worlds are related by any relation that the wire keeps
(`HttpWire.Alike`). Of a walk nothing new has to be shown: both walks are seen in the one that asks
in both worlds at once (`Walk.askBoth`).
-/

namespace Tradebook

/-- Two ends that are the same but for the worlds, which are related. -/
structure Agree {σ τ α : Type} (R : σ → τ → Prop) (ended : α × σ) (ended' : α × τ) : Prop where
  result : ended.1 = ended'.1
  world : R ended.2 ended'.2

theorem Agree.exists_eq {σ τ α : Type} {R : σ → τ → Prop} {ended : α × σ} {ended' : α × τ}
    (h : Agree R ended ended') :
    ∃ result s t, ended = (result, s) ∧ ended' = (result, t) ∧ R s t :=
  ⟨ended.1, ended.2, ended'.2, rfl, by rw [h.result], h.world⟩

theorem map_concat_congr {α β : Type} {f : α → β} {as as' : List α} {a a' : α}
    (has : as.map f = as'.map f) (ha : f a = f a') : (as ++ [a]).map f = (as' ++ [a']).map f := by
  rw [List.map_append, List.map_append, has, List.map_singleton, List.map_singleton, ha]

/-- The same world, and things written down that are the same where they are not `blank`ed. -/
structure SameUpTo {σ α β : Type} (blank : α → β) (s s' : σ × List α) : Prop where
  world : s.1 = s'.1
  log : s.2.map blank = s'.2.map blank

/-- A header without the signature, if it is the one that holds it. -/
def unsignedHeader (header : String × String) : String × String :=
  if header.1 = "FTX-SIGN" then (header.1, "") else header

/-- A request without its signature. -/
def HttpRequest.unsigned (r : HttpRequest) : HttpRequest :=
  { r with headers := r.headers.map unsignedHeader }

namespace HttpWire

variable {σ τ : Type}

/-- Signatures make no difference to what lies behind the wire. -/
def Blind (wire : HttpWire σ) : Prop :=
  ∀ r r' s, r.unsigned = r'.unsigned → wire.send r s = wire.send r' s

/-- Two wires that answer the same, whatever the signatures, and keep the worlds related. -/
structure Alike (R : σ → τ → Prop) (wire : HttpWire σ) (wire' : HttpWire τ) : Prop where
  send : ∀ r r' {s t}, r.unsigned = r'.unsigned → R s t →
    Agree R (wire.send r s) (wire'.send r' t)
  now : ∀ {s t}, R s t → wire.now s = wire'.now t

/-- What is written down of two requests is the same but for the signatures. -/
theorem Blind.noted {wire : HttpWire σ} (h : wire.Blind) :
    Alike (SameUpTo HttpRequest.unsigned) wire.noted wire.noted where
  send := by
    rintro r r' ⟨s, log⟩ ⟨t, log'⟩ hr ⟨hworld, hlog⟩
    obtain rfl : s = t := hworld
    have hanswer : wire.send r s = wire.send r' s := h r r' s hr
    refine ⟨?_, ?_, map_concat_congr hlog hr⟩
    · exact congrArg (fun ended => ended.1) hanswer
    · exact congrArg (fun ended => ended.2) hanswer
  now hst := congrArg wire.now hst.world

end HttpWire

namespace Ftx

variable {σ τ : Type} {R : σ → τ → Prop}

/-! ## Two walks -/

namespace Walk

variable {ρ : Type} {ask : Ask σ ρ} {ask' : Ask τ ρ}

/-- Asks in two related worlds at once, and hears what is answered in the first one. -/
def askBoth (hask : ∀ start upper size {s t}, R s t →
    Agree R (ask start upper size s) (ask' start upper size t)) :
    Ask { worlds : σ × τ // R worlds.1 worlds.2 } ρ := fun start upper size worlds =>
  ((ask start upper size worlds.1.1).1,
    ⟨((ask start upper size worlds.1.1).2, (ask' start upper size worlds.1.2).2),
      (hask start upper size worlds.2).world⟩)

/-- Walks end alike if all their questions do. -/
theorem since_agree (hask : ∀ start upper size {s t}, R s t →
      Agree R (ask start upper size s) (ask' start upper size t))
    (view : RowView ρ) (keep : ρ → Bool) (endpoint : String) (pageSize limit steps : Nat)
    (now since : Timestamp) {s : σ} {t : τ} (hst : R s t) :
    Agree R (Walk.since view keep ask endpoint pageSize limit steps now since s)
      (Walk.since view keep ask' endpoint pageSize limit steps now since t) := by
  have hfirst : Mirrors (fun worlds => worlds.1.1) (askBoth hask) ask :=
    fun start upper size worlds => rfl
  have hsecond : Mirrors (fun worlds => worlds.1.2) (askBoth hask) ask' :=
    fun start upper size worlds => Prod.ext (hask start upper size worlds.2).result.symm rfl
  rw [hfirst.since view keep endpoint pageSize limit steps now since ⟨(s, t), hst⟩,
    hsecond.since view keep endpoint pageSize limit steps now since ⟨(s, t), hst⟩]
  refine ⟨rfl, ?_⟩
  exact (Walk.since view keep (askBoth hask) endpoint pageSize limit steps now since
    ⟨(s, t), hst⟩).2.property

end Walk

/-! ## Two accounts -/

/-- The same settings with this secret. -/
def Config.keeping (c : Config) (secret : String) : Config :=
  { c with apiSecret := some secret }

theorem Config.credentials_keeping (c : Config) (secret : String) :
    (c.keeping secret).credentials? = c.apiKey.map (·, secret) := by
  unfold credentials? keeping
  cases c.apiKey <;> rfl

variable (c : Config) (secret secret' : String)

/-- The headers of a request are the same but for the signature, and both can be sent or neither:
a signature is always the value of a header. -/
theorem signedHeaders_twins (key : String) (milliseconds : Int) (call : Call)
    (content : List (String × String)) :
    (signedHeaders (c.keeping secret) key secret milliseconds call ++ content).map
        unsignedHeader =
      (signedHeaders (c.keeping secret') key secret' milliseconds call ++ content).map
        unsignedHeader ∧
    (signedHeaders (c.keeping secret) key secret milliseconds call ++ content).all
        (isHeaderValue ·.2) =
      (signedHeaders (c.keeping secret') key secret' milliseconds call ++ content).all
        (isHeaderValue ·.2) := by
  unfold signedHeaders Config.keeping
  simp [unsignedHeader, isHeaderValue_sign]

/-- Neither of the accounts can make the call, or both make the same request but for the
signature. -/
theorem request_twins (now : Timestamp) (call : Call) :
    (∃ cause, request (c.keeping secret) now call = .error cause ∧
      request (c.keeping secret') now call = .error cause) ∨
    ∃ r r', request (c.keeping secret) now call = .ok r ∧
      request (c.keeping secret') now call = .ok r' ∧ r.unsigned = r'.unsigned ∧
      r.headers.all (isHeaderValue ·.2) = r'.headers.all (isHeaderValue ·.2) := by
  unfold request
  dsimp only
  rw [Config.credentials_keeping, Config.credentials_keeping]
  by_cases hprivate : call.isPrivate = true
  · rw [if_pos hprivate, if_pos hprivate]
    cases c.apiKey with
    | none => exact Or.inl ⟨_, rfl, rfl⟩
    | some key =>
        have hheaders := signedHeaders_twins c secret secret' key now.milliseconds call
        refine Or.inr ⟨_, _, rfl, rfl, ?_, (hheaders _).2⟩
        exact congrArg
          (fun headers => HttpRequest.mk call.method (baseUrl c ++ call.path) headers call.body)
          (hheaders _).1
  · rw [if_neg hprivate, if_neg hprivate]
    exact Or.inr ⟨_, _, rfl, rfl, rfl, rfl⟩

variable {wire : HttpWire σ} {wire' : HttpWire τ}

theorem perform_agree (hwire : HttpWire.Alike R wire wire') {α : Type} (decode : Json → Option α)
    (call : Call) {s : σ} {t : τ} (hst : R s t) :
    Agree R (perform (c.keeping secret) wire decode call s)
      (perform (c.keeping secret') wire' decode call t) := by
  unfold perform
  rw [← hwire.now hst]
  rcases request_twins c secret secret' (wire.now s) call with
    ⟨cause, hrequest, hrequest'⟩ | ⟨r, r', hrequest, hrequest', hr, hall⟩
  · rw [hrequest, hrequest']
    exact ⟨rfl, hst⟩
  · rw [hrequest, hrequest']
    dsimp only
    rw [← hall]
    split
    · obtain ⟨answer, s₁, t₁, hsent, hsent', hworld⟩ := (hwire.send r r' hr hst).exists_eq
      rw [hsent, hsent']
      cases answer with
      | ok answer => exact ⟨rfl, hworld⟩
      | error detail => exact ⟨rfl, hworld⟩
    · exact ⟨rfl, hst⟩

theorem history_agree (hwire : HttpWire.Alike R wire wire') {ρ : Type} (steps : Nat)
    (view : RowView ρ) (decode : Json → Option ρ) (endpoint : String) (keep : ρ → Bool)
    (symbol : String) (since : Timestamp) (limit : Nat) {s : σ} {t : τ} (hst : R s t) :
    Agree R (history (c.keeping secret) wire steps view decode endpoint keep symbol since limit s)
      (history (c.keeping secret') wire' steps view decode endpoint keep symbol since limit t) := by
  unfold history
  rw [← hwire.now hst]
  exact Walk.since_agree (fun start upper size _ _ hst =>
    perform_agree c secret secret' hwire _ _ hst) view keep endpoint _ limit steps _ since hst

theorem agree_thenRead {α β : Type} {ended : Outcome ExchangeError α × σ}
    {ended' : Outcome ExchangeError α × τ} (h : Agree R ended ended')
    (read : α → Outcome ExchangeError β) :
    Agree R (Ftx.thenRead read ended) (Ftx.thenRead read ended') :=
  ⟨congrArg (· >>= read) h.result, h.world⟩

/-! ## Errands -/

/-- What comes of an errand. -/
inductive ErrandResult where
  | balances (result : Outcome ExchangeError Balances)
  | markets (result : Outcome ExchangeError (List Market))
  | trades (result : Outcome ExchangeError (List Trade))
  | orders (result : Outcome ExchangeError (List Order))
  | order (result : Outcome ExchangeError Order)
  | cancelled (result : Outcome ExchangeError Unit)

/-- Runs an errand, and tells what came of it. -/
def Errand.run (x : Exchange σ) (s : σ) (errand : Errand) : ErrandResult × σ :=
  (match errand with
    | balances => .balances (x.balances s).1
    | markets => .markets (x.markets s).1
    | trades symbol since limit => .trades (x.trades symbol since limit s).1
    | closedOrders symbol since limit => .orders (x.closedOrders symbol since limit s).1
    | openOrders symbol => .orders (x.openOrders symbol s).1
    | submit order => .order (x.submit order s).1
    | cancel order => .cancelled (x.cancel order s).1,
  errand.after x s)

theorem agree_ofResult {α : Type} {ended : α × σ} {ended' : α × τ} (h : Agree R ended ended')
    (read : α → ErrandResult) : Agree R (read ended.1, ended.2) (read ended'.1, ended'.2) :=
  ⟨congrArg read h.result, h.world⟩

/-- Both accounts are told the same of every errand. -/
theorem Errand.agree (hwire : HttpWire.Alike R wire wire') (steps : Nat) {s : σ} {t : τ}
    (hst : R s t) (errand : Errand) :
    Agree R (errand.run (exchange (c.keeping secret) wire steps) s)
      (errand.run (exchange (c.keeping secret') wire' steps) t) := by
  have hcall {α : Type} (decode : Json → Option α) (call : Call) :=
    perform_agree c secret secret' hwire decode call hst
  have hhistory {ρ : Type} (view : RowView ρ) (decode : Json → Option ρ) (endpoint : String)
      (keep : ρ → Bool) (symbol : String) (since : Timestamp) (limit : Nat) :=
    history_agree c secret secret' hwire steps view decode endpoint keep symbol since limit hst
  cases errand with
  | balances => exact agree_ofResult (agree_thenRead (hcall _ _) _) .balances
  | markets => exact agree_ofResult (agree_thenRead (hcall _ _) _) .markets
  | trades symbol since limit =>
      exact agree_ofResult (agree_thenRead (hhistory _ _ _ _ _ _ _) _) .trades
  | closedOrders symbol since limit =>
      exact agree_ofResult (agree_thenRead (hhistory _ _ _ _ _ _ _) _) .orders
  | openOrders symbol => exact agree_ofResult (agree_thenRead (hcall _ _) _) .orders
  | submit order => exact agree_ofResult (agree_thenRead (hcall _ _) _) .order
  | cancel order => exact agree_ofResult (agree_thenRead (hcall _ _) _) .cancelled

end Ftx

end Tradebook
