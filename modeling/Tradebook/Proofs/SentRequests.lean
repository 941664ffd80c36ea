import Tradebook.Ftx.Client
import Tradebook.Proofs.AnyServer

/-!
# What an account sends

Whatever an account is asked to do is an `Errand`, and an errand is done by making calls of
certain kinds (`Errand.Makes`). The wire writes down what it sends (`HttpWire.noted`), and
nothing is sent but the requests of such calls: `makes_of_sent`.

An errand that is no history makes one call (`sent_of_one_call`), and a private call is one
request if the account has credentials that headers can hold (`requests_of_credentials`). A history
makes one call for each page, and how many that are is up to the server. Of the pages it is enough
that a walk leaves alone what every question leaves alone (`since_keeps`).
-/

namespace Tradebook

/-- The same wire, writing down what is sent. -/
def HttpWire.noted {σ : Type} (wire : HttpWire σ) : HttpWire (σ × List HttpRequest) where
  send request s :=
    let answer := wire.send request s.1
    (answer.1, answer.2, s.2 ++ [request])
  now s := wire.now s.1

namespace Ftx

open Text

namespace Walk

variable {σ ρ : Type} {ask : Ask σ ρ} {P : σ → Prop}

theorem Pages.keeps (hask : ∀ start upper size s, P s → P (ask start upper size s).2)
    {s s' : σ} {rows : List ρ} (h : Pages ask s rows s') (hs : P s) : P s' := by
  induction h with
  | none => exact hs
  | @more start upper size page rows s s₁ s' hpage _ ih =>
      have hnext := hask start upper size s hs
      rw [hpage] at hnext
      exact ih hnext

theorem Halt.keeps {α : Type} (hask : ∀ start upper size s, P s → P (ask start upper size s).2)
    {endpoint : String} {result : Outcome ExchangeError α} {s s' : σ}
    (h : Halt ask endpoint result s s') (hs : P s) : P s' := by
  cases h with
  | @failed start upper size _ _ _ hstop | @overflow start upper size _ _ hstop
  | @exhausted start upper size _ _ hstop =>
      have hnext := hask start upper size s hs
      rw [hstop] at hnext
      exact hnext
  | crowded | outOfRange | outOfSteps => exact hs

/-- What stays true with every question stays true with a walk. -/
theorem since_keeps (hask : ∀ start upper size s, P s → P (ask start upper size s).2)
    (view : RowView ρ) (keep : ρ → Bool) (endpoint : String) (pageSize limit steps : Nat)
    (now since : Timestamp) {s : σ} (hs : P s) :
    P (Walk.since view keep ask endpoint pageSize limit steps now since s).2 := by
  rcases hsince : Walk.since view keep ask endpoint pageSize limit steps now since s
    with ⟨result, s'⟩
  have hwent := since_went view keep ask endpoint pageSize limit steps now since s hsince
  cases hwent with
  | ok hpages _ => exact hpages.keeps hask hs
  | halt hpages hhalt => exact hhalt.keeps hask (hpages.keeps hask hs)

end Walk

/-! ## Errands -/

/-- Something that an account is asked to do. -/
inductive Errand where
  | balances
  | markets
  | trades (symbol : String) (since : Timestamp) (limit : Nat)
  | closedOrders (symbol : String) (since : Timestamp) (limit : Nat)
  | openOrders (symbol : String)
  | submit (order : OrderRequest)
  | cancel (order : CancelRequest)
  deriving DecidableEq, Repr

namespace Errand

/-- The world after an errand. -/
def after {σ : Type} (x : Exchange σ) (s : σ) : Errand → σ
  | balances => (x.balances s).2
  | markets => (x.markets s).2
  | trades symbol since limit => (x.trades symbol since limit s).2
  | closedOrders symbol since limit => (x.closedOrders symbol since limit s).2
  | openOrders symbol => (x.openOrders symbol s).2
  | submit order => (x.submit order s).2
  | cancel order => (x.cancel order s).2

/-- The requests that an errand sends, the first one first. -/
def sent {σ : Type} (c : Config) (wire : HttpWire σ) (steps : Nat) (s : σ) (errand : Errand) :
    List HttpRequest :=
  (errand.after (exchange c wire.noted steps) (s, [])).2

/-- The calls that an errand may make. -/
inductive Makes : Errand → Call → Prop
  | balances : Makes .balances (privateCall .get "/api/wallet/balances")
  | markets : Makes .markets ⟨.get, "/api/markets", none, false⟩
  | trades (symbol : String) (since : Timestamp) (limit : Nat) (start upper : Timestamp)
      (size : Nat) :
      Makes (.trades symbol since limit)
        (privateCall .get (historyPath "/api/fills" symbol start upper size))
  | closedOrders (symbol : String) (since : Timestamp) (limit : Nat) (start upper : Timestamp)
      (size : Nat) :
      Makes (.closedOrders symbol since limit)
        (privateCall .get (historyPath "/api/orders/history" symbol start upper size))
  | openOrders (symbol : String) :
      Makes (.openOrders symbol) (privateCall .get ("/api/orders?market=" ++ symbol))
  | submit (order : OrderRequest) :
      Makes (.submit order) ⟨.post, "/api/orders", some (orderBody order).compact, true⟩
  | cancel (order : CancelRequest) :
      Makes (.cancel order) (privateCall .delete (cancelPath order))

/-- Only the markets are for everybody. -/
theorem Makes.isPrivate {errand : Errand} {call : Call} (h : errand.Makes call)
    (hprivate : errand ≠ .markets) : call.isPrivate = true := by
  cases h
  case markets => exact absurd rfl hprivate
  all_goals rfl

end Errand

/-! ## Calls -/

/-- The request of a call, if there is one that can be sent. -/
def Call.requests (c : Config) (now : Timestamp) (call : Call) : List HttpRequest :=
  match request c now call with
  | .ok request => if request.headers.all (isHeaderValue ·.2) then [request] else []
  | _ => []

section Sending

variable {σ : Type} (c : Config) (wire : HttpWire σ)

theorem perform_noted {α : Type} (decode : Json → Option α) (call : Call)
    (s : σ × List HttpRequest) :
    (perform c wire.noted decode call s).2.2 = s.2 ++ call.requests c (wire.now s.1) := by
  unfold perform Call.requests
  simp only [HttpWire.noted]
  cases request c (wire.now s.1) call with
  | ok request =>
      dsimp only
      by_cases hheaders : request.headers.all fun header => isHeaderValue header.2
      · rw [if_pos hheaders, if_pos hheaders]
        rcases wire.send request s.1 with ⟨answer | detail, s'⟩ <;> rfl
      · rw [if_neg hheaders, if_neg hheaders, List.append_nil]
  | error cause => exact (List.append_nil _).symm
  | overflow => exact (List.append_nil _).symm
  | exhausted => exact (List.append_nil _).symm

/-- All requests of a history belong to its pages. -/
theorem history_noted {ρ : Type} (steps : Nat) (view : RowView ρ) (decode : Json → Option ρ)
    (endpoint : String) (keep : ρ → Bool) (symbol : String) (since : Timestamp) (limit : Nat)
    (s : σ) {r : HttpRequest}
    (hr : r ∈ (history c wire.noted steps view decode endpoint keep symbol since limit
      (s, [])).2.2) :
    ∃ start upper size now,
      r ∈ (privateCall .get (historyPath endpoint symbol start upper size)).requests c now := by
  have hpages : ∀ start upper size (s : σ × List HttpRequest),
      (∀ r ∈ s.2, ∃ start upper size now,
        r ∈ (privateCall .get (historyPath endpoint symbol start upper size)).requests c now) →
      ∀ r ∈ (askHistory c wire.noted decode endpoint symbol start upper size s).2.2,
        ∃ start upper size now,
          r ∈ (privateCall .get (historyPath endpoint symbol start upper size)).requests c now := by
    intro start upper size s hs r hr
    rw [askHistory, perform_noted] at hr
    rcases List.mem_append.1 hr with hr | hr
    · exact hs r hr
    · exact ⟨start, upper, size, _, hr⟩
  exact Walk.since_keeps hpages view keep endpoint c.historyPageSize limit steps _ since
    (by simp) r hr

theorem thenRead_world {α β : Type} (read : α → Outcome ExchangeError β)
    (ended : Outcome ExchangeError α × σ) : (thenRead read ended).2 = ended.2 :=
  rfl

/-- An errand that is no history sends the request of its call and nothing else. -/
theorem sent_of_one_call (steps : Nat) (s : σ) {errand : Errand} {call : Call}
    (h : errand.Makes call) (htrades : ∀ symbol since limit, errand ≠ .trades symbol since limit)
    (horders : ∀ symbol since limit, errand ≠ .closedOrders symbol since limit) :
    errand.sent c wire steps s = call.requests c (wire.now s) := by
  cases h with
  | trades symbol since limit => exact absurd rfl (htrades symbol since limit)
  | closedOrders symbol since limit => exact absurd rfl (horders symbol since limit)
  | balances | markets | openOrders | submit | cancel =>
      unfold Errand.sent Errand.after exchange
      dsimp only
      rw [thenRead_world, perform_noted, List.nil_append]

/-- Every request that goes over the wire is that of a call that the errand makes. -/
theorem makes_of_sent {steps : Nat} {s : σ} {errand : Errand} {r : HttpRequest}
    (hr : r ∈ errand.sent c wire steps s) :
    ∃ call now, errand.Makes call ∧ r ∈ call.requests c now := by
  have hone : ∀ {call}, errand.Makes call →
      (∀ symbol since limit, errand ≠ .trades symbol since limit) →
      (∀ symbol since limit, errand ≠ .closedOrders symbol since limit) →
      ∃ call now, errand.Makes call ∧ r ∈ call.requests c now := by
    intro call hmakes htrades horders
    rw [sent_of_one_call c wire steps s hmakes htrades horders] at hr
    exact ⟨call, _, hmakes, hr⟩
  cases errand with
  | trades symbol since limit =>
      obtain ⟨start, upper, size, now, hr⟩ := history_noted c wire steps _ _ _ _ _ _ _ s hr
      exact ⟨_, now, .trades symbol since limit start upper size, hr⟩
  | closedOrders symbol since limit =>
      obtain ⟨start, upper, size, now, hr⟩ := history_noted c wire steps _ _ _ _ _ _ _ s hr
      exact ⟨_, now, .closedOrders symbol since limit start upper size, hr⟩
  | balances => exact hone .balances (by simp) (by simp)
  | markets => exact hone .markets (by simp) (by simp)
  | openOrders symbol => exact hone (.openOrders symbol) (by simp) (by simp)
  | submit order => exact hone (.submit order) (by simp) (by simp)
  | cancel order => exact hone (.cancel order) (by simp) (by simp)

end Sending

/-! ## Headers -/

theorem isHeaderValue_sign (secret payload : String) :
    isHeaderValue (Crypto.sign secret payload) = true := by
  have hhex : ∀ d, d < 16 →
      (Text.hexChar d = '\t' || (32 ≤ (Text.hexChar d).toNat && (Text.hexChar d).toNat ≠ 127)) := by
    decide
  unfold isHeaderValue Crypto.sign Text.hexBytes
  rw [List.all_eq_true, String.toList_ofList]
  intro c hc
  obtain ⟨b, -, hc⟩ := List.mem_flatMap.1 hc
  have hb := b.toNat_lt
  simp only [List.mem_cons, List.not_mem_nil, or_false] at hc
  rcases hc with rfl | rfl
  · exact hhex _ (by omega)
  · exact hhex _ (by omega)

theorem isHeaderValue_intText (n : Int) : isHeaderValue (Text.intText n) = true := by
  have hdigits : ∀ n, ∀ d ∈ (Text.natText n).toList,
      (d = '\t' || (32 ≤ d.toNat && d.toNat ≠ 127)) = true := by
    intro n d hd
    rw [Text.natText, String.toList_ofList] at hd
    have hdigit := Char.isDigit_iff_toNat.1 (Text.isDigit_of_mem_decimalDigits n d hd)
    rw [show '0'.toNat = 48 from rfl, show '9'.toNat = 57 from rfl] at hdigit
    simp only [Bool.or_eq_true, Bool.and_eq_true, decide_eq_true_eq]
    omega
  unfold isHeaderValue
  rw [List.all_eq_true]
  cases n with
  | ofNat n => exact hdigits n
  | negSucc n =>
      intro d hd
      rw [Text.intText, String.toList_append, List.mem_append] at hd
      rcases hd with hd | hd
      · obtain rfl : d = '-' := by simpa using hd
        decide
      · exact hdigits (n + 1) d hd

/-- A private call is one request that can be sent if the key and the name of the subaccount can. -/
theorem requests_of_credentials {c : Config} {key secret : String}
    (hcredentials : c.credentials? = some (key, secret)) (hkey : isHeaderValue key = true)
    (hsubaccount : ∀ name ∈ c.subaccount, isHeaderValue name = true) (now : Timestamp)
    {call : Call} (hprivate : call.isPrivate = true) :
    ∃ r, call.requests c now = [r] := by
  have hcontent : isHeaderValue "application/json" = true := by decide
  have hheaders : ∀ milliseconds,
      (signedHeaders c key secret milliseconds call).all (isHeaderValue ·.2) = true := by
    intro milliseconds
    unfold signedHeaders
    cases hname : c.subaccount with
    | none => simp [hkey, isHeaderValue_sign, isHeaderValue_intText]
    | some name => simp [hkey, isHeaderValue_sign, isHeaderValue_intText, hsubaccount name hname]
  unfold Call.requests request
  rw [if_pos hprivate, hcredentials]
  cases call.body <;> simp [List.all_append, hheaders, hcontent]

/-! ## Requests -/

/-- A request as it is sent: addressed to the exchange and otherwise as the call says. -/
structure Call.Carries (c : Config) (call : Call) (r : HttpRequest) : Prop where
  method : r.method = call.method
  url : r.url = baseUrl c ++ call.path
  body : r.body = call.body

variable {c : Config} {now : Timestamp} {call : Call} {r : HttpRequest}

theorem request_of_mem_requests (h : r ∈ call.requests c now) : request c now call = .ok r := by
  unfold Call.requests at h
  cases hrequest : request c now call with
  | ok request =>
      simp only [hrequest] at h
      split at h
      · rw [List.mem_singleton.1 h]
      · cases h
  | error cause => simp [hrequest] at h
  | overflow => simp [hrequest] at h
  | exhausted => simp [hrequest] at h

theorem carries_of_mem_requests (h : r ∈ call.requests c now) : call.Carries c r := by
  have hrequest := request_of_mem_requests h
  unfold request at hrequest
  dsimp only at hrequest
  split at hrequest
  · split at hrequest
    · cases hrequest
      exact ⟨rfl, rfl, rfl⟩
    · cases hrequest
  · cases hrequest
    exact ⟨rfl, rfl, rfl⟩

/-- A private request tells the millisecond it was made in and is signed with the secret of the
account. -/
theorem signature_of_mem_requests (hprivate : call.isPrivate = true)
    (h : r ∈ call.requests c now) :
    ∃ key secret, c.credentials? = some (key, secret) ∧
      r.headers.lookup "FTX-TS" = some (intText now.milliseconds) ∧
      r.headers.lookup "FTX-SIGN" = some (Crypto.sign secret
        (requestPayload now.milliseconds call.method.name call.path (call.body.getD ""))) := by
  have hrequest := request_of_mem_requests h
  unfold request at hrequest
  dsimp only at hrequest
  rw [if_pos hprivate] at hrequest
  split at hrequest
  · next key secret hcredentials =>
      cases hrequest
      exact ⟨key, secret, hcredentials, rfl, rfl⟩
  · cases hrequest

end Ftx

end Tradebook
