import Tradebook.Proofs.DigitText
import Tradebook.Proofs.SentRequests
import Tradebook.Proofs.SentTarget

/-!
# The target that is signed and the target that is sent

A private request is signed over its path as it was put together, and what the server sees of it
is the target of its address. The two are one text where the address of the exchange is bare and
the words in the path need no normal form, and nowhere else (`signed_target`). For a symbol, which
stands in a query, that means that all its characters stand for themselves (`Errand.Plain`).

A symbol with a blank in it has none of this: the server sees the blank as an escape, which is not
what was signed (`signed_target_blank`).
-/

namespace Tradebook

open Text

namespace Http

/-- Texts of which all characters stand for themselves in a query. -/
def IsPlainQuery (query : String) : Prop :=
  ∀ c ∈ query.toList, isPlain queryEscaped c = true

instance (query : String) : Decidable (IsPlainQuery query) :=
  decidable_of_iff (query.toList.all (isPlain queryEscaped) = true) List.all_eq_true

theorem isPlainQuery_append (a b : String) :
    IsPlainQuery (a ++ b) ↔ IsPlainQuery a ∧ IsPlainQuery b := by
  unfold IsPlainQuery
  rw [String.toList_append, List.forall_mem_append]

theorem isPlain_of_isDigit {c : Char} (h : c.isDigit = true) : isPlain queryEscaped c = true := by
  have hout : c ∉ queryEscaped := fun hmem => by
    have hnone : queryEscaped.all (!·.isDigit) = true := by decide
    have hnot := List.all_eq_true.1 hnone c hmem
    rw [h] at hnot
    cases hnot
  have hbounds : 48 ≤ c.toNat ∧ c.toNat ≤ 57 := by
    rw [Char.isDigit, Bool.and_eq_true, decide_eq_true_eq, decide_eq_true_eq] at h
    exact h
  simp only [isPlain, Bool.and_eq_true, decide_eq_true_eq, Bool.not_eq_true',
    List.contains_eq_mem, decide_eq_false_iff_not]
  exact ⟨by omega, hout⟩

theorem isPlainQuery_natText (n : Nat) : IsPlainQuery (natText n) := by
  intro c hc
  rw [natText, String.toList_ofList] at hc
  exact isPlain_of_isDigit (isDigit_of_mem_decimalDigits n c hc)

theorem isPlainQuery_intText (n : Int) : IsPlainQuery (intText n) := by
  cases n with
  | ofNat n => exact isPlainQuery_natText n
  | negSucc n => exact (isPlainQuery_append _ _).2 ⟨by decide, isPlainQuery_natText (n + 1)⟩

/-- A path with a query is sent as it is written just if the path is and the characters of the
query stand for themselves. -/
theorem kept_query_iff {path : String} (hpath : KeptPath path.toList) (query : String) :
    Kept (path ++ "?" ++ query) ↔ IsPlainQuery query := by
  have hhead : ∀ c ∈ ('?' :: query.toList).head?, c = '?' := by
    rintro c ⟨⟩
    rfl
  have hparts := parts_of_append hpath.no_mark hhead
  have hlist : (path ++ "?" ++ query).toList = path.toList ++ '?' :: query.toList := by
    rw [String.toList_append, String.toList_append, List.append_assoc]
    rfl
  rw [Kept, hlist]
  constructor
  · intro h c hc
    have hquery := h.query
    rw [hparts.2] at hquery
    exact hquery c (List.mem_cons_of_mem '?' hc)
  · intro h
    refine ⟨hparts.1.symm ▸ hpath, fun c hc => ?_⟩
    rw [hparts.2] at hc
    rcases List.mem_cons.1 hc with rfl | hc
    · decide
    · exact h c hc

end Http

namespace Ftx

open Http

theorem isPlainQuery_timeParameter (t : Timestamp) : IsPlainQuery (timeParameter t) := by
  unfold timeParameter
  refine (isPlainQuery_append _ _).2 ⟨(isPlainQuery_append _ _).2
    ⟨isPlainQuery_intText t.seconds, by decide⟩, fun c hc => ?_⟩
  rw [String.toList_ofList] at hc
  exact isPlain_of_isDigit
    (isDigit_of_mem_padZeros (isDigit_of_mem_decimalDigits (t.nanos / 1000)) c hc)

/-- The page of a history is asked for as it is written just if the symbol is plain. -/
theorem kept_historyPath_iff {endpoint : String} (hendpoint : KeptPath endpoint.toList)
    (symbol : String) (start upper : Timestamp) (size : Nat) :
    Kept (historyPath endpoint symbol start upper size) ↔ IsPlainQuery symbol := by
  have hpath : historyPath endpoint symbol start upper size = endpoint ++ "?" ++ ("market=" ++
      symbol ++ "&start_time=" ++ timeParameter start ++ "&end_time=" ++ timeParameter upper ++
      "&limit=" ++ natText size) := by
    have hmark : "?market=" = "?" ++ "market=" := rfl
    unfold historyPath
    rw [hmark]
    simp only [String.append_assoc]
  rw [hpath, kept_query_iff hendpoint]
  simp only [isPlainQuery_append, isPlainQuery_timeParameter, isPlainQuery_natText, and_true]
  have hwords : IsPlainQuery "market=" ∧ IsPlainQuery "&start_time=" ∧
      IsPlainQuery "&end_time=" ∧ IsPlainQuery "&limit=" := by decide
  simp only [hwords, true_and, and_true]

/-- What an errand puts into a path needs no normal form. -/
def Errand.Plain : Errand → Prop
  | .balances => True
  | .markets => True
  | .trades symbol _ _ => IsPlainQuery symbol
  | .closedOrders symbol _ _ => IsPlainQuery symbol
  | .openOrders symbol => IsPlainQuery symbol
  | .submit _ => True
  | .cancel order => Kept (cancelPath order)

/-- The path of a call is sent as it is written just if what its errand puts into it is plain. -/
theorem Errand.Makes.kept_iff {errand : Errand} {call : Call} (h : errand.Makes call) :
    Kept call.path ↔ errand.Plain := by
  cases h with
  | balances => exact iff_of_true (show Kept "/api/wallet/balances" by decide) trivial
  | markets => exact iff_of_true (show Kept "/api/markets" by decide) trivial
  | submit => exact iff_of_true (show Kept "/api/orders" by decide) trivial
  | trades symbol since limit start upper size =>
      exact kept_historyPath_iff (by decide) symbol start upper size
  | closedOrders symbol since limit start upper size =>
      exact kept_historyPath_iff (by decide) symbol start upper size
  | openOrders symbol =>
      have hmarket : IsPlainQuery "market=" := by decide
      have hpath : "/api/orders?market=" ++ symbol =
          "/api/orders" ++ "?" ++ ("market=" ++ symbol) := by
        rw [← String.append_assoc]
        rfl
      show Kept ("/api/orders?market=" ++ symbol) ↔ IsPlainQuery symbol
      rw [hpath, kept_query_iff (by decide), isPlainQuery_append]
      exact and_iff_right hmarket
  | cancel order => exact Iff.rfl

/-- Every path begins with a slash. -/
theorem Errand.Makes.head?_path {errand : Errand} {call : Call} (h : errand.Makes call) :
    call.path.toList.head? = some '/' := by
  have happend (first rest : String) (hfirst : first.toList.head? = some '/') :
      (first ++ rest).toList.head? = some '/' := by
    rw [String.toList_append, List.head?_append, hfirst]
    rfl
  have hhistory (endpoint symbol : String) (start upper : Timestamp) (size : Nat)
      (hendpoint : endpoint.toList.head? = some '/') :
      (historyPath endpoint symbol start upper size).toList.head? = some '/' := by
    unfold historyPath
    simp only [String.append_assoc]
    exact happend endpoint _ hendpoint
  cases h with
  | balances => exact (by decide : "/api/wallet/balances".toList.head? = some '/')
  | markets => exact (by decide : "/api/markets".toList.head? = some '/')
  | submit => exact (by decide : "/api/orders".toList.head? = some '/')
  | trades symbol since limit start upper size => exact hhistory _ _ _ _ _ (by decide)
  | closedOrders symbol since limit start upper size => exact hhistory _ _ _ _ _ (by decide)
  | openOrders symbol => exact happend "/api/orders?market=" symbol (by decide)
  | cancel order =>
      cases order with
      | byOrderId id => exact happend "/api/orders/" id (by decide)
      | byClientOrderId id => exact happend "/api/orders/by_client_id/" id (by decide)

/-- A private request is signed over its path, and the path is the target that the server sees
just if it is sent as it is written: if the address of the exchange is bare, and what the errand
puts into the path is plain. Behind a number sign the path is not sent at all, and it is the
target only by chance. -/
theorem signed_target {σ : Type} {c : Config} {wire : HttpWire σ} {steps : Nat} {s : σ}
    {errand : Errand} (hprivate : errand ≠ .markets) {r : HttpRequest}
    (hr : r ∈ errand.sent c wire steps s) :
    ∃ key secret milliseconds path,
      c.credentials? = some (key, secret) ∧
      r.url = baseUrl c ++ path ∧
      r.headers.lookup "FTX-TS" = some (intText milliseconds) ∧
      r.headers.lookup "FTX-SIGN" = some (Crypto.sign secret
        (requestPayload milliseconds r.method.name path (r.body.getD ""))) ∧
      (target? r.url = some path ↔
        if '#' ∈ (baseUrl c).toList then target? (baseUrl c) = some path
        else Bare (baseUrl c) ∧ errand.Plain) := by
  obtain ⟨call, now, hmakes, hcall⟩ := makes_of_sent c wire hr
  obtain ⟨hmethod, hurl, hbody⟩ := carries_of_mem_requests hcall
  obtain ⟨key, secret, hcredentials, htime, hsign⟩ :=
    signature_of_mem_requests (hmakes.isPrivate hprivate) hcall
  refine ⟨key, secret, now.milliseconds, call.path, hcredentials, hurl, htime, ?_, ?_⟩
  · rw [hmethod, hbody]
    exact hsign
  · rw [hurl]
    split
    · next hhash => rw [target?_hash hhash]
    · next hhash => rw [target?_eq_path_iff hmakes.head?_path hhash, hmakes.kept_iff]

/-- A wire on which nobody answers. -/
def silence : HttpWire Unit where
  send _ s := (.error "nobody answers", s)
  now _ := .epoch

/-- The open orders of a symbol that is plain. -/
theorem signed_target_plain :
    ∃ r ∈ (Errand.openOrders "BTC/USD").sent (Config.default.withCredentials "key" "secret")
        silence 1 (),
      ∃ milliseconds path,
        r.headers.lookup "FTX-TS" = some (intText milliseconds) ∧
        r.headers.lookup "FTX-SIGN" = some (Crypto.sign "secret"
          (requestPayload milliseconds r.method.name path (r.body.getD ""))) ∧
        target? r.url = some path := by
  have hone : 0 < ((Errand.openOrders "BTC/USD").sent
      (Config.default.withCredentials "key" "secret") silence 1 ()).length := by
    decide +kernel
  obtain ⟨r, hr⟩ := List.exists_mem_of_length_pos hone
  obtain ⟨key, secret, milliseconds, path, hcredentials, -, htime, hsign, htarget⟩ :=
    signed_target (by simp) hr
  have hsecret : some ("key", "secret") = some (key, secret) := hcredentials
  obtain ⟨-, rfl⟩ := Prod.mk.inj (Option.some.inj hsecret)
  refine ⟨r, hr, milliseconds, path, htime, hsign, htarget.2 ?_⟩
  rw [if_neg (by decide)]
  exact ⟨by decide, (by decide : IsPlainQuery "BTC/USD")⟩

/-- The open orders of a symbol with a blank: the blank is sent as an escape, and that is not what
was signed. -/
theorem signed_target_blank :
    ∃ r ∈ (Errand.openOrders "BTC USD").sent (Config.default.withCredentials "key" "secret")
        silence 1 (),
      r.url = "https://ftx.com/api/orders?market=BTC USD" ∧
      target? r.url = some "/api/orders?market=BTC%20USD" ∧
      r.headers.lookup "FTX-TS" = some "0" ∧
      r.headers.lookup "FTX-SIGN" ≠ some (Crypto.sign "secret"
        (requestPayload 0 "GET" "/api/orders?market=BTC%20USD" "")) := by
  decide +kernel

end Ftx

end Tradebook
