import Tradebook.Cli.Program
import Tradebook.Proofs.DecimalSum
import Tradebook.Proofs.RecordText
import Tradebook.Proofs.SentRequests

/-!
# The order that reaches the exchange

A person names a symbol, a side, a type of order, perhaps a price and a size, in words and in
decimals, and what is posted is a text. The exchange reads that text as an `OrderTicket`, whose
reader is written here without a look at the writer: all six members have to be there, and the
price may be null.

A request is made of exactly those words that mean an order (`orderRequest_ok_iff`), and what is
posted for it is read as the order that the words mean (`posted_as_given`).
-/

namespace Tradebook

open Json Text

/-! ## Words that mean an order -/

theorem bind_eq_ok {ε α β : Type} {x : Except ε α} {f : α → Except ε β} {b : β} :
    x >>= f = .ok b ↔ ∃ a, x = .ok a ∧ f a = .ok b := by
  cases x <;> simp [bind, Except.bind]

theorem Side.ofText_ok_iff (word : String) (side : Side) :
    Side.ofText word = .ok side ↔ asciiLower (trim word) = side.name := by
  unfold Side.ofText
  dsimp only
  split_ifs with hbuy hsell
  · rw [hbuy]
    cases side <;> simp [Side.name]
  · rw [hsell]
    cases side <;> simp [Side.name]
  · cases side <;> simp [Side.name, hbuy, hsell]

/-- The kind that a word means beside a price. -/
inductive OrderKind.Means (word : String) (price : Option Decimal) : OrderKind → Prop
  | market (hword : word = "market") : Means word price .market
  | limit {given : Decimal} (hword : word = "limit") (hprice : price = some given) :
      Means word price (.limit given)

theorem OrderKind.ofText_ok_iff (word : String) (price : Option Decimal) (kind : OrderKind) :
    OrderKind.ofText word price = .ok kind ↔ kind.Means (asciiLower (trim word)) price := by
  unfold OrderKind.ofText
  generalize asciiLower (trim word) = word
  dsimp only
  constructor
  · intro h
    split_ifs at h with hlimit hmarket
    · cases price with
      | none => cases h
      | some given =>
          cases h
          exact .limit hlimit rfl
    · cases h
      exact .market hmarket
  · intro h
    cases h with
    | market hword => rw [hword, if_neg (by decide), if_pos rfl]
    | limit hword hprice => rw [if_pos hword, hprice]

theorem OrderRequest.make_ok_iff (symbol : String) (side : Side) (kind : OrderKind)
    (quantity : Decimal) (id : String) (request : OrderRequest) :
    OrderRequest.make symbol side kind quantity id = .ok request ↔
      normalizeSymbol symbol ≠ "" ∧ 0 < quantity.toRat ∧
        (∀ price, kind.price = some price → 0 < price.toRat) ∧
        request = ⟨normalizeSymbol symbol, side, kind, quantity, id⟩ := by
  unfold OrderRequest.make
  generalize normalizeSymbol symbol = symbol
  dsimp only
  constructor
  · intro h
    split_ifs at h with hsymbol hquantity
    have hsize : 0 < quantity.toRat := quantity.isPositive_iff.1 (by simpa using hquantity)
    cases hprice : kind.price with
    | none =>
        simp only [hprice] at h
        exact ⟨hsymbol, hsize, by simp, (Except.ok.inj h).symm⟩
    | some price =>
        simp only [hprice] at h
        split_ifs at h with hpositive
        exact ⟨hsymbol, hsize, by simpa using price.isPositive_iff.1 hpositive,
          (Except.ok.inj h).symm⟩
  · rintro ⟨hsymbol, hsize, hpositive, rfl⟩
    rw [if_neg hsymbol, if_neg (by simp [quantity.isPositive_iff.2 hsize])]
    cases hprice : kind.price with
    | none => rfl
    | some price => exact if_pos (price.isPositive_iff.2 (hpositive price hprice))

namespace Cli

/-- A request that the words of a command mean. -/
structure Means (symbol side orderType : String) (price : Option Decimal) (size : Decimal)
    (request : OrderRequest) : Prop where
  symbol : request.symbol = normalizeSymbol symbol
  isNamed : request.symbol ≠ ""
  side : request.side.name = asciiLower (trim side)
  kind : request.kind.Means (asciiLower (trim orderType)) price
  price : ∀ asked, request.kind.price = some asked → 0 < asked.toRat
  quantity : request.quantity = size
  isPositive : 0 < request.quantity.toRat

/-- A request is made of the words that mean one, and of no others. -/
theorem orderRequest_ok_iff (symbol side orderType : String) (price : Option Decimal)
    (size : Decimal) (id : String) (request : OrderRequest) :
    orderRequest symbol side orderType price size id = .ok request ↔
      Means symbol side orderType price size request ∧ request.clientOrderId = id := by
  constructor
  · intro h
    obtain ⟨asked, hside, h⟩ := bind_eq_ok.1 h
    obtain ⟨kind, hkind, h⟩ := bind_eq_ok.1 h
    obtain ⟨hsymbol, hsize, hprice, rfl⟩ := (OrderRequest.make_ok_iff ..).1 h
    exact ⟨⟨rfl, hsymbol, ((Side.ofText_ok_iff ..).1 hside).symm,
      (OrderKind.ofText_ok_iff ..).1 hkind, hprice, rfl, hsize⟩, rfl⟩
  · rintro ⟨h, hid⟩
    obtain ⟨named, asked, kind, quantity, clientOrderId⟩ := request
    refine bind_eq_ok.2 ⟨asked, (Side.ofText_ok_iff ..).2 h.side.symm,
      bind_eq_ok.2 ⟨kind, (OrderKind.ofText_ok_iff ..).2 h.kind, ?_⟩⟩
    obtain rfl : quantity = size := h.quantity
    obtain rfl : named = normalizeSymbol symbol := h.symbol
    obtain rfl : clientOrderId = id := hid
    exact (OrderRequest.make_ok_iff ..).2 ⟨h.isNamed, h.isPositive, h.price, rfl⟩

/-- No request is made without a symbol, a positive size, and for a limit a positive price. -/
theorem orderRequest_ne_ok {symbol side orderType : String} {price : Option Decimal}
    {size : Decimal} (id : String)
    (h : normalizeSymbol symbol = "" ∨ ¬ 0 < size.toRat ∨
      (asciiLower (trim orderType) = "limit" ∧ ∀ given ∈ price, ¬ 0 < given.toRat))
    (request : OrderRequest) : orderRequest symbol side orderType price size id ≠ .ok request := by
  intro hmade
  obtain ⟨hmeans, -⟩ := (orderRequest_ok_iff ..).1 hmade
  rcases h with hsymbol | hsize | ⟨hlimit, hprice⟩
  · exact hmeans.isNamed (hmeans.symbol.trans hsymbol)
  · exact hsize (hmeans.quantity ▸ hmeans.isPositive)
  · have hkind := hmeans.kind
    have hpositive := hmeans.price
    cases hkind' : request.kind with
    | market =>
        rw [hkind'] at hkind
        cases hkind with
        | market hword => simp [hlimit] at hword
    | limit asked =>
        rw [hkind'] at hkind hpositive
        cases hkind with
        | limit _ hgiven => exact hprice asked hgiven (hpositive asked rfl)

end Cli

namespace Ftx

/-! ## The body as it is read -/

/-- An order as the exchange is asked for it. -/
structure OrderTicket where
  market : String
  side : String
  price : Option Decimal
  type : String
  size : Decimal
  clientId : String
  deriving DecidableEq, Repr

namespace OrderTicket

/-- Reads the members of a ticket: all are there, and only the price may be null. -/
def ofMembers? : List (Option Json) → Option OrderTicket
  | [market, side, price, type, size, clientId] => do
    return ⟨← required asText? market, ← required asText? side,
      ← required (fun v => optional asDecimal? (some v)) price, ← required asText? type,
      ← required asDecimal? size, ← required asText? clientId⟩
  | _ => none

/-- Reads an object. -/
def ofJson? : Json → Option OrderTicket
  | .object members =>
    ((Json.object members).fields?
      ["market", "side", "price", "type", "size", "clientId"]).bind ofMembers?
  | _ => none

/-- Reads a body. -/
def ofBody? (body : String) : Option OrderTicket :=
  (Json.parse body).bind ofJson?

/-- The ticket of a request, as it is read. -/
def ofRequest (r : OrderRequest) : OrderTicket :=
  ⟨r.symbol, r.side.name, r.kind.price.map Decimal.asRead, r.kind.orderType.name,
    r.quantity.asRead, r.clientOrderId⟩

theorem ofJson?_orderBody (r : OrderRequest) : ofJson? (orderBody r) = some (ofRequest r) := by
  have hprice : optional asDecimal? (some (nullable Decimal.toJson r.kind.price)) =
      some (r.kind.price.map Decimal.asRead) :=
    optional_nullable_map asDecimal?_toJson (by simp [Decimal.toJson, text]) r.kind.price
  show ((orderBody r).fields?
    ["market", "side", "price", "type", "size", "clientId"]).bind ofMembers? = _
  rw [orderBody, fields?_record, Option.bind_some]
  · simp [ofMembers?, hprice, ofRequest]
  · rfl
  · decide

/-- What is written for a request is read as its ticket. -/
theorem ofBody?_compact (r : OrderRequest) :
    ofBody? (orderBody r).compact = some (ofRequest r) := by
  have hwritten : Written (orderBody r) := written_record (by simp)
  rw [ofBody?, parse_compact hwritten, Option.bind_some, ofJson?_orderBody]

theorem toRat_asRead (a : Decimal) : a.asRead.toRat = a.toRat := by
  rw [Decimal.toRat, Decimal.toRat, a.coefficient_asRead]
  rfl

/-- A ticket that asks for what the words of a command say. -/
structure Fits (symbol side orderType : String) (price : Option Decimal) (size : Decimal)
    (id : String) (t : OrderTicket) : Prop where
  market : t.market = normalizeSymbol symbol
  isNamed : t.market ≠ ""
  side : t.side = asciiLower (trim side)
  isSide : t.side = "buy" ∨ t.side = "sell"
  type : t.type = asciiLower (trim orderType)
  price : (t.type = "market" ∧ t.price = none) ∨
    (t.type = "limit" ∧ ∃ given ∈ price, ∃ asked ∈ t.price,
      asked.toRat = given.toRat ∧ 0 < asked.toRat)
  size : t.size.toRat = size.toRat
  isPositive : 0 < t.size.toRat
  clientId : t.clientId = id

theorem fits_ofRequest {symbol side orderType : String} {price : Option Decimal} {size : Decimal}
    {r : OrderRequest} (h : Cli.Means symbol side orderType price size r) :
    Fits symbol side orderType price size r.clientOrderId (ofRequest r) where
  market := h.symbol
  isNamed := h.isNamed
  side := h.side
  isSide := by
    show r.side.name = _ ∨ r.side.name = _
    cases r.side with
    | buy => exact Or.inl rfl
    | sell => exact Or.inr rfl
  type := by
    have hkind := h.kind
    show r.kind.orderType.name = _
    generalize r.kind = kind at hkind
    cases hkind with
    | market hword => exact hword.symm
    | limit hword _ => exact hword.symm
  price := by
    have hkind := h.kind
    have hpositive := h.price
    show (r.kind.orderType.name = _ ∧ r.kind.price.map Decimal.asRead = _) ∨
      (r.kind.orderType.name = _ ∧ ∃ given ∈ price, ∃ asked ∈ r.kind.price.map Decimal.asRead, _)
    generalize r.kind = kind at hkind hpositive
    cases hkind with
    | market _ => exact Or.inl ⟨rfl, rfl⟩
    | @limit given _ hgiven =>
        refine Or.inr ⟨rfl, given, hgiven, given.asRead, rfl, toRat_asRead given, ?_⟩
        rw [toRat_asRead]
        exact hpositive given rfl
  size := (toRat_asRead _).trans (congrArg Decimal.toRat h.quantity)
  isPositive := by
    show 0 < r.quantity.asRead.toRat
    rw [toRat_asRead]
    exact h.isPositive
  clientId := rfl

end OrderTicket

/-! ## The order that is posted -/

/-- Submitting a request posts its body to the path of orders, and sends nothing else. -/
theorem posted {σ : Type} {c : Config} {wire : HttpWire σ} {steps : Nat} {s : σ}
    {request : OrderRequest} {r : HttpRequest}
    (hr : r ∈ (Errand.submit request).sent c wire steps s) :
    r.method = .post ∧ r.url = baseUrl c ++ "/api/orders" ∧
      r.body = some (orderBody request).compact := by
  rw [sent_of_one_call c wire steps s (.submit request) (by simp) (by simp)] at hr
  have hcarries := carries_of_mem_requests hr
  exact ⟨hcarries.method, hcarries.url, hcarries.body⟩

/-- It does so if the account has credentials that headers can hold. -/
theorem posted_once {σ : Type} {c : Config} {key secret : String}
    (hcredentials : c.credentials? = some (key, secret)) (hkey : isHeaderValue key = true)
    (hsubaccount : ∀ name ∈ c.subaccount, isHeaderValue name = true) (wire : HttpWire σ)
    (steps : Nat) (s : σ) (request : OrderRequest) :
    ∃ r, (Errand.submit request).sent c wire steps s = [r] := by
  rw [sent_of_one_call c wire steps s (.submit request) (by simp) (by simp)]
  exact requests_of_credentials hcredentials hkey hsubaccount _ rfl

/-- What is posted for the words of a command is read as the order that they mean, and it is posted
once by an account that can sign it. For words that mean no order there is nothing to post. -/
theorem posted_as_given (symbol side orderType : String) (price : Option Decimal) (size : Decimal)
    (id : String) :
    (∀ request, Cli.orderRequest symbol side orderType price size id = .ok request →
      ∀ {σ : Type} (c : Config) (wire : HttpWire σ) (steps : Nat) (s : σ),
        (∀ r ∈ (Errand.submit request).sent c wire steps s,
          r.method = .post ∧ r.url = baseUrl c ++ "/api/orders" ∧
            ∃ body t, r.body = some body ∧ OrderTicket.ofBody? body = some t ∧
              t.Fits symbol side orderType price size id) ∧
        ∀ key secret, c.credentials? = some (key, secret) → isHeaderValue key = true →
          (∀ name ∈ c.subaccount, isHeaderValue name = true) →
          ∃ r, (Errand.submit request).sent c wire steps s = [r]) ∧
    (normalizeSymbol symbol = "" ∨ ¬ 0 < size.toRat ∨
        (asciiLower (trim orderType) = "limit" ∧ ∀ given ∈ price, ¬ 0 < given.toRat) →
      ∀ request, Cli.orderRequest symbol side orderType price size id ≠ .ok request) := by
  refine ⟨fun request hmade σ c wire steps s => ⟨fun r hr => ?_, ?_⟩, Cli.orderRequest_ne_ok id⟩
  · obtain ⟨hmeans, rfl⟩ := (Cli.orderRequest_ok_iff ..).1 hmade
    obtain ⟨hmethod, hurl, hbody⟩ := posted hr
    exact ⟨hmethod, hurl, _, _, hbody, OrderTicket.ofBody?_compact request,
      OrderTicket.fits_ofRequest hmeans⟩
  · exact fun key secret hcredentials hkey hsubaccount =>
      posted_once hcredentials hkey hsubaccount wire steps s request

/-- A limit order of a quarter at fifty and a half, and a word too few for one. -/
theorem posted_as_given_limit :
    let price : Decimal := ⟨false, 505, 1, by decide, by decide⟩
    let size : Decimal := ⟨false, 25, 2, by decide, by decide⟩
    let request : OrderRequest := ⟨"BTC/USD", .buy, .limit price, size, "7"⟩
    let wire : HttpWire Unit :=
      ⟨fun _ s => (.error "nobody answers", s), fun _ => .epoch⟩
    let account := Config.default.withCredentials "key" "secret"
    Cli.orderRequest " btc/usd" "BUY " "Limit" (some price) size "7" = .ok request ∧
    (∃ r, (Errand.submit request).sent account wire 1 () = [r] ∧ r.method = .post ∧
      ∃ body t, r.body = some body ∧ OrderTicket.ofBody? body = some t ∧
        t.Fits " btc/usd" "BUY " "Limit" (some price) size "7") ∧
    ∀ made, Cli.orderRequest " btc/usd" "BUY " "Limit" none size "7" ≠ .ok made := by
  intro price size request wire account
  have hmade : Cli.orderRequest " btc/usd" "BUY " "Limit" (some price) size "7" = .ok request := by
    decide +kernel
  obtain ⟨hread, honce⟩ := (posted_as_given _ _ _ _ _ _).1 request hmade account wire 1 ()
  obtain ⟨r, hr⟩ := honce "key" "secret" rfl (by decide) nofun
  obtain ⟨hmethod, -, hbody⟩ := hread r (by rw [hr]; exact List.mem_singleton_self r)
  refine ⟨hmade, ⟨r, hr, hmethod, hbody⟩, ?_⟩
  exact (posted_as_given _ _ _ _ _ _).2 (Or.inr (Or.inr ⟨by decide +kernel, nofun⟩))

end Ftx

namespace Cli

/-- Nothing but a new id is asked of the world for words that mean no order. -/
theorem placeOrder_refused {σ : Type} (out : Outside σ) (steps : Nat) (config : UserConfig)
    {session symbol side orderType : String} {price : Option Decimal} {size : Decimal} (s : σ)
    (h : ∀ request, orderRequest symbol side orderType price size (out.newId s).1 ≠ .ok request) :
    ∃ cause, placeOrder out steps config session symbol side orderType price size s =
      (.error (.request cause), (out.newId s).2) := by
  unfold placeOrder
  rcases hid : out.newId s with ⟨id, s⟩
  rw [hid] at h
  cases hmade : orderRequest symbol side orderType price size id with
  | ok request => exact absurd hmade (h request)
  | error cause =>
      simp only [hmade]
      exact ⟨cause, rfl⟩

end Cli

end Tradebook
