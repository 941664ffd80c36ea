import Tradebook.Ftx.Row
import Tradebook.Ftx.Signature
import Tradebook.Ftx.Walk
import Tradebook.Http
import Tradebook.Json.Parser
import Tradebook.Json.Printer

/-!
# An FTX account over the net

Every request is one exchange with the server and its answer one frame around a
result. A private request carries the key, the millisecond it was made in and a
signature over that, the method, the path and the body.
-/

namespace Tradebook.Ftx

open Tradebook.Text

/-- An instant as FTX takes it: seconds with six decimals. -/
def timeParameter (t : Timestamp) : String :=
  intText t.seconds ++ "." ++ .ofList (padZeros 6 (decimalDigits (t.nanos / 1000)))

/-- The path of a page of a history. -/
def historyPath (endpoint symbol : String) (start upper : Timestamp) (size : Nat) : String :=
  endpoint ++ "?market=" ++ symbol ++ "&start_time=" ++ timeParameter start ++ "&end_time=" ++
    timeParameter upper ++ "&limit=" ++ natText size

/-- The path of an order that is to be cancelled. -/
def cancelPath : CancelRequest → String
  | .byOrderId id => "/api/orders/" ++ id
  | .byClientOrderId id => "/api/orders/by_client_id/" ++ id

/-- A request before it is addressed and signed. -/
structure Call where
  method : HttpMethod
  path : String
  body : Option String
  isPrivate : Bool
  deriving DecidableEq, Repr

/-- The headers that sign a private request. -/
def signedHeaders (c : Config) (key secret : String) (milliseconds : Int) (call : Call) :
    List (String × String) :=
  let payload :=
    requestPayload milliseconds call.method.name call.path (call.body.getD "")
  [("FTX-KEY", key), ("FTX-SIGN", Crypto.sign secret payload), ("FTX-TS", intText milliseconds)] ++
    match c.subaccount with
    | some name => [("FTX-SUBACCOUNT", name)]
    | none => []

/-- The address of the exchange without slashes at the end. -/
def baseUrl (c : Config) : String :=
  .ofList (c.restUrl.toList.reverse.dropWhile (· == '/')).reverse

/-- A call as it is sent at `now`, if the account has the credentials for it. -/
def request (c : Config) (now : Timestamp) (call : Call) : Outcome ExchangeError HttpRequest :=
  let content := match call.body with
    | some _ => [("content-type", "application/json")]
    | none => []
  let send := fun headers => Outcome.ok ⟨call.method, baseUrl c ++ call.path, headers ++ content,
    call.body⟩
  if call.isPrivate then
    match c.credentials? with
    | some (key, secret) => send (signedHeaders c key secret now.milliseconds call)
    | none => .error (.unauthenticated "API key and secret are not configured")
  else send []

/-- Why a request was refused, by the answer to it. -/
def refusal (status : Nat) (detail : String) : ExchangeError :=
  if status = 401 then .unauthenticated detail
  else if Text.contains "not found".toList (asciiLower detail).toList then .orderNotFound detail
  else .rejected detail

/-- What an answer says; its result is read by `decode`. -/
def readAnswer {α : Type} (decode : Json → Option α) (a : HttpAnswer) : Outcome ExchangeError α :=
  let body := a.text
  match (Json.parse body).bind (Reply.ofJson? decode) with
  | none =>
    if a.isSuccess then .error (.malformed body)
    else .error (.requestFailed ("HTTP " ++ statusText a.status ++ ": " ++ body))
  | some reply =>
    if !reply.success || !a.isSuccess then
      .error (refusal a.status (reply.error.getD ("HTTP " ++ statusText a.status)))
    else
      match reply.result with
      | some result => .ok result
      | none => .error (.unexpected ("missing result: " ++ body))

/-- Makes a call and reads the answer. -/
def perform {σ α : Type} (c : Config) (wire : HttpWire σ) (decode : Json → Option α) (call : Call)
    (s : σ) : Outcome ExchangeError α × σ :=
  match request c (wire.now s) call with
  | .ok request =>
    if request.headers.all (isHeaderValue ·.2) then
      match wire.send request s with
      | (.ok answer, s) => (readAnswer decode answer, s)
      | (.error detail, s) => (.error (.unreachable detail), s)
    else (.error (.unreachable "invalid header value"), s)
  | .error cause => (.error cause, s)
  | .overflow => (.overflow, s)
  | .exhausted => (.exhausted, s)

/-- A private call without a body. -/
def privateCall (method : HttpMethod) (path : String) : Call :=
  ⟨method, path, none, true⟩

/-- Asks for pages of a history. -/
def askHistory {σ ρ : Type} (c : Config) (wire : HttpWire σ) (decode : Json → Option ρ)
    (endpoint symbol : String) : Ask σ ρ := fun start upper size s =>
  perform c wire (rows? decode) (privateCall .get (historyPath endpoint symbol start upper size)) s

/-- A fill as a walk sees it. -/
def fillView : RowView FillRow :=
  ⟨FillRow.id, FillRow.time⟩

/-- An order as a walk sees it. -/
def orderView : RowView OrderRow :=
  ⟨OrderRow.id, OrderRow.createdAt⟩

/-- The rows of a history, oldest first. -/
def history {σ ρ : Type} (c : Config) (wire : HttpWire σ) (steps : Nat) (view : RowView ρ)
    (decode : Json → Option ρ) (endpoint : String) (keep : ρ → Bool) (symbol : String)
    (since : Timestamp) (limit : Nat) (s : σ) : Outcome ExchangeError (List ρ) × σ :=
  Walk.since view keep (askHistory c wire decode endpoint symbol) endpoint c.historyPageSize limit
    steps (wire.now s) since s

/-- What the first part of a result means, unless it is an error. -/
def thenRead {σ α β : Type} (read : α → Outcome ExchangeError β) :
    Outcome ExchangeError α × σ → Outcome ExchangeError β × σ
  | (result, s) => (result >>= read, s)

/-- The account that the settings describe. `steps` bounds the windows of a history and the pages
of each. -/
def exchange {σ : Type} (c : Config) (wire : HttpWire σ) (steps : Nat) : Exchange σ where
  name := exchangeName
  balances s :=
    thenRead (fun rows => .ofChecked ((rows.mapM BalanceRow.toBalance?).map Balances.ofList))
      (perform c wire (rows? BalanceRow.ofJson?) (privateCall .get "/api/wallet/balances") s)
  markets s :=
    thenRead (fun rows => .ok (rows.filterMap MarketRow.toMarket?))
      (perform c wire (rows? MarketRow.ofJson?) ⟨.get, "/api/markets", none, false⟩ s)
  trades symbol since limit s :=
    thenRead (fun rows => rows.mapM (FillRow.toTrade exchangeName symbol))
      (history c wire steps fillView FillRow.ofJson? "/api/fills" (fun _ => true) symbol since
        limit s)
  closedOrders symbol since limit s :=
    thenRead (fun rows => rows.mapM (OrderRow.toOrder exchangeName))
      (history c wire steps orderView OrderRow.ofJson? "/api/orders/history" OrderRow.isClosed
        symbol since limit s)
  openOrders symbol s :=
    thenRead (fun rows =>
        (rows.mergeSort (Walk.inOrder orderView)).mapM (OrderRow.toOrder exchangeName))
      (perform c wire (rows? OrderRow.ofJson?) (privateCall .get ("/api/orders?market=" ++ symbol))
        s)
  submit order s :=
    thenRead (OrderRow.toOrder exchangeName)
      (perform c wire OrderRow.ofJson?
        ⟨.post, "/api/orders", some (orderBody order).compact, true⟩ s)
  cancel order s :=
    thenRead (fun _ => .ok ())
      (perform c wire anyResult? (privateCall .delete (cancelPath order)) s)

end Tradebook.Ftx
