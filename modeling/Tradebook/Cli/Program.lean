import Tradebook.Cli.Usage
import Tradebook.Config.Sessions
import Tradebook.Database
import Tradebook.Ftx.BookStream
import Tradebook.Ftx.Client
import Tradebook.OrderRequest.Codec
import Tradebook.Record.Description
import Tradebook.StartTime

/-!
# Carrying out a command

Every command begins with the settings. What a command was given is checked
before anything leaves the machine: the dates and the order first, then the
session, then its credentials. What the user is told comes back as lines.
-/

namespace Tradebook.Cli

/-- Why a command was not carried out. -/
inductive CommandError where
  | noConfig
  | config (cause : ConfigError)
  | unknownSession (session : String)
  | startTime (cause : StartTimeError)
  | request (cause : OrderRequestError)
  | noSymbol
  | exchange (cause : ExchangeError)
  | stream (cause : StreamError)
  | noDatabase
  | database (detail : String)
  | run (cause : RunError)
  deriving DecidableEq, Repr

/-- The wording of the error. -/
def CommandError.message : CommandError → String
  | noConfig => "--config is required"
  | config cause => cause.message
  | unknownSession session => "session " ++ session ++ " not found in config"
  | startTime cause => cause.message
  | request cause => cause.message
  | noSymbol => "--symbol is required"
  | exchange cause => cause.message
  | stream cause => cause.message
  | noDatabase => "no database configured: set DATABASE_URL, --database-url or database_url"
  | database _ => "failed to open the database"
  | run cause => cause.message

/-- What the program meets outside of itself. -/
structure Outside (σ : Type) where
  env : String → Option String
  file : String → FileContent
  /-- Where the clocks on the wall are. -/
  zone : Zone
  http : HttpWire σ
  stream : Ftx.StreamWire σ
  database : Database σ
  /-- A new id for an order. -/
  newId : σ → String × σ

/-- The settings at a path. -/
def loadConfig (file : String → FileContent) : Option String → Except CommandError UserConfig
  | none => .error .noConfig
  | some path => (UserConfig.ofFile path (file path)).mapError .config

/-- The entry of a session. -/
def entry (config : UserConfig) (session : String) : Except CommandError SessionEntry :=
  match config.session? session with
  | some e => .ok e
  | none => .error (.unknownSession session)

/-- The account behind a session. -/
def account (env : String → Option String) (config : UserConfig) (session : String) :
    Except CommandError Ftx.Config := do
  ((← entry config session).account env).mapError .config

/-- The orders of a symbol: those still on the book, then the closed ones. -/
def listOrders {σ : Type} (exchange : Exchange σ) (symbol : String) (status : Option Listing)
    (since : Timestamp) (limit : Nat) (s : σ) : Outcome CommandError (List Order) × σ :=
  let symbol := normalizeSymbol symbol
  if symbol = "" then (.error .noSymbol, s)
  else
    let active := if status = some .done then (.ok [], s) else exchange.openOrders symbol s
    match active with
    | (.ok active, s) =>
      let done :=
        if status = some .active then (.ok [], s) else exchange.closedOrders symbol since limit s
      ((done.1.mapError .exchange) >>= fun done => .ok (active ++ done), done.2)
    | (ended, s) => (ended.mapError .exchange, s)

/-- The stream of a session's order books. It is public where the settings say so, and where there
is nothing to log in with. -/
def bookStream (env : String → Option String) (e : SessionEntry) :
    Except CommandError Ftx.BookStream := do
  let stream := Ftx.BookStream.new (← (e.account env).mapError .config) .default
  let credentials ← (e.credentials env).mapError .config
  return if e.publicOnly || credentials.isNone then stream.setPublicOnly else stream

/-- Follows the order book of a market until the connection is gone or the signal to stop comes. -/
def followBook {σ : Type} (wire : Ftx.StreamWire σ) (steps : Nat) (stream : Ftx.BookStream)
    (symbol : String) (s : σ) : Outcome CommandError Unit × σ :=
  match stream.subscribe wire .book symbol ⟨none, none⟩ s with
  | (.error cause, _, s) => (.error (.stream cause), s)
  | (.ok (), stream, s) =>
    match stream.connect wire s with
    | (.error cause, _, s) => (.error (.stream cause), s)
    | (.ok (), stream, s) =>
      match stream.follow wire steps s with
      | (result, _, s) => (result.mapError .stream, s)

/-- The stream command. -/
def stream {σ : Type} (out : Outside σ) (steps : Nat) (config : UserConfig)
    (session symbol : String) (s : σ) : Outcome CommandError Unit × σ :=
  match (entry config session).bind (bookStream out.env) with
  | .error cause => (.error cause, s)
  | .ok stream => followBook out.stream steps stream symbol s

/-- Where a command that reads a history starts. -/
def start {σ : Type} (out : Outside σ) (since : Option String) (s : σ) :
    Outcome CommandError Timestamp :=
  (StartTime.resolve since (out.http.now s) out.zone).mapError .startTime

/-- The sync command. -/
def sync {σ : Type} (out : Outside σ) (steps : Nat) (config : UserConfig)
    (databaseUrl session symbol since : Option String) (s : σ) : Outcome CommandError Unit × σ :=
  let checked : Outcome CommandError (Timestamp × String) := do
    let start ← start out since s
    return (start, ← .ofOption .noDatabase (databaseUrl.or config.databaseUrl))
  match checked with
  | .ok (start, url) =>
    match out.database.connect url s with
    | (some detail, s) => (.error (.database detail), s)
    | (none, s) =>
      match config.accounts out.env with
      | .error cause => (.error (.config cause), s)
      | .ok accounts =>
        let exchange := fun position =>
          Ftx.exchange ((accounts.map Prod.snd).getD position .default) out.http steps
        match Run.run (out.database.accounts exchange Sync.defaultPageLimit steps)
          ⟨session, symbol, start⟩ (accounts.map Prod.fst) s with
        | (result, _, s) => (result.mapError .run, s)
  | .error cause => (.error cause, s)
  | .overflow => (.overflow, s)
  | .exhausted => (.exhausted, s)

/-- The command that lists orders. -/
def orderLines {σ : Type} (out : Outside σ) (steps : Nat) (config : UserConfig)
    (session symbol : String) (status : Option Listing) (since : Option String) (limit : Nat)
    (s : σ) : Outcome CommandError (List String) × σ :=
  let checked : Outcome CommandError (Timestamp × Ftx.Config) := do
    let start ← start out since s
    return (start, ← .ofExcept (account out.env config session))
  match checked with
  | .ok (start, account) =>
    match listOrders (Ftx.exchange account out.http steps) symbol status start limit s with
    | (orders, s) => (orders >>= fun orders => .ok (orders.map Order.describe), s)
  | .error cause => (.error cause, s)
  | .overflow => (.overflow, s)
  | .exhausted => (.exhausted, s)

/-- The request that a command to place an order makes. -/
def orderRequest (symbol side orderType : String) (price : Option Decimal) (size : Decimal)
    (id : String) : Except OrderRequestError OrderRequest := do
  let side ← Side.ofText side
  let kind ← OrderKind.ofText orderType price
  OrderRequest.make symbol side kind size id

/-- The command that places an order. -/
def placeOrder {σ : Type} (out : Outside σ) (steps : Nat) (config : UserConfig)
    (session symbol side orderType : String) (price : Option Decimal) (size : Decimal) (s : σ) :
    Outcome CommandError (List String) × σ :=
  let (id, s) := out.newId s
  let checked : Except CommandError (OrderRequest × Ftx.Config) := do
    let request ← (orderRequest symbol side orderType price size id).mapError .request
    return (request, ← account out.env config session)
  match checked with
  | .ok (request, account) =>
    match (Ftx.exchange account out.http steps).submit request s with
    | (placed, s) =>
      (placed.mapError .exchange >>= fun order => .ok ["Placed " ++ order.describe], s)
  | .error cause => (.error cause, s)

/-- The command that cancels an order. -/
def cancelOrder {σ : Type} (out : Outside σ) (steps : Nat) (config : UserConfig)
    (session : String) (orderId clientOrderId : Option String) (s : σ) :
    Outcome CommandError (List String) × σ :=
  let checked : Except CommandError (CancelRequest × Ftx.Config) := do
    let request ← (CancelRequest.ofIds orderId clientOrderId).mapError .request
    return (request, ← account out.env config session)
  match checked with
  | .ok (request, account) =>
    match (Ftx.exchange account out.http steps).cancel request s with
    | (cancelled, s) =>
      (cancelled.mapError .exchange >>= fun _ => .ok ["Cancel requested: " ++ request.display], s)
  | .error cause => (.error cause, s)

/-- Nothing to tell. -/
def silently {σ : Type} : Outcome CommandError Unit × σ → Outcome CommandError (List String) × σ
  | (result, s) => (result >>= fun _ => .ok [], s)

/-- Carries out what a command line asks for, and returns the lines to print. `steps` bounds the
loops that ask the world how to go on. -/
def run {σ : Type} (out : Outside σ) (steps : Nat) (invocation : Invocation) (s : σ) :
    Outcome CommandError (List String) × σ :=
  match loadConfig out.file invocation.config with
  | .error cause => (.error cause, s)
  | .ok config =>
    match invocation.command with
    | .sync session symbol since =>
      silently (sync out steps config invocation.databaseUrl session symbol since s)
    | .stream session symbol => silently (stream out steps config session symbol s)
    | .listOrders session symbol status since limit =>
      orderLines out steps config session symbol status since limit s
    | .placeOrder session symbol side orderType price size =>
      placeOrder out steps config session symbol side orderType price size s
    | .cancelOrder session orderId clientOrderId =>
      cancelOrder out steps config session orderId clientOrderId s

end Tradebook.Cli
