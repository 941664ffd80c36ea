import Tradebook.Discovery
import Tradebook.Session
import Tradebook.Sync

/-!
# A run over all sessions

One session after the other, one symbol after the other, fills before orders. A
session without a requested symbol is first asked for its balances and markets,
and every symbol worth copying is copied. The first failure ends the run; what
was copied stays copied. The signal to stop is looked for before a session is
asked and before each symbol.
-/

namespace Tradebook

/-- What to copy: all sessions or the one of a name, all symbols worth it or one. -/
structure RunRequest where
  session : Option String
  symbol : Option String
  start : Timestamp
  deriving DecidableEq, Repr

/-- Why a run ended early. -/
inductive RunError where
  | sessionNotFound (session : String)
  | init (session : String) (cause : ExchangeError)
  | sync (session symbol : String) (kind : RecordKind) (cause : SyncError)
  | cancelled
  deriving DecidableEq, Repr

/-- The wording of the error. -/
def RunError.message : RunError → String
  | sessionNotFound session => "session " ++ session ++ " not found"
  | init session cause => "failed to initialize session " ++ session ++ ": " ++ cause.message
  | sync session symbol kind cause =>
    "failed to sync " ++ kind.name ++ " for session " ++ session ++ " symbol " ++ symbol ++ ": " ++
      cause.message
  | cancelled => "sync cancelled"

/-- What a run asks for; `Nat` is the position of the session. -/
structure Accounts (σ : Type) where
  stopped : σ → Bool
  balances : Nat → σ → Outcome ExchangeError Balances × σ
  markets : Nat → σ → Outcome ExchangeError (List Market) × σ
  sync : RecordKind → Nat → String → Timestamp → σ → Outcome SyncError Unit × σ

namespace Run

/-- Asks a session for its balances and its markets. It keeps both or, if one of them fails, what
it had. -/
def init {σ : Type} (accounts : Accounts σ) (position : Nat) (session : Session) (s : σ) :
    Outcome ExchangeError Session × σ :=
  match accounts.balances position s with
  | (.ok balances, s) =>
    match accounts.markets position s with
    | (.ok markets, s) => (.ok { session with balances, markets }, s)
    | (.error cause, s) => (.error cause, s)
    | (.overflow, s) => (.overflow, s)
    | (.exhausted, s) => (.exhausted, s)
  | (.error cause, s) => (.error cause, s)
  | (.overflow, s) => (.overflow, s)
  | (.exhausted, s) => (.exhausted, s)

/-- Copies one history of a symbol. -/
def syncKind {σ : Type} (accounts : Accounts σ) (position : Nat) (session : Session)
    (symbol : String) (start : Timestamp) (kind : RecordKind) (s : σ) : Outcome RunError Unit × σ :=
  match accounts.sync kind position symbol start s with
  | (result, s) => (result.mapError (.sync session.name symbol kind), s)

/-- Copies both histories of one symbol. -/
def syncSymbol {σ : Type} (accounts : Accounts σ) (position : Nat) (session : Session)
    (start : Timestamp) (requested : String) (s : σ) : Outcome RunError Unit × σ :=
  if accounts.stopped s then (.error .cancelled, s)
  else
    let symbol := session.effectiveSymbol requested
    match syncKind accounts position session symbol start .trades s with
    | (.ok (), s) => syncKind accounts position session symbol start .orders s
    | ended => ended

/-- Copies the histories of some symbols in turn. -/
def syncSymbols {σ : Type} (accounts : Accounts σ) (position : Nat) (session : Session)
    (start : Timestamp) : List String → σ → Outcome RunError Unit × σ
  | [], s => (.ok (), s)
  | symbol :: symbols, s =>
    match syncSymbol accounts position session start symbol s with
    | (.ok (), s) => syncSymbols accounts position session start symbols s
    | ended => ended

/-- Asks a session what it holds and finds the symbols worth copying. -/
def discover {σ : Type} (accounts : Accounts σ) (position : Nat) (session : Session) (s : σ) :
    Outcome RunError (List String) × Session × σ :=
  if accounts.stopped s then (.error .cancelled, session, s)
  else
    match init accounts position session s with
    | (.ok session, s) =>
      (.ofChecked (Discovery.symbols? session.balances session.markets), session, s)
    | (.error cause, s) => (.error (.init session.name cause), session, s)
    | (.overflow, s) => (.overflow, session, s)
    | (.exhausted, s) => (.exhausted, session, s)

/-- Copies what was asked for of one session. -/
def syncSession {σ : Type} (accounts : Accounts σ) (request : RunRequest) (position : Nat)
    (session : Session) (s : σ) : Outcome RunError Unit × Session × σ :=
  match request.symbol with
  | some symbol =>
    match syncSymbols accounts position session request.start [symbol] s with
    | (result, s) => (result, session, s)
  | none =>
    match discover accounts position session s with
    | (.ok symbols, session, s) =>
      match syncSymbols accounts position session request.start symbols s with
      | (result, s) => (result, session, s)
    | (.error cause, session, s) => (.error cause, session, s)
    | (.overflow, session, s) => (.overflow, session, s)
    | (.exhausted, session, s) => (.exhausted, session, s)

/-- Copies what was asked for of the targeted sessions in turn; `position` is that of the first
session of the list. -/
def syncSessions {σ : Type} (accounts : Accounts σ) (request : RunRequest) :
    Nat → List (Bool × Session) → σ → Outcome RunError Unit × List Session × σ
  | _, [], s => (.ok (), [], s)
  | position, (targeted, session) :: sessions, s =>
    if targeted then
      match syncSession accounts request position session s with
      | (.ok (), session, s) =>
        match syncSessions accounts request (position + 1) sessions s with
        | (result, rest, s) => (result, session :: rest, s)
      | (ended, session, s) => (ended, session :: sessions.map Prod.snd, s)
    else
      match syncSessions accounts request (position + 1) sessions s with
      | (result, rest, s) => (result, session :: rest, s)

/-- Marks the first session of a name. -/
def targetFirst (name : String) : List Session → Option (List (Bool × Session))
  | [] => none
  | session :: sessions =>
    if session.name = name then some ((true, session) :: sessions.map (false, ·))
    else (targetFirst name sessions).map ((false, session) :: ·)

/-- The run: its end, and the sessions with what was found out about them. -/
def run {σ : Type} (accounts : Accounts σ) (request : RunRequest) (sessions : List Session)
    (s : σ) : Outcome RunError Unit × List Session × σ :=
  match request.session with
  | none => syncSessions accounts request 0 (sessions.map (true, ·)) s
  | some name =>
    match targetFirst name sessions with
    | some targets => syncSessions accounts request 0 targets s
    | none => (.error (.sessionNotFound name), sessions, s)

end Run

end Tradebook
