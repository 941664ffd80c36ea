import Tradebook.Text.Blank
import Tradebook.Text.Quoted
import Tradebook.Toml.Parser

/-!
# The user's settings

A file that names the sessions: for each the exchange, the credentials or the
environment variables that hold them, and how it is used. A file is accepted only
if its sessions have different names and every isolated margin session has a
symbol.
-/

namespace Tradebook

open Tradebook.Text

/-- The exchanges that a session can be at. -/
inductive ExchangeKind where
  | ftx
  deriving DecidableEq, Repr

/-- The settings of one session. -/
structure SessionEntry where
  name : String
  exchange : ExchangeKind
  key : Option String
  secret : Option String
  /-- The environment variable that holds the key. -/
  keyEnv : Option String
  secretEnv : Option String
  subaccount : Option String
  restUrl : Option String
  streamUrl : Option String
  isolatedMargin : Bool
  isolatedMarginSymbol : Option String
  /-- Whether streams of this session never log in. -/
  publicOnly : Bool
  deriving DecidableEq, Repr

/-- The settings of all sessions. -/
structure UserConfig where
  databaseUrl : Option String
  sessions : List SessionEntry
  deriving DecidableEq, Repr

/-- A key with its secret. -/
structure Credentials where
  key : String
  secret : String
  deriving DecidableEq, Repr

/-- The credentials as they are shown, which is without the secret. -/
def Credentials.display (c : Credentials) : String :=
  "Credentials \x7b key: " ++ quoted c.key ++ ", secret: \"<redacted>\" \x7d"

/-- What is wrong with the settings. -/
inductive ConfigError where
  | notFound (path : String)
  | unreadable (path detail : String)
  /-- The text is no settings file, or a setting has a wrong kind of value. -/
  | malformed
  | duplicateSession (session : String)
  | missingIsolatedSymbol (session : String)
  | missingEnv (session envVar : String)
  | partialCredentials (session : String)
  deriving DecidableEq, Repr

/-- The wording of the error. -/
def ConfigError.message : ConfigError → String
  | notFound path => "config file " ++ path ++ " does not exist"
  | unreadable path detail => "failed to read " ++ path ++ ": " ++ detail
  | malformed => "failed to parse config"
  | duplicateSession session => "duplicate session name " ++ session
  | missingIsolatedSymbol session =>
    "session " ++ session ++ " is isolated margin but has no isolated_margin_symbol"
  | missingEnv session envVar =>
    "session " ++ session ++ ": environment variable " ++ envVar ++ " is not set"
  | partialCredentials session =>
    "session " ++ session ++ ": key and secret must be configured together"

namespace Setting

/-- A text. -/
def asText? : Toml → Option String
  | .string s => some s
  | _ => none

/-- A truth value. -/
def asBool? : Toml → Option Bool
  | .bool b => some b
  | _ => none

/-- A setting that may be missing. -/
def optional {α : Type} (decode : Toml → Option α) : Option Toml → Option (Option α)
  | none => some none
  | some v => (decode v).map some

/-- A setting that counts as off where it is missing. -/
def switch : Option Toml → Option Bool
  | none => some false
  | some v => asBool? v

/-- Whether a value is a table or an array without content. -/
def isEmpty : Toml → Bool
  | .array [] => true
  | .table _ [] => true
  | .tables [] => true
  | _ => false

/-- An exchange, by its name alone or as the name of an empty table. -/
def asExchange? : Toml → Option ExchangeKind
  | .string "ftx" => some .ftx
  | .table _ [("ftx", v)] => if isEmpty v then some .ftx else none
  | _ => none

/-- A list of values, whichever way it is written. -/
def asList? : Toml → Option (List Toml)
  | .array items => some items
  | .tables items => some (items.map (.table .written))
  | _ => none

end Setting

namespace SessionEntry

open Setting

/-- The names of the settings, in their order. -/
def settings : List String :=
  ["name", "exchange", "key", "secret", "key_env", "secret_env", "subaccount", "rest_url",
    "stream_url", "isolated_margin", "isolated_margin_symbol", "public_only"]

/-- The settings in their order: those of a table, unknown ones aside, or those of an array, of
which only the last may be missing. -/
def values? : Toml → Option (List (Option Toml))
  | .table _ entries => some (settings.map fun name => entries.lookup name)
  | .array items =>
    if 11 ≤ items.length then some ((List.range 12).map fun i => items[i]?) else none
  | _ => none

/-- Reads the settings of one session. -/
def ofToml? (v : Toml) : Option SessionEntry := do
  match ← values? v with
  | [name, exchange, key, secret, keyEnv, secretEnv, subaccount, restUrl, streamUrl, isolatedMargin,
      isolatedMarginSymbol, publicOnly] =>
    return {
      name := ← name.bind asText?
      exchange := ← exchange.bind asExchange?
      key := ← optional asText? key
      secret := ← optional asText? secret
      keyEnv := ← optional asText? keyEnv
      secretEnv := ← optional asText? secretEnv
      subaccount := ← optional asText? subaccount
      restUrl := ← optional asText? restUrl
      streamUrl := ← optional asText? streamUrl
      isolatedMargin := ← switch isolatedMargin
      isolatedMarginSymbol := ← optional asText? isolatedMarginSymbol
      publicOnly := ← switch publicOnly }
  | _ => none

/-- Whether the entry has a symbol that is not blank. -/
def hasSymbol (e : SessionEntry) : Bool :=
  e.isolatedMarginSymbol.any fun s => trim s ≠ ""

/-- A credential: the one in the file, or else the one in the environment. -/
def resolve (e : SessionEntry) (env : String → Option String) (value envVar : Option String) :
    Except ConfigError (Option String) :=
  match value, envVar with
  | some value, _ => .ok (some value)
  | none, none => .ok none
  | none, some envVar =>
    match env envVar with
    | some value => .ok (some value)
    | none => .error (.missingEnv e.name envVar)

/-- The credentials, if the session has any. It has a key and a secret or neither. -/
def credentials (e : SessionEntry) (env : String → Option String) :
    Except ConfigError (Option Credentials) := do
  let key ← e.resolve env e.key e.keyEnv
  let secret ← e.resolve env e.secret e.secretEnv
  match key, secret with
  | some key, some secret => return some ⟨key, secret⟩
  | none, none => return none
  | _, _ => throw (.partialCredentials e.name)

end SessionEntry

namespace UserConfig

open Setting

/-- Checks entries in their order; `seen` holds the names before. -/
def check (seen : List String) : List SessionEntry → Except ConfigError Unit
  | [] => .ok ()
  | e :: entries =>
    if seen.contains e.name then .error (.duplicateSession e.name)
    else if e.isolatedMargin && !e.hasSymbol then .error (.missingIsolatedSymbol e.name)
    else check (e.name :: seen) entries

/-- Reads settings without checking them. -/
def ofEntries? (entries : Toml.Entries) : Option UserConfig := do
  let databaseUrl ← optional asText? (entries.lookup "database_url")
  let sessions ← match entries.lookup "sessions" with
    | none => some []
    | some v => (asList? v).bind (·.mapM SessionEntry.ofToml?)
  return ⟨databaseUrl, sessions⟩

/-- Reads and checks the settings of a file. -/
def ofText (s : String) : Except ConfigError UserConfig :=
  match (Toml.parse? s).bind ofEntries? with
  | none => .error .malformed
  | some config =>
    match check [] config.sessions with
    | .ok () => .ok config
    | .error cause => .error cause

/-- The entry of a name. -/
def session? (c : UserConfig) (name : String) : Option SessionEntry :=
  c.sessions.find? (·.name = name)

end UserConfig

/-- The environment variables that the settings refer to. -/
def UserConfig.variables (c : UserConfig) : List String :=
  c.sessions.flatMap fun e => e.keyEnv.toList ++ e.secretEnv.toList

/-- What comes of reading a file. -/
inductive FileContent where
  | missing
  | unreadable (detail : String)
  | text (content : String)
  deriving DecidableEq, Repr

/-- The settings in a file. -/
def UserConfig.ofFile (path : String) : FileContent → Except ConfigError UserConfig
  | .missing => .error (.notFound path)
  | .unreadable detail => .error (.unreadable path detail)
  | .text content => ofText content

end Tradebook
