import Tradebook.Account.Codec

/-!
# Settings of an FTX account

Where the exchange is reached, on whose behalf, and how eagerly. The secret never
leaves: the settings are written without it.
-/

namespace Tradebook.Ftx

/-- The name under which records of this exchange are stored. -/
def exchangeName : String :=
  "ftx"

/-- The settings of one account. -/
structure Config where
  restUrl : String
  wsUrl : String
  apiKey : Option String
  apiSecret : Option String
  subaccount : Option String
  /-- Seconds between two signs of life on a stream. -/
  pingIntervalSecs : Nat
  /-- Rows asked for in one page of a history. -/
  historyPageSize : Nat
  deriving DecidableEq, Repr

namespace Config

open Json

/-- The settings of an account nothing is known about. -/
def default : Config where
  restUrl := "https://ftx.com"
  wsUrl := "wss://ftx.com/ws/"
  apiKey := none
  apiSecret := none
  subaccount := none
  pingIntervalSecs := 15
  historyPageSize := 200

/-- The same settings with a key and its secret. -/
def withCredentials (c : Config) (key secret : String) : Config :=
  { c with apiKey := some key, apiSecret := some secret }

/-- The key and its secret, if both are known. -/
def credentials? (c : Config) : Option (String × String) :=
  match c.apiKey, c.apiSecret with
  | some key, some secret => some (key, secret)
  | _, _ => none

/-- The settings as they are shown, which is without the secret. -/
def toJson (c : Config) : Json :=
  record [("rest_url", text c.restUrl), ("ws_url", text c.wsUrl),
    ("api_key", nullable text c.apiKey), ("subaccount", nullable text c.subaccount),
    ("ping_interval_secs", natural c.pingIntervalSecs),
    ("history_page_size", natural c.historyPageSize)]

def ofJson? (v : Json) : Option Config := do
  match ← v.fields? ["rest_url", "ws_url", "api_key", "api_secret", "subaccount",
    "ping_interval_secs", "history_page_size"] with
  | [restUrl, wsUrl, apiKey, apiSecret, subaccount, pingIntervalSecs, historyPageSize] =>
    return {
      restUrl := ← required asText? restUrl
      wsUrl := ← required asText? wsUrl
      apiKey := ← optional asText? apiKey
      apiSecret := ← optional asText? apiSecret
      subaccount := ← optional asText? subaccount
      pingIntervalSecs := ← required (asNatural? JsonNumber.wordBound) pingIntervalSecs
      historyPageSize := ← required (asNatural? JsonNumber.wordBound) historyPageSize }
  | _ => none

end Config

end Tradebook.Ftx
