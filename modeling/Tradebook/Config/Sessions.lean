import Tradebook.Config
import Tradebook.Ftx.Config
import Tradebook.Session

/-!
# The sessions that the settings describe

Every entry of the settings is one session, in the same order, with the account
behind it. A session is held to the pair of its entry only if the entry is of an
isolated margin account.
-/

namespace Tradebook

namespace SessionEntry

/-- The account of an entry: that of an account nothing is known about, but for what the entry
says. -/
def account (e : SessionEntry) (env : String → Option String) : Except ConfigError Ftx.Config := do
  let usual := Ftx.Config.default
  let config := { usual with
    restUrl := e.restUrl.getD usual.restUrl
    wsUrl := e.streamUrl.getD usual.wsUrl }
  let config := match ← e.credentials env with
    | some credentials => config.withCredentials credentials.key credentials.secret
    | none => config
  return { config with subaccount := e.subaccount }

/-- The session of an entry. -/
def session (e : SessionEntry) : Session :=
  match e.isolatedMargin, e.isolatedMarginSymbol with
  | true, some symbol => (Session.new e.name).withIsolatedMargin symbol
  | _, _ => .new e.name

end SessionEntry

/-- All sessions with their accounts, unless one of them lacks credentials it should have. -/
def UserConfig.accounts (c : UserConfig) (env : String → Option String) :
    Except ConfigError (List (Session × Ftx.Config)) :=
  c.sessions.mapM fun e => do return (e.session, ← e.account env)

end Tradebook
