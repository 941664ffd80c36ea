import Tradebook.Crypto.Hmac
import Tradebook.Text.Digits

/-!
# What FTX wants signed

A private request is signed together with the millisecond it is made in, and so
is a login, under words that no request contains.
-/

namespace Tradebook.Ftx

open Tradebook.Text

/-- The text to sign for a request. -/
def requestPayload (milliseconds : Int) (method path body : String) : String :=
  intText milliseconds ++ method ++ path ++ body

/-- The text to sign for a login. -/
def loginPayload (milliseconds : Int) : String :=
  intText milliseconds ++ "websocket_login"

end Tradebook.Ftx
