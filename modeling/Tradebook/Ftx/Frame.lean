import Tradebook.Ftx.Config
import Tradebook.Subscription.Codec

/-!
# Frames sent on an FTX stream

A client logs in, subscribes to order books and gives signs of life. FTX offers
no other channel than the book.
-/

namespace Tradebook.Ftx

open Json

/-- A signed login. -/
structure Login where
  key : String
  sign : String
  time : Int
  subaccount : Option String
  deriving DecidableEq, Repr

/-- What a client sends. -/
inductive Frame where
  | login (login : Login)
  | subscribe (market : String)
  | unsubscribe (market : String)
  | ping
  deriving DecidableEq, Repr

namespace Frame

/-- Whether the frame is a login. -/
def isLogin : Frame → Bool
  | login _ => true
  | _ => false

/-- The arguments of a login. A client without a subaccount does not mention one. -/
def loginArgs (l : Login) : Json :=
  record ([("key", text l.key), ("sign", text l.sign), ("time", integer l.time)] ++
    match l.subaccount with
    | some name => [("subaccount", text name)]
    | none => [])

/-- A frame that changes what is subscribed. -/
def bookFrame (operation : Operation) (market : String) : Json :=
  record [("op", text operation.name), ("channel", text "orderbook"), ("market", text market)]

def toJson : Frame → Json
  | login l => record [("op", text "login"), ("args", loginArgs l)]
  | subscribe market => bookFrame .subscribe market
  | unsubscribe market => bookFrame .unsubscribe market
  | ping => record [("op", text "ping")]

/-- The frame for a change to what is subscribed, if FTX offers the channel; else the channel. -/
def ofRequest (r : SubscriptionRequest) : Except Channel Frame :=
  match r.channel, r.operation with
  | .book, .subscribe => .ok (subscribe r.market)
  | .book, .unsubscribe => .ok (unsubscribe r.market)
  | other, _ => .error other

end Frame

end Tradebook.Ftx
