import Tradebook.Symbol

/-!
# Streams of market data

What can be subscribed to, how a stream comes along, why it fails, and what it
reports.
-/

namespace Tradebook

/-- The channels that exchanges know; one exchange may offer fewer. -/
inductive Channel where
  | book
  | trade
  | bookTicker
  deriving DecidableEq, Repr

/-- The word for a channel. -/
def Channel.name : Channel → String
  | book => "book"
  | trade => "trade"
  | bookTicker => "book_ticker"

/-- Whether a subscription begins or ends. -/
inductive Operation where
  | subscribe
  | unsubscribe
  deriving DecidableEq, Repr

/-- The word for an operation. -/
def Operation.name : Operation → String
  | subscribe => "subscribe"
  | unsubscribe => "unsubscribe"

/-- Wishes about a subscription, which an exchange may pass over. -/
structure SubscribeOptions where
  depth : Option UInt32
  interval : Option String
  deriving DecidableEq, Repr

/-- A change to what is subscribed. -/
structure SubscriptionRequest where
  operation : Operation
  channel : Channel
  market : String
  deriving DecidableEq, Repr

/-- The change for a symbol as it was typed. -/
def SubscriptionRequest.ofSymbol (operation : Operation) (channel : Channel) (symbol : String) :
    SubscriptionRequest :=
  ⟨operation, channel, normalizeSymbol symbol⟩

/-- How the connection of a stream stands. -/
inductive StreamState where
  | disconnected
  | connecting
  | connected
  | failed
  | closed
  deriving DecidableEq, Repr

/-- The word for a state. -/
def StreamState.name : StreamState → String
  | disconnected => "disconnected"
  | connecting => "connecting"
  | connected => "connected"
  | failed => "failed"
  | closed => "closed"

/-- The word for a state in an error. -/
def StreamState.title : StreamState → String
  | disconnected => "Disconnected"
  | connecting => "Connecting"
  | connected => "Connected"
  | failed => "Failed"
  | closed => "Closed"

/-- Why a stream did not do what it was asked. -/
inductive StreamError where
  | connectionFailed (detail : String)
  | sendFailed (detail : String)
  | unsupportedChannel (channel : Channel)
  /-- In this state there is nothing to connect. -/
  | invalidState (state : StreamState)
  | missingCredentials
  | cancelled
  deriving DecidableEq, Repr

/-- The wording of the error. -/
def StreamError.message : StreamError → String
  | connectionFailed detail => "Connection failed: " ++ detail
  | sendFailed detail => "Send failed: " ++ detail
  | unsupportedChannel channel => "Unsupported channel: " ++ channel.name
  | invalidState state => "Stream is already " ++ state.title
  | missingCredentials => "API key and secret are required unless the stream is public-only"
  | cancelled => "Connect cancelled"

/-- What a stream reports to its subscribers. -/
inductive StreamEvent where
  | connected (exchange : String)
  | disconnected (exchange reason : String)
  | message (exchange payload : String)
  deriving DecidableEq, Repr

end Tradebook
