import Tradebook.Record.Codec
import Tradebook.Subscription

/-!
# Subscriptions and stream events as JSON
-/

namespace Tradebook

open Json

namespace Channel

def toJson (c : Channel) : Json :=
  text c.name

def ofJson? (v : Json) : Option Channel :=
  caseOfName? name [book, trade, bookTicker] v

end Channel

namespace Operation

def toJson (o : Operation) : Json :=
  text o.name

def ofJson? (v : Json) : Option Operation :=
  caseOfName? name [subscribe, unsubscribe] v

end Operation

namespace SubscribeOptions

def toJson (o : SubscribeOptions) : Json :=
  record [("depth", nullable (fun n => natural n.toNat) o.depth),
    ("interval", nullable text o.interval)]

def ofJson? (v : Json) : Option SubscribeOptions := do
  match ← v.fields? ["depth", "interval"] with
  | [depth, interval] =>
    return {
      depth := (← optional (asNatural? UInt32.size) depth).map UInt32.ofNat
      interval := ← optional asText? interval }
  | _ => none

end SubscribeOptions

namespace SubscriptionRequest

def toJson (r : SubscriptionRequest) : Json :=
  record [("operation", r.operation.toJson), ("channel", r.channel.toJson),
    ("market", text r.market)]

def ofJson? (v : Json) : Option SubscriptionRequest := do
  match ← v.fields? ["operation", "channel", "market"] with
  | [operation, channel, market] =>
    return {
      operation := ← required Operation.ofJson? operation
      channel := ← required Channel.ofJson? channel
      market := ← required asText? market }
  | _ => none

end SubscriptionRequest

namespace StreamState

def toJson (s : StreamState) : Json :=
  text s.name

def ofJson? (v : Json) : Option StreamState :=
  caseOfName? name [disconnected, connecting, connected, failed, closed] v

end StreamState

namespace StreamEvent

def toJson : StreamEvent → Json
  | connected exchange => record [("Connected", record [("exchange", text exchange)])]
  | disconnected exchange reason =>
    record [("Disconnected", record [("exchange", text exchange), ("reason", text reason)])]
  | message exchange payload =>
    record [("Message", record [("exchange", text exchange), ("payload", text payload)])]

/-- The two texts of an event that has two. -/
def texts? (second : String) (content : Json) : Option (String × String) :=
  match content.fields? ["exchange", second] with
  | some [exchange, other] => do
    return (← required asText? exchange, ← required asText? other)
  | _ => none

def ofJson? (v : Json) : Option StreamEvent := do
  let (name, content) ← asCase? v
  if name = "Connected" then
    match content.fields? ["exchange"] with
    | some [exchange] => (required asText? exchange).map connected
    | _ => none
  else if name = "Disconnected" then
    (texts? "reason" content).map fun (exchange, reason) => disconnected exchange reason
  else if name = "Message" then
    (texts? "payload" content).map fun (exchange, payload) => message exchange payload
  else none

end StreamEvent

end Tradebook
