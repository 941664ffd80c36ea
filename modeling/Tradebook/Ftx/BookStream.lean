import Tradebook.Broadcast
import Tradebook.Ftx.Frame
import Tradebook.Ftx.Signature
import Tradebook.Outcome
import Tradebook.Text.Utf8

/-!
# The stream of an account's order books

What is subscribed is kept in a queue and said again on every connection, after
a login that is signed anew each time. A stream that was made public before its
first connection never logs in.

Everything that comes in is handed on as it is, and so is the news that the
connection stands or is gone. When the other end is gone the stream can be
connected again; once closed it stays closed.
-/

namespace Tradebook.Ftx

/-- What goes out on a connection. -/
inductive Outgoing where
  | frame (frame : Frame)
  | pong (payload : List UInt8)
  | close
  deriving DecidableEq, Repr

/-- What comes in on a connection. -/
inductive Incoming where
  | text (payload : String)
  | binary (payload : List UInt8)
  | ping (payload : List UInt8)
  | pong
  /-- The other end says goodbye, and perhaps why. -/
  | close (reason : Option String)
  /-- Reading failed. -/
  | broken (detail : String)
  /-- There is nothing more to read. -/
  | ended
  deriving DecidableEq, Repr

/-- What happens next on a connection. -/
inductive Arrival where
  | incoming (incoming : Incoming)
  /-- It is time for a sign of life. -/
  | due
  /-- The signal to stop came. -/
  | stop
  deriving DecidableEq, Repr

/-- The way to the other end of a stream. A dial or a message that fails comes with the reason. -/
structure StreamWire (σ : Type) where
  dial : String → σ → Option String × σ
  send : Outgoing → σ → Option String × σ
  next : σ → Arrival × σ
  stopped : σ → Bool
  now : σ → Timestamp

/-- The connection of a stream, with the frames that were sent on it, the first one first. -/
inductive Link where
  | absent
  /-- Both ends are there. -/
  | live (sent : List Frame)
  /-- The other end is gone, and this one was not given up yet. -/
  | stale (sent : List Frame)
  deriving DecidableEq, Repr

/-- Whether there is a connection, be the other end there or not. -/
def Link.isHeld : Link → Bool
  | .absent => false
  | .live _ => true
  | .stale _ => true

/-- A stream. -/
structure BookStream where
  config : Config
  publicOnly : Bool
  /-- Whether it was ever to be connected. -/
  attempted : Bool
  state : StreamState
  /-- What is sent on every connection, in this order. -/
  queue : List Frame
  link : Link
  sink : Broadcast
  deriving Repr

namespace BookStream

/-- A stream that reports to a sink. -/
def new (config : Config) (sink : Broadcast) : BookStream :=
  ⟨config, false, false, .disconnected, [], .absent, sink⟩

/-- Seconds between two signs of life, which cannot be none. -/
def keepaliveSecs (b : BookStream) : Nat :=
  max 1 b.config.pingIntervalSecs

/-- Makes the stream public, unless it was to be connected before. -/
def setPublicOnly (b : BookStream) : BookStream :=
  if b.attempted then b else { b with publicOnly := true }

/-- Reports an event. -/
def emit (b : BookStream) (event : StreamEvent) : BookStream :=
  { b with sink := b.sink.emit event }

/-- A login signed at an instant. -/
def signedLogin (c : Config) (key secret : String) (now : Timestamp) : Frame :=
  .login ⟨key, Crypto.sign secret (loginPayload now.milliseconds), now.milliseconds, c.subaccount⟩

/-- The queue for a connection at an instant: a new login first, where the stream is not public,
then everything but the old login. -/
def queueAt (b : BookStream) (now : Timestamp) : Except StreamError (List Frame) :=
  let subscriptions := b.queue.filter (!·.isLogin)
  if b.publicOnly then .ok subscriptions
  else
    match b.config.credentials? with
    | some (key, secret) => .ok (signedLogin b.config key secret now :: subscriptions)
    | none => .error .missingCredentials

/-- Sends frames one after the other, after those in `sent`. The signal to stop is looked for after
each. -/
def sendAll {σ : Type} (wire : StreamWire σ) (sent : List Frame) :
    List Frame → σ → Except StreamError (List Frame) × σ
  | [], s => (.ok sent, s)
  | frame :: frames, s =>
    let (failure, s) := wire.send (.frame frame) s
    if wire.stopped s then (.error .cancelled, s)
    else
      match failure with
      | some detail => (.error (.sendFailed detail), s)
      | none => sendAll wire (sent ++ [frame]) frames s

/-- Opens a connection and sends the queue on it, and tells what was sent. -/
def establish {σ : Type} (wire : StreamWire σ) (url : String) (queue : List Frame) (s : σ) :
    Except StreamError (List Frame) × σ :=
  if wire.stopped s then (.error .cancelled, s)
  else
    let (failure, s) := wire.dial url s
    if wire.stopped s then (.error .cancelled, s)
    else
      match failure with
      | some detail => (.error (.connectionFailed detail), s)
      | none => sendAll wire [] queue s

/-- Connects a stream that is neither connected nor closed. -/
def connect {σ : Type} (wire : StreamWire σ) (b : BookStream) (s : σ) :
    Except StreamError Unit × BookStream × σ :=
  match b.state with
  | .connecting => (.error (.invalidState .connecting), b, s)
  | .connected => (.error (.invalidState .connected), b, s)
  | .closed => (.error (.invalidState .closed), b, s)
  | .disconnected | .failed =>
    let b := { b with attempted := true }
    match b.queueAt (wire.now s) with
    | .error cause => (.error cause, { b with queue := b.queue.filter (!·.isLogin) }, s)
    | .ok queue =>
      match establish wire b.config.wsUrl queue s with
      | (.ok sent, s) =>
        let b := { b with queue, state := .connected, link := .live sent }
        (.ok (), b.emit (.connected exchangeName), s)
      | (.error cause, s) => (.error cause, { b with queue, state := .failed, link := .absent }, s)

/-- Sends a frame if the stream is connected. -/
def sendNow {σ : Type} (wire : StreamWire σ) (frame : Frame) (b : BookStream) (s : σ) :
    Except StreamError Unit × BookStream × σ :=
  match b.state, b.link with
  | .connected, .live sent =>
    match wire.send (.frame frame) s with
    | (none, s) => (.ok (), { b with link := .live (sent ++ [frame]) }, s)
    | (some detail, s) => (.error (.sendFailed detail), b, s)
  | _, _ => (.ok (), b, s)

/-- Subscribes to a channel. The wishes in the options are passed over. -/
def subscribe {σ : Type} (wire : StreamWire σ) (channel : Channel) (symbol : String)
    (_ : SubscribeOptions) (b : BookStream) (s : σ) : Except StreamError Unit × BookStream × σ :=
  match Frame.ofRequest (.ofSymbol .subscribe channel symbol) with
  | .error channel => (.error (.unsupportedChannel channel), b, s)
  | .ok frame =>
    if b.queue.contains frame then (.ok (), b, s)
    else sendNow wire frame { b with queue := b.queue ++ [frame] } s

/-- Ends a subscription. -/
def unsubscribe {σ : Type} (wire : StreamWire σ) (channel : Channel) (symbol : String)
    (b : BookStream) (s : σ) : Except StreamError Unit × BookStream × σ :=
  match Frame.ofRequest (.ofSymbol .subscribe channel symbol),
    Frame.ofRequest (.ofSymbol .unsubscribe channel symbol) with
  | .ok begun, .ok ended =>
    if b.queue.contains begun then
      sendNow wire ended { b with queue := b.queue.filter (· ≠ begun) } s
    else (.ok (), b, s)
  | .error channel, _ => (.error (.unsupportedChannel channel), b, s)
  | _, .error channel => (.error (.unsupportedChannel channel), b, s)

/-- Gives the connection up for good, if there is one. -/
def close {σ : Type} (wire : StreamWire σ) (b : BookStream) (s : σ) : BookStream × σ :=
  if b.link.isHeld then
    let (_, s) := wire.send .close s
    (emit { b with state := .closed, link := .absent } (.disconnected exchangeName "closed"), s)
  else (b, s)

/-- Takes note that the other end is gone. -/
def lose (b : BookStream) (sent : List Frame) (reason : String) : BookStream :=
  let b := { b with link := .stale sent }
  if b.state = .connected then
    emit { b with state := .disconnected } (.disconnected exchangeName reason)
  else b

/-- Takes in what the other end sends. -/
def receive {σ : Type} (wire : StreamWire σ) (incoming : Incoming) (b : BookStream) (s : σ) :
    BookStream × σ :=
  match b.link with
  | .live sent =>
    match incoming with
    | .text payload => (b.emit (.message exchangeName payload), s)
    | .binary payload =>
      (b.emit (.message exchangeName (.ofList (Text.decodeLossy payload))), s)
    | .ping payload =>
      match wire.send (.pong payload) s with
      | (none, s) => (b, s)
      | (some detail, s) => (b.lose sent detail, s)
    | .pong => (b, s)
    | .close reason => (b.lose sent (reason.getD "closed by server"), s)
    | .broken detail => (b.lose sent detail, s)
    | .ended => (b.lose sent "stream ended", s)
  | .absent | .stale _ => (b, s)

/-- Gives a sign of life. -/
def keepAlive {σ : Type} (wire : StreamWire σ) (b : BookStream) (s : σ) : BookStream × σ :=
  match b.link with
  | .live sent =>
    match wire.send (.frame .ping) s with
    | (none, s) => ({ b with link := .live (sent ++ [.ping]) }, s)
    | (some detail, s) => (b.lose sent detail, s)
  | .absent | .stale _ => (b, s)

/-- Hands on what comes in until the connection is gone or the signal to stop comes, then closes.
The first argument bounds the number of arrivals. -/
def follow {σ : Type} (wire : StreamWire σ) :
    Nat → BookStream → σ → Outcome StreamError Unit × BookStream × σ
  | 0, b, s => (.exhausted, b, s)
  | steps + 1, b, s =>
    if b.state ≠ .connected then
      let closed := b.close wire s
      (.ok (), closed.1, closed.2)
    else
      match wire.next s with
      | (.incoming incoming, s) =>
        let received := b.receive wire incoming s
        follow wire steps received.1 received.2
      | (.due, s) =>
        let alive := b.keepAlive wire s
        follow wire steps alive.1 alive.2
      | (.stop, s) =>
        let closed := b.close wire s
        (.ok (), closed.1, closed.2)

end BookStream

end Tradebook.Ftx
