import Tradebook.Subscription

/-!
# Broadcasting events

Every subscriber sees every event that is sent after it subscribed, in order. A
limited number of events is kept; a subscriber that falls further behind is told
how many it missed and goes on with the oldest one that is kept. Events that
nobody waits for are dropped.
-/

namespace Tradebook

/-- A sink of events. `sent` holds all events so far, and a receiver its position among them, or
nothing where it was dropped. -/
structure Broadcast where
  capacity : Nat
  sent : List StreamEvent
  receivers : List (Option Nat)
  deriving Repr

/-- What a receiver gets. -/
inductive Delivery where
  | event (event : StreamEvent)
  | empty
  | lagged (missed : Nat)
  | gone
  deriving DecidableEq, Repr

namespace Broadcast

/-- The capacity of a sink for which none is given. -/
def defaultCapacity : Nat :=
  1024

/-- The least power of two that is no less; `power` is tried first. -/
def powerFrom (n : Nat) : Nat → Nat → Nat
  | 0, power => power
  | steps + 1, power => if n ≤ power then power else powerFrom n steps (2 * power)

/-- A sink that keeps at least so many events, which cannot be none and must be a number of 63
bits. -/
def new? (capacity : Nat) : Option Broadcast :=
  if capacity = 0 ∨ 0x8000000000000000 ≤ capacity then none
  else some ⟨powerFrom capacity capacity 1, [], []⟩

/-- A sink of the usual capacity. -/
def default : Broadcast :=
  ⟨defaultCapacity, [], []⟩

/-- One more receiver, and its number. -/
def subscribe (b : Broadcast) : Nat × Broadcast :=
  (b.receivers.length, { b with receivers := b.receivers ++ [some b.sent.length] })

/-- Sends an event. -/
def emit (b : Broadcast) (event : StreamEvent) : Broadcast :=
  { b with sent := b.sent ++ [event] }

/-- Drops a receiver. -/
def drop (b : Broadcast) (receiver : Nat) : Broadcast :=
  { b with receivers := b.receivers.set receiver none }

/-- What comes next for a receiver. -/
def receive (b : Broadcast) (receiver : Nat) : Delivery × Broadcast :=
  match b.receivers[receiver]?.join with
  | none => (.gone, b)
  | some position =>
    let oldest := b.sent.length - b.capacity
    if position < oldest then
      (.lagged (oldest - position),
        { b with receivers := b.receivers.set receiver (some oldest) })
    else
      match b.sent[position]? with
      | none => (.empty, b)
      | some event =>
        (.event event, { b with receivers := b.receivers.set receiver (some (position + 1)) })

end Broadcast

end Tradebook
