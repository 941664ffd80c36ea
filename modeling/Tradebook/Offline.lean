import Tradebook.Database
import Tradebook.Ftx.BookStream
import Tradebook.Http

/-!
# Without a net

What the program meets on a machine from which nothing can be reached: requests
get no answer, streams cannot be opened, and neither can databases. Only the
clock goes on.
-/

namespace Tradebook.Offline

/-- An exchange that cannot be reached. -/
def http {σ : Type} (now : σ → Timestamp) : HttpWire σ where
  send request s := (.error ("error sending request for url (" ++ request.url ++ ")"), s)
  now := now

/-- A stream that cannot be opened. -/
def stream {σ : Type} (now : σ → Timestamp) (stopped : σ → Bool) : Ftx.StreamWire σ where
  dial _ s := (some "no route to host", s)
  send _ s := (some "no route to host", s)
  next s := (.stop, s)
  stopped := stopped
  now := now

/-- A database that cannot be opened. -/
def database {σ : Type} (stopped : σ → Bool) : Database σ where
  connect _ s := (some "no route to host", s)
  store _ := .empty
  keep _ s := s
  around := { stopped, refusal := fun _ s => (some "no route to host", s) }

end Tradebook.Offline
