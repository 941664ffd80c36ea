/-!
# The signal to stop

One handle, any number of tokens. Pulling the handle is seen by all tokens that
came from it, for good; a token that came from no handle is never stopped, and
neither is one whose handle was dropped before it was pulled.
-/

namespace Tradebook

/-- A handle with its tokens; a token either hangs on the handle or on nothing. -/
structure Shutdown where
  fired : Bool
  handle : Bool
  tokens : List Bool
  deriving DecidableEq, Repr

namespace Shutdown

/-- A handle and its first token. -/
def channel : Shutdown :=
  ⟨false, true, [true]⟩

/-- Pulls the handle, and tells whether there still is one. -/
def trigger (s : Shutdown) : Bool × Shutdown :=
  (s.handle, { s with fired := s.fired || s.handle })

/-- Lets the handle go. -/
def dropHandle (s : Shutdown) : Shutdown :=
  { s with handle := false }

/-- One more token, and its number. -/
def add (s : Shutdown) (linked : Bool) : Nat × Shutdown :=
  (s.tokens.length, { s with tokens := s.tokens ++ [linked] })

/-- One more token of the handle, if there still is a handle. -/
def token (s : Shutdown) : Option Nat × Shutdown :=
  if s.handle then ((s.add true).1, (s.add true).2) else (none, s)

/-- A token that hangs where another one does. -/
def clone (s : Shutdown) (token : Nat) : Option Nat × Shutdown :=
  match s.tokens[token]? with
  | some linked => ((s.add linked).1, (s.add linked).2)
  | none => (none, s)

/-- A token that is never stopped. -/
def never (s : Shutdown) : Nat × Shutdown :=
  s.add false

/-- Whether a token says to stop. -/
def isStopped (s : Shutdown) (token : Nat) : Bool :=
  s.fired && s.tokens[token]?.getD false

end Shutdown

end Tradebook
