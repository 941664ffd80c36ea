import Tradebook.Account

/-!
# Sessions

A session is one account under a name of its own, with the balances and markets
that it was last seen with. The session of an isolated margin account can be held
to one pair.
-/

namespace Tradebook

/-- One account and what is known about it. -/
structure Session where
  name : String
  isolatedMargin : Bool
  isolatedSymbol : Option String
  balances : Balances
  markets : List Market
  deriving Repr

namespace Session

/-- The session of an ordinary account, about which nothing is known yet. -/
def new (name : String) : Session :=
  ⟨name, false, none, [], []⟩

/-- The same session held to a pair. -/
def withIsolatedMargin (s : Session) (symbol : String) : Session :=
  { s with isolatedMargin := true, isolatedSymbol := some symbol }

/-- The symbol that is copied when one is asked for: the pair the session is held to, if it is. -/
def effectiveSymbol (s : Session) (requested : String) : String :=
  match s.isolatedMargin, s.isolatedSymbol with
  | true, some symbol => symbol
  | _, _ => requested

end Session

end Tradebook
