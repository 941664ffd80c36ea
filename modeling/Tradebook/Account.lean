import Tradebook.Decimal.Arith

/-!
# Accounts and markets

What an account holds of a currency, and the pairs of currencies that an exchange
trades.
-/

namespace Tradebook

/-- Holdings of one currency; `locked` is reserved by open orders. -/
structure Balance where
  currency : String
  available : Decimal
  locked : Decimal
  deriving DecidableEq, Repr

/-- What is held in all, if that is within range. -/
def Balance.total? (b : Balance) : Option Decimal :=
  Decimal.add? b.available b.locked

/-- A pair of currencies that is traded under a symbol. -/
structure Market where
  symbol : String
  baseCurrency : String
  quoteCurrency : String
  deriving DecidableEq, Repr

/-- The balances of an account by currency, each currency once. -/
abbrev Balances := List (String × Balance)

namespace Balances

/-- The balance of a currency. -/
def find? (balances : Balances) (currency : String) : Option Balance :=
  balances.lookup currency

/-- Puts a balance in the place of the one its currency had. -/
def put (balances : Balances) (balance : Balance) : Balances :=
  balances.filter (·.1 ≠ balance.currency) ++ [(balance.currency, balance)]

/-- The balances of a list; the last one of a currency counts. -/
def ofList (balances : List Balance) : Balances :=
  balances.foldl put []

end Balances

end Tradebook
