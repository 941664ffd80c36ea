import Tradebook.Account
import Tradebook.Outcome

/-!
# Symbols worth copying

Of all markets of an exchange, those matter to an account that trade a coin it
holds against cash it holds.
-/

namespace Tradebook.Discovery

/-- What counts as cash. -/
def cashCurrencies : List String :=
  ["USDC", "USDT", "USD", "TWD", "EUR", "GBP"]

/-- Whether anything is held of a currency. None if the sum is out of range. -/
def isHeld? (balances : Balances) (currency : String) : Option Bool :=
  match balances.find? currency with
  | none => some false
  | some balance => balance.total?.map Decimal.isPositive

/-- The currencies of a list that are held. -/
def held? (balances : Balances) : List String → Option (List String)
  | [] => some []
  | currency :: rest =>
    match isHeld? balances currency, held? balances rest with
    | some true, some held => some (currency :: held)
    | some false, some held => some held
    | _, _ => none

/-- The cash that is held. -/
def cash? (balances : Balances) : Option (List String) :=
  held? balances cashCurrencies

/-- Puts a symbol in its place in an ascending list, unless it is there. -/
def putSymbol (symbol : String) : List String → List String
  | [] => [symbol]
  | other :: rest =>
    if symbol = other then other :: rest
    else if symbol < other then symbol :: other :: rest
    else other :: putSymbol symbol rest

/-- The symbols of the markets of a held coin quoted in the cash given. -/
def symbolsFor? (balances : Balances) (cash : List String) : List Market → Option (List String)
  | [] => some []
  | market :: rest =>
    if cash.contains market.quoteCurrency then
      match isHeld? balances market.baseCurrency, symbolsFor? balances cash rest with
      | some true, some symbols => some (putSymbol market.symbol symbols)
      | some false, some symbols => some symbols
      | _, _ => none
    else symbolsFor? balances cash rest

/-- The symbols worth copying, ascending and each one once. None if a sum that matters is out of
range. -/
def symbols? (balances : Balances) (markets : List Market) : Option (List String) :=
  match cash? balances with
  | some cash => symbolsFor? balances cash markets
  | none => none

end Tradebook.Discovery
