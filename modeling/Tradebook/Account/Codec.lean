import Tradebook.Account
import Tradebook.Json.Decode

/-!
# Balances and markets as JSON

Each type has a function that writes a value and one that reads it; what is
written is read back as it was.
-/

namespace Tradebook

open Json

/-- A decimal is written as a text, with all its decimals. -/
def Decimal.toJson (a : Decimal) : Json :=
  .text a.text

namespace Balance

def toJson (b : Balance) : Json :=
  record [("currency", text b.currency), ("available", b.available.toJson),
    ("locked", b.locked.toJson)]

def ofJson? (v : Json) : Option Balance := do
  match ← v.fields? ["currency", "available", "locked"] with
  | [currency, available, locked] =>
    return {
      currency := ← required asText? currency
      available := ← required asDecimal? available
      locked := ← required asDecimal? locked }
  | _ => none

end Balance

namespace Market

def toJson (m : Market) : Json :=
  record [("symbol", text m.symbol), ("base_currency", text m.baseCurrency),
    ("quote_currency", text m.quoteCurrency)]

def ofJson? (v : Json) : Option Market := do
  match ← v.fields? ["symbol", "base_currency", "quote_currency"] with
  | [symbol, baseCurrency, quoteCurrency] =>
    return {
      symbol := ← required asText? symbol
      baseCurrency := ← required asText? baseCurrency
      quoteCurrency := ← required asText? quoteCurrency }
  | _ => none

end Market

end Tradebook
