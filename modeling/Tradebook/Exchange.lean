import Tradebook.Account
import Tradebook.OrderRequest
import Tradebook.Outcome

/-!
# Exchanges

One account at an exchange, seen through what can be asked of it. What the
exchange does on a request may depend on everything that happened before and may
change it; both are in the world `σ` that every request takes and returns.
-/

namespace Tradebook

/-- Why an exchange did not do what it was asked. -/
inductive ExchangeError where
  /-- No answer came. -/
  | unreachable (detail : String)
  /-- The request failed for a reason that the exchange gave. -/
  | requestFailed (detail : String)
  /-- The exchange refused. -/
  | rejected (detail : String)
  /-- The answer is not what such an answer consists of. -/
  | malformed (answer : String)
  /-- A part of the answer has no meaning. -/
  | unexpected (detail : String)
  /-- There are no credentials, or the exchange does not take them. -/
  | unauthenticated (detail : String)
  /-- There is no such order. -/
  | orderNotFound (detail : String)
  /-- Something else went wrong. -/
  | other (detail : String)
  deriving DecidableEq, Repr

/-- The wording of the error. -/
def ExchangeError.message : ExchangeError → String
  | unreachable detail => "Request failed: " ++ detail
  | requestFailed detail => "Request failed: " ++ detail
  | rejected detail => "Exchange rejected request: " ++ detail
  | malformed answer => "Unexpected response: malformed: " ++ answer
  | unexpected detail => "Unexpected response: " ++ detail
  | unauthenticated detail => "Authentication required: " ++ detail
  | orderNotFound detail => "Order not found: " ++ detail
  | other detail => "Exchange error: " ++ detail

/-- What can be asked of an account. Histories come oldest first, from an instant on, and hold no
more than the number of records asked for. -/
structure Exchange (σ : Type) where
  name : String
  balances : σ → Outcome ExchangeError Balances × σ
  markets : σ → Outcome ExchangeError (List Market) × σ
  trades : String → Timestamp → Nat → σ → Outcome ExchangeError (List Trade) × σ
  closedOrders : String → Timestamp → Nat → σ → Outcome ExchangeError (List Order) × σ
  openOrders : String → σ → Outcome ExchangeError (List Order) × σ
  submit : OrderRequest → σ → Outcome ExchangeError Order × σ
  cancel : CancelRequest → σ → Outcome ExchangeError Unit × σ

end Tradebook
