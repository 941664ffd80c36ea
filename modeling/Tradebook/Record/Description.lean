import Tradebook.Decimal.Text
import Tradebook.Record

/-!
# Orders in one line

The form in which a person is shown an order.
-/

namespace Tradebook

/-- The order in one line. -/
def Order.describe (o : Order) : String :=
  o.orderType.name ++ " " ++ o.side.name ++ " " ++ o.quantity.text ++ " " ++ o.symbol ++ " @ " ++
    (o.price.map Decimal.text).getD "market" ++ " [" ++ o.status.name ++ "] (order id " ++
    o.orderId ++ ", client id " ++ o.clientOrderId.getD "-" ++ ")"

end Tradebook
