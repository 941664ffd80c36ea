import Tradebook.Text.Blank
import Tradebook.Text.Upper

/-!
# Market symbols

A market is known by its symbol in capitals, without blanks around it. What a
person types is brought into this form before it is compared or sent.
-/

namespace Tradebook

/-- The form in which a symbol is kept. -/
def normalizeSymbol (symbol : String) : String :=
  Text.upper (Text.trim symbol)

end Tradebook
