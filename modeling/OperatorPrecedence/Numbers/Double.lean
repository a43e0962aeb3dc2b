import OperatorPrecedence.Decimal.Numeral
import OperatorPrecedence.Numbers

/-!
# Doubles as numbers to calculate with

Literals are rounded to the nearest double, and each operation rounds its result.
A division by zero gives an infinity or no number; nothing fails.

## Main definitions

* `Operation.onFloat` — an operation on doubles.
* `readFloat?` — the double nearest to a written number.
-/

namespace OperatorPrecedence

/-- An operation on doubles. -/
def Operation.onFloat : Operation → Float → Float → Float
  | add, x, y => x + y
  | sub, x, y => x - y
  | mul, x, y => x * y
  | div, x, y => x / y

/-- The double nearest to the number that a text writes. -/
def readFloat? (text : List Char) : Option Float := (Numeral.ofText? text).map Numeral.toFloat

instance : Numbers Float where
  zero := Float.ofBits 0
  read? := readFloat?
  apply := Operation.onFloat

end OperatorPrecedence
