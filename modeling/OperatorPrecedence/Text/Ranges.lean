/-!
# Character properties as ranges

A property of characters is given by the ranges of code points that have it.

## Main definitions

* `inRanges` — whether a character lies in one of the ranges of a table.
-/

namespace OperatorPrecedence

/-- Whether the code point of a character lies in one of the ranges of a table,
both ends included. -/
def inRanges (table : Array (Nat × Nat)) (c : Char) : Bool :=
  table.any fun range => range.1 ≤ c.toNat && c.toNat ≤ range.2

end OperatorPrecedence
