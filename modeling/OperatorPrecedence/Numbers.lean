import OperatorPrecedence.Operator

/-!
# Numbers to calculate with

All that an evaluation asks of its numbers: a zero, a way to read literals, and
the four operations.  Nothing is assumed of them, not even that addition is
associative or that reading accepts any text at all.

## Main definitions

* `Numbers` — a type of numbers to calculate with.
-/

namespace OperatorPrecedence

/-- A type of numbers to calculate with. -/
class Numbers (ν : Type) where
  /-- The left operand of a sign, and the value of a literal that is no number. -/
  zero : ν
  /-- The number that a text writes, if it writes one. -/
  read? : List Char → Option ν
  /-- Applies an operation to its left and its right operand. -/
  apply : Operation → ν → ν → ν

end OperatorPrecedence
