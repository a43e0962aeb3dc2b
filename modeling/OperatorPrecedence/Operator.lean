/-!
# Operators

The four operations of arithmetic, and the operators that an expression is made
of and that wait on the operator stack.

A plus or minus with no operand in front of it acts on zero.  Directly after
another operator it becomes an `Operator.sign`, which binds tighter than a
multiplication; anywhere else it stays `Operator.binary`.

## Main definitions

* `Operation` — addition, subtraction, multiplication and division.
* `Operation.isAdditive` — the two classes of operations: a sum's and a product's.
* `Operator` — an operation, a sign, a parenthesis or the terminator.
* `Operator.operation?` — what an operator computes, if it computes anything.

## Main results

* `Operation.isAdditive_eq_true_iff`, `Operation.isAdditive_eq_false_iff` — the members of the two
  classes, by name.
-/

namespace OperatorPrecedence

/-- The four operations of arithmetic. -/
inductive Operation where
  /-- Addition, written `+`. -/
  | add
  /-- Subtraction, written `-`. -/
  | sub
  /-- Multiplication, written `*`. -/
  | mul
  /-- Division, written `/`. -/
  | div
  deriving DecidableEq

namespace Operation

/-- The character an operation is written with. -/
def symbol : Operation → Char
  | add => '+'
  | sub => '-'
  | mul => '*'
  | div => '/'

/-- Addition and subtraction, the two operations that may also stand as a sign. -/
def isAdditive : Operation → Bool
  | add | sub => true
  | mul | div => false

theorem isAdditive_eq_true_iff {op : Operation} :
    op.isAdditive = true ↔ op = add ∨ op = sub := by
  cases op <;> decide

theorem isAdditive_eq_false_iff {op : Operation} :
    op.isAdditive = false ↔ op = mul ∨ op = div := by
  cases op <;> decide

end Operation

/-- An operator of an expression, and an entry of the operator stack. -/
inductive Operator where
  /-- An operation between two operands, or a plus or minus at the start of an
  expression or a group. -/
  | binary (operation : Operation)
  /-- A plus or minus directly after another operator, as in `2*-3`. -/
  | sign (operation : Operation)
  /-- An opening parenthesis. -/
  | opening
  /-- A closing parenthesis. -/
  | closing
  /-- The `=` that ends an expression, and the mark at the bottom of the
  operator stack. -/
  | terminator
  deriving DecidableEq

namespace Operator

/-- The operation an operator applies to two operands; parentheses and the
terminator apply none. -/
def operation? : Operator → Option Operation
  | binary op | sign op => some op
  | opening | closing | terminator => none

/-- The character an operator is written with. -/
def symbol : Operator → Char
  | binary op | sign op => op.symbol
  | opening => '('
  | closing => ')'
  | terminator => '='

end Operator

end OperatorPrecedence
