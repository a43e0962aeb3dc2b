import OperatorPrecedence.Stack
import OperatorPrecedence.Text.Quoted

/-!
# Faults

The ways in which an evaluation can fail, and what a reader is told about them.

## Main definitions

* `Fault` — what went wrong, and at which column.
* `Cause` — what went wrong.
* `Fault.message` — the text that tells a reader.
* `Stack.Failure.on` — the cause behind a failed stack operation.
-/

namespace OperatorPrecedence

/-- The two stacks of an evaluation. -/
inductive StackName where
  /-- The stack of the operators that wait for their right operand. -/
  | operator
  /-- The stack of the operands that wait for their operator. -/
  | operand
  deriving DecidableEq

/-- What a stack is called in a message. -/
def StackName.text : StackName → String
  | operator => "operator"
  | operand => "operand"

/-- What went wrong in an evaluation. -/
inductive Cause where
  /-- A character does not belong to the alphabet of expressions. -/
  | invalidCharacter (found : Char)
  /-- An opening parenthesis directly follows an operand or a closing one. -/
  | missingOperator
  /-- A closing parenthesis does not follow an operand or another closing one. -/
  | missingOperand
  /-- A digit or a decimal point directly follows a closing parenthesis. -/
  | digitAfterClosing
  /-- A closing parenthesis has no opening one. -/
  | unmatchedClosing
  /-- The terminator comes while a parenthesis is open. -/
  | unclosedOpening
  /-- The characters ran out before the terminator. -/
  | unexpectedEnd
  /-- An operator that computes nothing was to be applied. -/
  | notApplicable (symbol : Char)
  /-- Several values are left where one should be. -/
  | danglingOperands (count : Nat)
  /-- A stack is full. -/
  | stackOverflow (stack : StackName) (capacity : Nat)
  /-- A stack holds fewer entries than are needed. -/
  | stackUnderflow (stack : StackName)
  deriving DecidableEq

/-- What went wrong, and where. -/
structure Fault where
  /-- The column of the character being read, counted from 1; 0 before the
  first one, and the column after the last one at the end of the input. -/
  column : Nat
  /-- What went wrong. -/
  cause : Cause
  deriving DecidableEq

/-- The three kinds of causes. -/
inductive Cause.Kind where
  /-- The text is no expression. -/
  | malformed
  /-- A stack is too small. -/
  | overflow
  /-- An operand is missing. -/
  | underflow
  deriving DecidableEq

namespace Cause

/-- The kind a cause belongs to. -/
def kind : Cause → Cause.Kind
  | stackOverflow .. => .overflow
  | stackUnderflow .. => .underflow
  | _ => .malformed

/-- What a cause says to a reader. -/
def text : Cause → String
  | invalidCharacter found => s!"Invalid character {String.ofList (quoted found)}."
  | missingOperator => "Missing operator before '('."
  | missingOperand => "Missing operand before ')'."
  | digitAfterClosing => "A number cannot directly follow ')'."
  | unmatchedClosing => "Closing parenthesis ')' has no matching '('."
  | unclosedOpening => "Expected closing parenthesis ')' but none found."
  | unexpectedEnd => "Unexpected end of input, expected '='."
  | notApplicable symbol => s!"Operator '{symbol}' cannot be applied."
  | danglingOperands count => s!"{count} values were left without an operator."
  | stackOverflow stack capacity => s!"The {stack.text} stack is full (capacity {capacity})."
  | stackUnderflow stack => s!"The {stack.text} stack is empty; the expression is malformed."

end Cause

/-- The text that tells a reader what went wrong and where. -/
def Fault.message (f : Fault) : String := s!"Error at column {f.column}: {f.cause.text}"

/-- The cause behind a failed operation on one of the two stacks. -/
def Stack.Failure.on : Stack.Failure → StackName → Cause
  | overflow capacity, stack => .stackOverflow stack capacity
  | underflow, stack => .stackUnderflow stack

end OperatorPrecedence
