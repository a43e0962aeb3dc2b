import OperatorPrecedence.Decimal.Digits
import OperatorPrecedence.Operator

/-!
# The alphabet of expressions

Every token of an expression is one character: a digit, the decimal point, or
an operator.  Nothing else belongs to the alphabet, white space included.

## Main definitions

* `Token` — the characters of the alphabet.
* `Token.ofChar?` — the token a character stands for.
* `Token.operator?` — the operator a token stands for.
-/

namespace OperatorPrecedence

/-- One character of an expression. -/
inductive Token where
  /-- A decimal digit. -/
  | digit (value : Fin 10)
  /-- The decimal point. -/
  | point
  /-- The plus character. -/
  | plus
  /-- The minus character. -/
  | minus
  /-- The asterisk. -/
  | star
  /-- The slash. -/
  | slash
  /-- The opening parenthesis. -/
  | opening
  /-- The closing parenthesis. -/
  | closing
  /-- The equals character. -/
  | equals
  deriving DecidableEq

namespace Token

/-- The token a character stands for, or `none` outside the alphabet. -/
def ofChar? (c : Char) : Option Token :=
  match c with
  | '.' => some point
  | '+' => some plus
  | '-' => some minus
  | '*' => some star
  | '/' => some slash
  | '(' => some opening
  | ')' => some closing
  | '=' => some equals
  | c => (digit? c).map digit

/-- The operator a token stands for; digits and the point are none.  A plus or
minus is read as an operation here, since only its place can make it a sign. -/
def operator? : Token → Option Operator
  | plus => some (.binary .add)
  | minus => some (.binary .sub)
  | star => some (.binary .mul)
  | slash => some (.binary .div)
  | opening => some .opening
  | closing => some .closing
  | equals => some .terminator
  | digit _ | point => none

end Token

end OperatorPrecedence
