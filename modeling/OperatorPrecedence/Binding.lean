import OperatorPrecedence.Operator

/-!
# The precedence table

Which of two neighbouring operators binds tighter: the one on top of the
operator stack, or the one being read.

The operator being read selects the rule.  A plus or minus gives way to
everything but an opening parenthesis and the bottom of the stack; a
multiplication or division gives way to its own kind and to signs; a sign and an
opening parenthesis give way to nothing; a closing parenthesis and the
terminator wait for everything back to their own partner.

## Main definitions

* `Binding` — the three ways in which two operators can stand to each other.
* `Operator.binding?` — the table; `none` where no expression brings the two
  operators together.
-/

namespace OperatorPrecedence

/-- How the operator on top of the stack binds, next to the one being read. -/
inductive Binding where
  /-- The top binds looser: the operator being read goes on top of it. -/
  | looser
  /-- The two are partners and cancel out. -/
  | paired
  /-- The top binds tighter: it is applied first. -/
  | tighter
  deriving DecidableEq

/-- The precedence table: how `top` binds next to `incoming`. -/
def Operator.binding? (top incoming : Operator) : Option Binding :=
  match incoming with
  | binary op =>
    match top with
    | opening | terminator => some .looser
    | closing | sign _ => some .tighter
    | binary below => some (if below.isAdditive && !op.isAdditive then .looser else .tighter)
  | sign _ => some .looser
  | opening =>
    match top with
    | closing => none
    | _ => some .looser
  | closing =>
    match top with
    | opening => some .paired
    | terminator => none
    | _ => some .tighter
  | terminator =>
    match top with
    | terminator => some .paired
    | opening => none
    | _ => some .tighter

end OperatorPrecedence
