import OperatorPrecedence.Decimal.Render
import OperatorPrecedence.Operator

/-!
# The log of an evaluation

An evaluation records what it does: which literals it commits, which operators
it pushes, cancels and applies, and the value it arrives at.

## Main definitions

* `Event` — something an evaluation does.
* `Record` — an event and the column of the character that gave rise to it.
* `Record.text` — the line of a log that tells of an event.
* `Level` — how much a reader of the log wants to know.
-/

namespace OperatorPrecedence

/-- Something an evaluation does. -/
inductive Event (ν : Type) where
  /-- A finished literal becomes an operand. -/
  | commit (value : ν)
  /-- An operator goes on top of another one. -/
  | push (operator top : Operator)
  /-- An operator cancels out with its partner on top of the stack. -/
  | close (operator top : Operator)
  /-- An operation is applied to its operands. -/
  | fold (left : ν) (operation : Operation) (right result : ν)
  /-- The expression has a value. -/
  | evaluated (value : ν)

/-- An event, and the column of the character that gave rise to it. -/
structure Record (ν : Type) where
  /-- The column of the character being read. -/
  column : Nat
  /-- What happened. -/
  event : Event ν

/-- How much a log tells. -/
inductive Level where
  /-- Outcomes only. -/
  | debug
  /-- Each single move. -/
  | trace
  deriving DecidableEq

/-- The name of a level in a log. -/
def Level.text : Level → String
  | debug => "DEBUG"
  | trace => "TRACE"

/-- The level an event belongs to: the outcome is told early, the moves late. -/
def Event.level {ν : Type} : Event ν → Level
  | evaluated _ => .debug
  | _ => .trace

/-- The line that tells of an event, with doubles written in the fewest digits
that read back. -/
def Record.text (r : Record Float) : String :=
  match r.event with
  | .commit value => s!"column {r.column}: commit literal {shortestText value}"
  | .push operator top => s!"column {r.column}: push '{operator.symbol}' over '{top.symbol}'"
  | .close operator top => s!"column {r.column}: '{operator.symbol}' closes '{top.symbol}'"
  | .fold left operation right result =>
    s!"column {r.column}: fold {shortestText left} {operation.symbol} " ++
      s!"{shortestText right} = {shortestText result}"
  | .evaluated value =>
    s!"expression evaluated to {shortestText value} after {r.column} characters"

end OperatorPrecedence
