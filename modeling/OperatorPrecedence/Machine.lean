import OperatorPrecedence.Alphabet
import OperatorPrecedence.Binding
import OperatorPrecedence.Fault
import OperatorPrecedence.Literal
import OperatorPrecedence.Record

/-!
# The machine that evaluates

An expression is evaluated while it is read, by a machine with one stack of
operators that wait for their right operand and one of operands.  Digits and
points gather in a literal.  At every operator the machine commits the literal,
settles what the operator means where it stands, and then consults the precedence
table: operators that bind tighter are applied first, and then the new one goes
on the stack or cancels out with its partner.

A plus or minus without an operand in front of it gets zero for its left operand.

## Main definitions

* `Machine` — the state between two characters.
* `Machine.start` — the machine before the first character.
* `Machine.step` — reads one character.
* `Verdict` — what a machine that stops has to say.

## Main results

* `Machine.items_applyTop` — applying an operator takes it from the stack and nothing else.
* `Machine.reduce_of_tighter`, `Machine.reduce_of_not_tighter` — operators are applied one
  by one, from the top, as long as they bind tighter than the one being read.
-/

namespace OperatorPrecedence

/-- What the character before was; it decides whether a plus or minus lacks an
operand, and whether a parenthesis is in its place. -/
inductive Preceding where
  /-- There was none. -/
  | nothing
  /-- A digit or a point. -/
  | operand
  /-- An opening parenthesis. -/
  | opening
  /-- A closing parenthesis. -/
  | closing
  /-- An operator that is no parenthesis. -/
  | operator
  deriving DecidableEq

namespace Preceding

/-- Whether an operand has just ended. -/
def endsOperand : Preceding → Bool
  | operand | closing => true
  | nothing | opening | operator => false

/-- What an operator is to the character behind it. -/
def ofOperator : Operator → Preceding
  | .opening => opening
  | .closing => closing
  | _ => operator

end Preceding

/-- What a machine that stops has to say: a value or a fault, and its log, the
latest record first. -/
structure Verdict (ν : Type) where
  /-- The value of the expression, or what went wrong. -/
  result : Except Fault ν
  /-- What has been done, the latest record first. -/
  log : List (Record ν)

/-- The state of an evaluation between two characters. -/
structure Machine (ν : Type) where
  /-- The operators that wait for their right operand, over the terminator. -/
  operators : Stack Operator
  /-- The operands that wait for their operator. -/
  operands : Stack ν
  /-- The literal being read. -/
  literal : Literal ν
  /-- What the character before was. -/
  preceding : Preceding
  /-- The number of characters read. -/
  column : Nat
  /-- What has been done, the latest record first. -/
  log : List (Record ν)

namespace Machine

variable {ν : Type} {α : Type}

/-- Stops with a fault at the current column. -/
def fail (m : Machine ν) (cause : Cause) : Except (Verdict ν) α :=
  .error ⟨.error ⟨m.column, cause⟩, m.log⟩

/-- Records an event at the current column. -/
def record (m : Machine ν) (event : Event ν) : Machine ν :=
  { m with log := ⟨m.column, event⟩ :: m.log }

/-- Goes on with the result of a stack operation, or stops with its failure. -/
def afterStack (m : Machine ν) (stack : StackName) : Except Stack.Failure α → Except (Verdict ν) α
  | .ok a => .ok a
  | .error e => m.fail (e.on stack)

/-- Puts an operand on its stack. -/
def putOperand (m : Machine ν) (value : ν) : Except (Verdict ν) (Machine ν) := do
  let operands ← m.afterStack .operand (m.operands.push value)
  return { m with operands }

/-- Takes the top operand from its stack. -/
def takeOperand (m : Machine ν) : Except (Verdict ν) (ν × Machine ν) := do
  let (value, operands) ← m.afterStack .operand m.operands.pop
  return (value, { m with operands })

/-- Puts an operator on its stack. -/
def putOperator (m : Machine ν) (op : Operator) : Except (Verdict ν) (Machine ν) := do
  let operators ← m.afterStack .operator (m.operators.push op)
  return { m with operators }

/-- Takes the top operator from its stack. -/
def takeOperator (m : Machine ν) : Except (Verdict ν) (Operator × Machine ν) := do
  let (op, operators) ← m.afterStack .operator m.operators.pop
  return (op, { m with operators })

variable [Numbers ν]

/-- The machine before the first character, with a terminator at the bottom of
its operator stack.  Both stacks have the given capacity. -/
def start (capacity : Option Nat) : Except (Verdict ν) (Machine ν) :=
  putOperator ⟨.empty capacity, .empty capacity, .empty, .nothing, 0, []⟩ .terminator

/-- Gathers a digit or a point into the literal. -/
def gather (m : Machine ν) (c : Char) : Except (Verdict ν) (Machine ν) :=
  if m.preceding = .closing then
    m.fail .digitAfterClosing
  else
    .ok { m with literal := m.literal.push c, preceding := .operand }

/-- Turns the literal that has been read, if there is one, into an operand. -/
def commitLiteral (m : Machine ν) : Except (Verdict ν) (Machine ν) :=
  match m.literal.take with
  | (none, _) => .ok m
  | (some value, literal) => ({ m with literal }.record (.commit value)).putOperand value

/-- Settles what an operator means where it stands.  A plus or minus that no
operand precedes acts on zero; directly behind another operator it is a sign. -/
def interpret (m : Machine ν) (op : Operator) : Except (Verdict ν) (Operator × Machine ν) :=
  match op with
  | .binary operation =>
    if operation.isAdditive then
      match m.preceding with
      | .operand | .closing => .ok (op, m)
      | .nothing | .opening => return (op, ← m.putOperand Numbers.zero)
      | .operator => return (.sign operation, ← m.putOperand Numbers.zero)
    else
      .ok (op, m)
  | _ => .ok (op, m)

/-- Refuses an opening parenthesis behind an operand, and a closing one that is
not behind an operand. -/
def checkPlace (m : Machine ν) (op : Operator) : Except (Verdict ν) Unit :=
  match op with
  | .opening => if m.preceding.endsOperand then m.fail .missingOperator else .ok ()
  | .closing => if m.preceding.endsOperand then .ok () else m.fail .missingOperand
  | _ => .ok ()

/-- Applies the top operator to the two top operands. -/
def applyTop (m : Machine ν) : Except (Verdict ν) (Machine ν) := do
  let (op, m) ← m.takeOperator
  let (right, m) ← m.takeOperand
  let (left, m) ← m.takeOperand
  match op.operation? with
  | none => m.fail (.notApplicable op.symbol)
  | some operation =>
    let result := Numbers.apply operation left right
    (m.record (.fold left operation right result)).putOperand result

/-- Applies the operators on top of the stack as long as they bind tighter than
the one being read. -/
def reduce (m : Machine ν) (incoming : Operator) : Except (Verdict ν) (Machine ν) :=
  let tighter := m.operators.items.takeWhile (·.binding? incoming = some .tighter)
  tighter.foldlM (fun m _ => m.applyTop) m

/-- Stops with the one operand that is left. -/
def deliver (m : Machine ν) : Except (Verdict ν) α := do
  let (value, rest) ← m.takeOperand
  if rest.operands.isEmpty then
    .error ⟨.ok value, (m.record (.evaluated value)).log⟩
  else
    m.fail (.danglingOperands m.operands.size)

/-- What is wrong when an operator does not go together with the top of the
stack. -/
def unplaceable : Operator → Cause
  | .closing => .unmatchedClosing
  | .terminator => .unclosedOpening
  | _ => .missingOperator

/-- Brings an operator together with the top of the stack, once nothing there
binds tighter: it goes on top, or it cancels out with its partner.  The evaluation is
finished when the two terminators meet. -/
def place (m : Machine ν) (op : Operator) : Except (Verdict ν) (Machine ν) := do
  let top ← m.afterStack .operator m.operators.peek
  match top.binding? op with
  | some .looser => (m.record (.push op top)).putOperator op
  | some .paired =>
    if op = .terminator then
      m.deliver
    else
      return (← (m.record (.close op top)).takeOperator).2
  | _ => m.fail (unplaceable op)

/-- Reads an operator. -/
def accept (m : Machine ν) (op : Operator) : Except (Verdict ν) (Machine ν) := do
  let m ← m.commitLiteral
  let (op, m) ← m.interpret op
  m.checkPlace op
  let m ← m.reduce op
  let m ← m.place op
  return { m with preceding := .ofOperator op }

/-- Reads one character: the machine goes on, or stops with a verdict. -/
def step (m : Machine ν) (c : Char) : Except (Verdict ν) (Machine ν) :=
  let m := { m with column := m.column + 1 }
  match Token.ofChar? c with
  | none => m.fail (.invalidCharacter c)
  | some token =>
    match token.operator? with
    | some op => m.accept op
    | none => m.gather c

/-! ### Applying operators from the top -/

/-- Applying the top operator takes it from its stack and leaves the others there. -/
theorem items_applyTop {m next : Machine ν} (h : m.applyTop = .ok next) :
    next.operators.items = m.operators.items.tail := by
  unfold applyTop takeOperator takeOperand putOperand afterStack at h
  cases hop : m.operators.pop with
  | error e => rw [hop] at h; cases h
  | ok popped =>
    obtain ⟨op, operators⟩ := popped
    have hitems := Stack.items_pop hop
    simp only [hop, bind, Except.bind, pure, Except.pure] at h
    cases hright : m.operands.pop with
    | error e => simp [hright, fail] at h
    | ok popped =>
      simp only [hright] at h
      cases hleft : popped.2.pop with
      | error e => simp [hleft, fail] at h
      | ok popped =>
        simp only [hleft] at h
        cases hoperation : op.operation? with
        | none => simp [hoperation, fail] at h
        | some operation =>
          simp only [hoperation, record] at h
          split at h
          · cases h
          · cases h
            simp [hitems]

/-- An operator on top that binds tighter is applied before the others get their turn. -/
theorem reduce_of_tighter (m : Machine ν) {top incoming : Operator} {rest : List Operator}
    (hitems : m.operators.items = top :: rest)
    (htop : top.binding? incoming = some .tighter) :
    m.reduce incoming = m.applyTop >>= (·.reduce incoming) := by
  unfold reduce
  rw [hitems, List.takeWhile_cons_of_pos (by simpa using htop), List.foldlM_cons]
  cases h : m.applyTop with
  | error e => rfl
  | ok next =>
    have hnext := items_applyTop h
    rw [hitems, List.tail_cons] at hnext
    simp only [bind, Except.bind, hnext]

/-- Nothing is applied if the top does not bind tighter. -/
theorem reduce_of_not_tighter (m : Machine ν) {top incoming : Operator} {rest : List Operator}
    (hitems : m.operators.items = top :: rest)
    (htop : top.binding? incoming ≠ some .tighter) : m.reduce incoming = .ok m := by
  unfold reduce
  rw [hitems, List.takeWhile_cons_of_neg (by simpa using htop)]
  rfl

end Machine

end OperatorPrecedence
