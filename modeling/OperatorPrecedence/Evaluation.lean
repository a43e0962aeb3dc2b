import OperatorPrecedence.Machine
import OperatorPrecedence.Numbers.Double

/-!
# Evaluating a source

A source of characters is read up to the terminator of the first expression.  What
stands behind it is never looked at, so a source may as well be handed over in
pieces, and need not have an end.

## Main definitions

* `Machine.feed` — reads a piece of a source.
* `Progress` — how far that went.
* `Report` — the outcome of an evaluation.
* `evaluation` — evaluates a source that has an end.
* `evaluate` — the value of an expression, or what is wrong with it.

## Main results

* `Machine.feed_append` — reading in pieces is the same as reading at once.
-/

namespace OperatorPrecedence

variable {ν : Type}

/-- How far the reading of a piece of a source went. -/
inductive Progress (ν : Type) where
  /-- The piece has been read and more is wanted. -/
  | waiting (machine : Machine ν)
  /-- The machine stopped, and left some characters unread. -/
  | stopped (verdict : Verdict ν) (unread : List Char)

variable [Numbers ν]

/-- Reads a piece of a source. -/
def Machine.feed (m : Machine ν) : List Char → Progress ν
  | [] => .waiting m
  | c :: text =>
    match m.step c with
    | .ok next => next.feed text
    | .error verdict => .stopped verdict text

/-- Reading a source in two pieces is the same as reading it at once: a machine
that wants more goes on with the second piece, and one that stopped leaves it unread. -/
theorem Machine.feed_append (m : Machine ν) (p q : List Char) :
    m.feed (p ++ q) =
      match m.feed p with
      | .waiting next => next.feed q
      | .stopped verdict unread => .stopped verdict (unread ++ q) := by
  induction p generalizing m with
  | nil => rfl
  | cons c p ih =>
    simp only [List.cons_append, feed]
    cases m.step c with
    | ok next => exact ih next
    | error verdict => rfl

/-- The outcome of an evaluation. -/
structure Report (ν : Type) where
  /-- The value of the expression, or what went wrong. -/
  result : Except Fault ν
  /-- What has been done, the earliest record first. -/
  log : List (Record ν)
  /-- The characters that were never read. -/
  unread : List Char
  /-- Whether more characters were wanted than there were. -/
  exhausted : Bool

/-- The report of a machine that stopped. -/
def Verdict.report {ν : Type} (verdict : Verdict ν) (unread : List Char) : Report ν :=
  ⟨verdict.result, verdict.log.reverse, unread, false⟩

/-- The report of a machine that wants another character when there is none. -/
def Machine.endOfInput {ν : Type} (m : Machine ν) : Report ν :=
  ⟨.error ⟨m.column + 1, .unexpectedEnd⟩, m.log.reverse, [], true⟩

/-- Evaluates the first expression of a source, on stacks of the given capacity. -/
def evaluation (capacity : Option Nat) (source : List Char) : Report ν :=
  match Machine.start capacity with
  | .error verdict => verdict.report source
  | .ok machine =>
    match machine.feed source with
    | .waiting m => m.endOfInput
    | .stopped verdict unread => verdict.report unread

/-- The value of an expression in doubles, or what is wrong with it. -/
def evaluate (capacity : Option Nat) (source : String) : Except Fault Float :=
  (evaluation capacity source.toList).result

/-- The capacity that stacks traditionally have in calculators of this kind. -/
def traditionalCapacity : Nat := 100

end OperatorPrecedence
