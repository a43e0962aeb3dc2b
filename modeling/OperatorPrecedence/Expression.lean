import OperatorPrecedence.Alphabet
import OperatorPrecedence.Literal
import OperatorPrecedence.Record

/-!
# The grammar of expressions

Well-formed expressions as derivation trees, with their text, their value, and what
evaluating them takes.

A multiplication or division joins a term and a factor, an addition or subtraction
an expression and a term, so that operators group to the left and products bind
tighter than sums.  A sign binds tighter still and applies to the factor behind it.  The
exception is a sign at the start of an expression or a group: it applies to the
whole term behind it.  A sign is an operation whose left operand is zero.  Which
operations join what is told by `Operation.isAdditive`, and by name in
`Operation.isAdditive_eq_true_iff` and `Operation.isAdditive_eq_false_iff`.

## Main definitions

* `Phrase` — the derivation trees of the grammar, by rank.
* `Phrase.text` — the characters a phrase is written with.
* `Phrase.value` — the value of a phrase.
* `Phrase.folds` — the operations of a phrase in the order in which operands
  become available.
* `Phrase.need` — how many operators an evaluation has to hold at a time.
-/

namespace OperatorPrecedence

/-- The ranks of phrases. -/
inductive Rank where
  /-- A literal, or a group in parentheses. -/
  | primary
  /-- A primary behind any number of signs. -/
  | factor
  /-- Factors joined by multiplications and divisions. -/
  | term
  /-- A term without a sign at its start. -/
  | leading
  /-- The first term of an expression. -/
  | head
  /-- Terms joined by additions and subtractions. -/
  | expression
  deriving DecidableEq

/-- A character that literals are made of. -/
def isNumeric (c : Char) : Bool := c.isDigit || c == '.'

/-- The derivation trees of the grammar. -/
inductive Phrase : Rank → Type where
  /-- A literal: digits and points, at least one of them. -/
  | literal (text : List Char) (nonempty : text ≠ [])
      (numeric : ∀ c ∈ text, isNumeric c = true) : Phrase .primary
  /-- An expression in parentheses. -/
  | group (body : Phrase .expression) : Phrase .primary
  /-- A factor without a sign. -/
  | factor (p : Phrase .primary) : Phrase .factor
  /-- A sign and the factor it applies to. -/
  | sign (op : Operation) (additive : op.isAdditive = true) (f : Phrase .factor) : Phrase .factor
  /-- A term of a single factor. -/
  | term (f : Phrase .factor) : Phrase .term
  /-- A product or quotient of a term and a factor. -/
  | product (t : Phrase .term) (op : Operation) (scaling : op.isAdditive = false)
      (f : Phrase .factor) : Phrase .term
  /-- A first term of a single primary. -/
  | leading (p : Phrase .primary) : Phrase .leading
  /-- A product or quotient that starts without a sign. -/
  | leadingProduct (t : Phrase .leading) (op : Operation) (scaling : op.isAdditive = false)
      (f : Phrase .factor) : Phrase .leading
  /-- A first term without a sign. -/
  | plain (t : Phrase .leading) : Phrase .head
  /-- A first term with a sign that applies to all of it. -/
  | signed (op : Operation) (additive : op.isAdditive = true) (t : Phrase .term) : Phrase .head
  /-- An expression of a single term. -/
  | expression (h : Phrase .head) : Phrase .expression
  /-- A sum or difference of an expression and a term. -/
  | sum (e : Phrase .expression) (op : Operation) (additive : op.isAdditive = true)
      (t : Phrase .term) : Phrase .expression

namespace Phrase

/-- The characters a phrase is written with. -/
def text : {r : Rank} → Phrase r → List Char
  | _, literal text _ _ => text
  | _, group e => '(' :: e.text ++ [')']
  | _, factor p => p.text
  | _, sign op _ f => op.symbol :: f.text
  | _, term f => f.text
  | _, product t op _ f => t.text ++ op.symbol :: f.text
  | _, leading p => p.text
  | _, leadingProduct t op _ f => t.text ++ op.symbol :: f.text
  | _, plain t => t.text
  | _, signed op _ t => op.symbol :: t.text
  | _, expression h => h.text
  | _, sum e op _ t => e.text ++ op.symbol :: t.text

/-- How many operators an evaluation has to hold at a time, if it already holds
`base` of them when the phrase begins. -/
def need (base : Nat) : {r : Rank} → Phrase r → Nat
  | _, literal _ _ _ => base
  | _, group e => e.need (base + 1)
  | _, factor p => p.need base
  | _, sign _ _ f => f.need (base + 1)
  | _, term f => f.need base
  | _, product t _ _ f => max (t.need base) (f.need (base + 1))
  | _, leading p => p.need base
  | _, leadingProduct t _ _ f => max (t.need base) (f.need (base + 1))
  | _, plain t => t.need base
  | _, signed _ _ t => t.need (base + 1)
  | _, expression h => h.need base
  | _, sum e _ _ t => max (e.need base) (t.need (base + 1))

variable {ν : Type} [Numbers ν]

/-- The value of a phrase. -/
def value : {r : Rank} → Phrase r → ν
  | _, literal text _ _ => Literal.valueOf text
  | _, group e => e.value
  | _, factor p => p.value
  | _, sign op _ f => Numbers.apply op Numbers.zero f.value
  | _, term f => f.value
  | _, product t op _ f => Numbers.apply op t.value f.value
  | _, leading p => p.value
  | _, leadingProduct t op _ f => Numbers.apply op t.value f.value
  | _, plain t => t.value
  | _, signed op _ t => Numbers.apply op Numbers.zero t.value
  | _, expression h => h.value
  | _, sum e op _ t => Numbers.apply op e.value t.value

/-- An operation and its result. -/
def foldEvent (left : ν) (op : Operation) (right : ν) : Event ν :=
  .fold left op right (Numbers.apply op left right)

/-- The operations of a phrase in the order in which their operands become
available: those of the left operand, those of the right one, then the
operation itself. -/
def folds : {r : Rank} → Phrase r → List (Event ν)
  | _, literal _ _ _ => []
  | _, group e => e.folds
  | _, factor p => p.folds
  | _, sign op _ f => f.folds ++ [foldEvent Numbers.zero op f.value]
  | _, term f => f.folds
  | _, product t op _ f => t.folds ++ f.folds ++ [foldEvent t.value op f.value]
  | _, leading p => p.folds
  | _, leadingProduct t op _ f => t.folds ++ f.folds ++ [foldEvent t.value op f.value]
  | _, plain t => t.folds
  | _, signed op _ t => t.folds ++ [foldEvent Numbers.zero op t.value]
  | _, expression h => h.folds
  | _, sum e op _ t => e.folds ++ t.folds ++ [foldEvent e.value op t.value]

end Phrase

end OperatorPrecedence
