import OperatorPrecedence.Numbers

/-!
# Literals

A literal is gathered character by character.  Its value is that of the longest
beginning of its text that is a number, and zero as long as no beginning is one:
`1.2.3` has the value of `1.2`, and a lone point has the value zero.

The value is kept up to date as characters arrive, so a text that stops being a
number keeps the value it had when it last was one.

## Main definitions

* `Literal` — the characters gathered so far, and their value.
* `Literal.push` — gathers one more character.
* `Literal.take` — hands out the value of a finished literal.
* `Literal.valueOf` — the value of a literal, from its whole text.
-/

namespace OperatorPrecedence

/-- A literal that is being read. -/
structure Literal (ν : Type) where
  /-- The characters gathered so far, the latest one first. -/
  reversed : List Char
  /-- The value of the longest beginning of the text that is a number. -/
  value : ν

namespace Literal

variable {ν : Type}

/-- The characters gathered so far, in the order in which they came. -/
def text (l : Literal ν) : List Char := l.reversed.reverse

/-- Whether no character has been gathered. -/
def isEmpty (l : Literal ν) : Bool := l.reversed.isEmpty

/-- Literals are equal if their texts and their values are. -/
instance [BEq ν] : BEq (Literal ν) where
  beq l m := l.reversed == m.reversed && l.value == m.value

theorem isEmpty_iff_text (l : Literal ν) : l.isEmpty = true ↔ l.text = [] := by
  simp [isEmpty, text]

variable [Numbers ν]

/-- The literal without characters. -/
def empty : Literal ν := ⟨[], Numbers.zero⟩

/-- Gathers one more character. -/
def push (l : Literal ν) (c : Char) : Literal ν :=
  let reversed := c :: l.reversed
  ⟨reversed, (Numbers.read? reversed.reverse).getD l.value⟩

@[simp] theorem text_empty : (empty : Literal ν).text = [] := rfl

@[simp] theorem text_push (l : Literal ν) (c : Char) : (l.push c).text = l.text ++ [c] :=
  List.reverse_cons

@[simp] theorem isEmpty_push (l : Literal ν) (c : Char) : (l.push c).isEmpty = false := rfl

/-- Hands out the value, if any character has been gathered, and starts over. -/
def take (l : Literal ν) : Option ν × Literal ν :=
  if l.isEmpty then (none, l) else (some l.value, empty)

theorem take_of_isEmpty {l : Literal ν} (h : l.isEmpty = true) : l.take = (none, l) := if_pos h

theorem take_of_begun {l : Literal ν} (h : l.isEmpty = false) : l.take = (some l.value, empty) :=
  if_neg (Bool.eq_false_iff.mp h)

/-- The value of a finished literal: that of the longest beginning of its text that
is a number, and zero if no beginning is one. -/
def valueOf (text : List Char) : ν :=
  ((List.range text.length).reverse.findSome? fun n => Numbers.read? (text.take (n + 1))).getD
    Numbers.zero

end Literal

end OperatorPrecedence
