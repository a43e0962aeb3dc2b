import OperatorPrecedence.Machine
import OperatorPrecedence.Expression

/-!
# Positions of a text

What is wrong with a text is a matter of its characters and of what stands directly
before them, and of how many parentheses are open.  All of this is said here of the
text alone: a character is looked at together with the text before it.

An operand is to begin at the start of a text, behind an opening parenthesis and
behind an operation.  An operation that stands in such a place and can be no sign,
or a terminator that stands there, lacks an operand.

## Main definitions

* `awaitsOperand`, `endsOperand` — whether an operand is to begin behind a text, or has
  just ended there.
* `lacksOperand`, `lacksOperandAt` — whether a character lacks an operand.
* `Defect`, `defect?`, `defectAt?` — what else may be wrong with a character.
* `Clean` — no character of a text has a defect.
* `missing` — the number of characters of a text that lack an operand.

## Main results

* `CharClass.of` — the six classes that characters fall into.
* `clean_append_singleton`, `missing_append_singleton` — one character more.
* `missing_pos_iff` — something is missing if it is missing somewhere.
-/

namespace OperatorPrecedence

/-! ### Classes of characters -/

/-- The characters of the four operations. -/
def isOperation (c : Char) : Bool := c == '+' || c == '-' || c == '*' || c == '/'

/-- The characters that an expression is written with, its terminator included. -/
def inAlphabet (c : Char) : Bool :=
  isNumeric c || isOperation c || c == '(' || c == ')' || c == '='

/-- The classes that characters fall into. -/
inductive CharClass : Char → Prop
  /-- A digit or the point. -/
  | numeric {c : Char} (h : isNumeric c = true) : CharClass c
  /-- The character of an operation. -/
  | operation (operation : Operation) : CharClass operation.symbol
  /-- The opening parenthesis. -/
  | opening : CharClass '('
  /-- The closing parenthesis. -/
  | closing : CharClass ')'
  /-- The terminator. -/
  | terminator : CharClass '='
  /-- Anything else. -/
  | foreign {c : Char} (h : inAlphabet c = false) : CharClass c

theorem CharClass.of (c : Char) : CharClass c := by
  cases h : inAlphabet c with
  | false => exact .foreign h
  | true =>
    simp only [inAlphabet, isOperation, Bool.or_eq_true, beq_iff_eq] at h
    rcases h with (((h | ((rfl | rfl) | rfl) | rfl) | rfl) | rfl) | rfl
    · exact .numeric h
    · exact .operation .add
    · exact .operation .sub
    · exact .operation .mul
    · exact .operation .div
    · exact .opening
    · exact .closing
    · exact .terminator

@[simp] theorem isNumeric_symbol (operation : Operation) :
    isNumeric operation.symbol = false := by
  cases operation <;> decide

@[simp] theorem isOperation_symbol (operation : Operation) :
    isOperation operation.symbol = true := by
  cases operation <;> decide

@[simp] theorem symbol_ne_opening (operation : Operation) : operation.symbol ≠ '(' := by
  cases operation <;> decide

@[simp] theorem symbol_ne_closing (operation : Operation) : operation.symbol ≠ ')' := by
  cases operation <;> decide

@[simp] theorem symbol_beq_closing (operation : Operation) :
    (operation.symbol == ')') = false := by
  cases operation <;> decide

@[simp] theorem symbol_ne_terminator (operation : Operation) : operation.symbol ≠ '=' := by
  cases operation <;> decide

/-- A digit or point is none of the other characters of the alphabet. -/
theorem ne_of_isNumeric {c d : Char} (hc : isNumeric c = true) (hd : isNumeric d = false) :
    c ≠ d := by
  rintro rfl
  rw [hc] at hd
  cases hd

theorem ne_of_inAlphabet_eq_false {c d : Char} (hc : inAlphabet c = false)
    (hd : inAlphabet d = true) : c ≠ d := by
  rintro rfl
  rw [hd] at hc
  cases hc

/-! ### Where operands begin and end -/

/-- Whether an operand is to begin behind a text: at the start, behind an opening
parenthesis, and behind an operation. -/
def awaitsOperand (before : List Char) : Bool :=
  before.getLast?.all fun c => c == '(' || isOperation c

/-- Whether an operand has just ended behind a text: a literal or a group. -/
def endsOperand (before : List Char) : Bool :=
  before.getLast?.any fun c => isNumeric c || c == ')'

/-- Whether a character that stands behind a text lacks an operand there: a
multiplication, a division or a terminator where an operand is to begin. -/
def lacksOperand (before : List Char) (c : Char) : Bool :=
  awaitsOperand before && (c == '*' || c == '/' || c == '=')

/-- Whether the character at a position lacks an operand. -/
def lacksOperandAt (source : List Char) (n : Nat) : Bool :=
  source[n]?.any (lacksOperand (source.take n))

@[simp] theorem awaitsOperand_append_singleton (before : List Char) (c : Char) :
    awaitsOperand (before ++ [c]) = (c == '(' || isOperation c) := by
  simp [awaitsOperand]

@[simp] theorem endsOperand_append_singleton (before : List Char) (c : Char) :
    endsOperand (before ++ [c]) = (isNumeric c || c == ')') := by
  simp [endsOperand]

theorem lacksOperand_of_numeric {c : Char} (h : isNumeric c = true) (before : List Char) :
    lacksOperand before c = false := by
  have hstar : c ≠ '*' := ne_of_isNumeric h (by decide)
  have hslash : c ≠ '/' := ne_of_isNumeric h (by decide)
  have hequals : c ≠ '=' := ne_of_isNumeric h (by decide)
  simp [lacksOperand, hstar, hslash, hequals]

/-- A plus or minus never lacks an operand, since it can be a sign. -/
@[simp] theorem lacksOperand_symbol (before : List Char) (operation : Operation) :
    lacksOperand before operation.symbol = (awaitsOperand before && !operation.isAdditive) := by
  cases operation <;> simp [lacksOperand, Operation.symbol, Operation.isAdditive]

@[simp] theorem lacksOperand_opening (before : List Char) : lacksOperand before '(' = false := by
  simp [lacksOperand]

@[simp] theorem lacksOperand_closing (before : List Char) : lacksOperand before ')' = false := by
  simp [lacksOperand]

@[simp] theorem lacksOperand_terminator (before : List Char) :
    lacksOperand before '=' = awaitsOperand before := by
  simp [lacksOperand]

/-! ### Defects -/

/-- What may be wrong with a character where it stands. -/
inductive Defect where
  /-- It does not belong to the alphabet. -/
  | foreign (found : Char)
  /-- A digit or a point directly follows a closing parenthesis. -/
  | digitAfterClosing
  /-- An opening parenthesis directly follows an operand. -/
  | missingOperator
  /-- A closing parenthesis stands where an operand is to begin. -/
  | missingOperand
  /-- A closing parenthesis has no opening one. -/
  | unmatchedClosing
  /-- The terminator comes behind an operand while a parenthesis is open. -/
  | unclosedOpening
  /-- The terminator stands where an operand is to begin. -/
  | unfinished
  /-- There is no character at all. -/
  | endOfInput
  deriving DecidableEq

/-- What is wrong with a character that stands behind a text. -/
def defect? (before : List Char) (c : Char) : Option Defect :=
  if isNumeric c then
    if before.getLast? = some ')' then some .digitAfterClosing else none
  else if isOperation c then
    none
  else if c = '(' then
    if endsOperand before then some .missingOperator else none
  else if c = ')' then
    if awaitsOperand before then some .missingOperand
    else if before.count ')' = before.count '(' then some .unmatchedClosing
    else none
  else if c = '=' then
    if awaitsOperand before then some .unfinished
    else if before.count ')' < before.count '(' then some .unclosedOpening
    else none
  else
    some (.foreign c)

/-- What is wrong at a position of a text; at its end the input runs out. -/
def defectAt? (source : List Char) (n : Nat) : Option Defect :=
  match source[n]? with
  | some c => defect? (source.take n) c
  | none => some .endOfInput

/-- The causes that a defect may be reported by, with or without an open parenthesis. Only a
terminator in the place of an operand leaves a choice: the operands may run out before
the open parenthesis is reached. -/
def Defect.causes (isOpen : Bool) : Defect → List Cause
  | foreign found => [.invalidCharacter found]
  | digitAfterClosing => [.digitAfterClosing]
  | missingOperator => [.missingOperator]
  | missingOperand => [.missingOperand]
  | unmatchedClosing => [.unmatchedClosing]
  | unclosedOpening => [.unclosedOpening]
  | unfinished =>
    if isOpen then [.stackUnderflow .operand, .unclosedOpening] else [.stackUnderflow .operand]
  | endOfInput => [.unexpectedEnd]

theorem stackUnderflow_mem_causes (isOpen : Bool) :
    .stackUnderflow .operand ∈ Defect.unfinished.causes isOpen := by
  cases isOpen <;> decide

/-- No character of a text has a defect. -/
def Clean (text : List Char) : Prop := ∀ n < text.length, defectAt? text n = none

/-- The number of characters of a text that lack an operand. -/
def missing (text : List Char) : Nat := (List.range text.length).countP (lacksOperandAt text)

/-! ### Defects by the class of a character -/

theorem defect?_of_numeric {c : Char} (h : isNumeric c = true) (before : List Char) :
    defect? before c = if before.getLast? = some ')' then some .digitAfterClosing else none := by
  simp [defect?, h]

@[simp] theorem defect?_symbol (before : List Char) (operation : Operation) :
    defect? before operation.symbol = none := by
  simp [defect?]

@[simp] theorem defect?_opening (before : List Char) :
    defect? before '(' = if endsOperand before then some .missingOperator else none := rfl

@[simp] theorem defect?_closing (before : List Char) :
    defect? before ')' =
      if awaitsOperand before then some .missingOperand
      else if before.count ')' = before.count '(' then some .unmatchedClosing
      else none := rfl

@[simp] theorem defect?_terminator (before : List Char) :
    defect? before '=' =
      if awaitsOperand before then some .unfinished
      else if before.count ')' < before.count '(' then some .unclosedOpening
      else none := rfl

theorem defect?_of_foreign {c : Char} (h : inAlphabet c = false) (before : List Char) :
    defect? before c = some (.foreign c) := by
  have hopening : c ≠ '(' := ne_of_inAlphabet_eq_false h (by decide)
  have hclosing : c ≠ ')' := ne_of_inAlphabet_eq_false h (by decide)
  have hequals : c ≠ '=' := ne_of_inAlphabet_eq_false h (by decide)
  simp only [inAlphabet, Bool.or_eq_false_iff] at h
  simp [defect?, h.1.1.1.1, h.1.1.1.2, hopening, hclosing, hequals]

/-- What is wrong with a character is never that it lacks an operand, unless it is the
terminator. -/
theorem defect?_eq_unfinished {before : List Char} {c : Char} {d : Defect}
    (hd : defect? before c = some d) (hlacks : lacksOperand before c = true) :
    d = .unfinished := by
  cases CharClass.of c with
  | numeric h => simp [lacksOperand_of_numeric h] at hlacks
  | operation operation => simp at hd
  | opening => simp at hlacks
  | closing => simp at hlacks
  | terminator =>
    rw [lacksOperand_terminator] at hlacks
    rw [defect?_terminator, if_pos hlacks] at hd
    exact (Option.some.inj hd).symm
  | foreign h =>
    simp only [lacksOperand, Bool.and_eq_true, Bool.or_eq_true, beq_iff_eq] at hlacks
    obtain ⟨-, (rfl | rfl) | rfl⟩ := hlacks <;> cases h

/-! ### Positions of a longer text -/

/-- What stands at a position depends on the text up to there alone. -/
theorem defectAt?_take (source : List Char) {k n : Nat} (hk : k < n) :
    defectAt? (source.take n) k = defectAt? source k := by
  unfold defectAt?
  rw [List.getElem?_take_of_lt hk, List.take_take, Nat.min_eq_left (Nat.le_of_lt hk)]

theorem lacksOperandAt_take (source : List Char) {k n : Nat} (hk : k < n) :
    lacksOperandAt (source.take n) k = lacksOperandAt source k := by
  unfold lacksOperandAt
  rw [List.getElem?_take_of_lt hk, List.take_take, Nat.min_eq_left (Nat.le_of_lt hk)]

theorem defectAt?_append_cons (before : List Char) (c : Char) (rest : List Char) :
    defectAt? (before ++ c :: rest) before.length = defect? before c := by
  unfold defectAt?
  simp

theorem lacksOperandAt_append_cons (before : List Char) (c : Char) (rest : List Char) :
    lacksOperandAt (before ++ c :: rest) before.length = lacksOperand before c := by
  unfold lacksOperandAt
  simp

@[simp] theorem clean_nil : Clean [] := by
  intro n hn
  cases hn

/-- A text with one character more is clean if the text is and the character has no defect. -/
theorem clean_append_singleton {text : List Char} {c : Char} :
    Clean (text ++ [c]) ↔ Clean text ∧ defect? text c = none := by
  have hlast := defectAt?_append_cons text c []
  have hbefore : ∀ n < text.length, defectAt? (text ++ [c]) n = defectAt? text n := by
    intro n hn
    rw [← defectAt?_take (text ++ [c]) hn, List.take_left]
  constructor
  · intro h
    -- every position but the last one belongs to the shorter text
    refine ⟨?_, ?_⟩
    · intro n hn
      rw [← hbefore n hn]
      exact h n (by simp; omega)
    · rw [← hlast]
      exact h text.length (by simp)
  · rintro ⟨htext, hc⟩ n hn
    rw [List.length_append, List.length_singleton] at hn
    rcases Nat.lt_or_ge n text.length with h | h
    · rw [hbefore n h]
      exact htext n h
    · obtain rfl : n = text.length := by omega
      rw [hlast]
      exact hc

/-- One character more adds to what is missing exactly if it lacks an operand itself. -/
@[simp] theorem missing_append_singleton (text : List Char) (c : Char) :
    missing (text ++ [c]) = missing text + (lacksOperand text c).toNat := by
  unfold missing
  rw [List.length_append, List.length_singleton, List.range_succ, List.countP_append,
    List.countP_singleton, lacksOperandAt_append_cons]
  congr 1
  · refine List.countP_congr ?_
    intro n hn
    rw [← lacksOperandAt_take (text ++ [c]) (List.mem_range.mp hn), List.take_left]
  · cases lacksOperand text c <;> rfl

/-- Something is missing from a text if it is missing somewhere. -/
theorem missing_pos_iff {text : List Char} :
    0 < missing text ↔ ∃ n < text.length, lacksOperandAt text n = true := by
  unfold missing
  rw [List.countP_pos_iff]
  simp only [List.mem_range]

end OperatorPrecedence
