/-!
# Decimal digits

The ten digit characters, and the number that a run of them writes.

A run is read in blocks of `blockWidth` digits: a block is gathered in a small
number and joins the whole in a single multiplication, so that a run of `n` digits
costs about `n / blockWidth` operations on large numbers.

## Main definitions

* `digit?` — the value of a digit character.
* `DigitRun` — a run of digits that is being read.
* `DigitRun.read` — reads the digits at the beginning of a text.
* `digitsText` — a number in decimal digits, without leading zeros.

## Main results

* `DigitRun.value_push` — a further digit moves the number one place to the left.
* `DigitRun.read_snd` — reading stops at the first character that is no digit.
-/

namespace OperatorPrecedence

/-- The value of a digit character, which for other characters means nothing. -/
def digitValue (c : Char) : Nat := c.toNat - '0'.toNat

/-- The value of a digit is below ten. -/
theorem digitValue_lt {c : Char} (h : c.isDigit = true) : digitValue c < 10 := by
  simp only [Char.isDigit, Bool.and_eq_true, decide_eq_true_eq, ge_iff_le,
    UInt32.le_iff_toNat_le] at h
  have hlow : '0'.val.toNat = 48 := rfl
  have hhigh : '9'.val.toNat = 57 := rfl
  simp only [digitValue, Char.toNat]
  omega

/-- The value of a digit character; `none` for any other character. -/
def digit? (c : Char) : Option (Fin 10) :=
  if h : c.isDigit = true then some ⟨digitValue c, digitValue_lt h⟩ else none

/-- How many digits are gathered before they join the number being read. -/
def blockWidth : Nat := 18

/-- A run of digits that is being read: the number `whole * scale + part`. -/
structure DigitRun where
  /-- The digits of the finished blocks. -/
  whole : Nat
  /-- The digits of the open block. -/
  part : Nat
  /-- Ten to the number of digits in the open block. -/
  scale : Nat
  /-- The number of digits in the open block. -/
  width : Nat
  /-- The number of digits in all. -/
  count : Nat

namespace DigitRun

/-- The run of no digits. -/
def empty : DigitRun := ⟨0, 0, 1, 0, 0⟩

/-- The number that the digits read so far write. -/
def value (r : DigitRun) : Nat := r.whole * r.scale + r.part

/-- Reads one more digit. -/
def push (r : DigitRun) (d : Nat) : DigitRun :=
  if r.width < blockWidth then
    ⟨r.whole, r.part * 10 + d, r.scale * 10, r.width + 1, r.count + 1⟩
  else
    ⟨r.value, d, 10, 1, r.count + 1⟩

@[simp] theorem value_empty : empty.value = 0 := rfl

@[simp] theorem value_push (r : DigitRun) (d : Nat) : (r.push d).value = r.value * 10 + d := by
  unfold push
  split
  · simp only [value, Nat.add_mul, Nat.mul_assoc, Nat.add_assoc]
  · rfl

@[simp] theorem count_push (r : DigitRun) (d : Nat) : (r.push d).count = r.count + 1 := by
  unfold push
  split <;> rfl

/-- Reads the digits at the beginning of a text, and hands back what follows
them. -/
def read (r : DigitRun) : List Char → DigitRun × List Char
  | [] => (r, [])
  | c :: text => if c.isDigit then (r.push (digitValue c)).read text else (r, c :: text)

/-- The digits that are read are those at the beginning, one after the other. -/
theorem read_fst (r : DigitRun) (text : List Char) :
    (r.read text).1 = (text.takeWhile Char.isDigit).foldl (fun r c => r.push (digitValue c)) r := by
  induction text generalizing r with
  | nil => rfl
  | cons c text ih =>
    by_cases h : c.isDigit = true
    · rw [List.takeWhile_cons_of_pos h, List.foldl_cons, ← ih, read, if_pos h]
    · rw [List.takeWhile_cons_of_neg h, read, if_neg h, List.foldl_nil]

/-- What follows the digits is handed back untouched. -/
theorem read_snd (r : DigitRun) (text : List Char) :
    (r.read text).2 = text.dropWhile Char.isDigit := by
  induction text generalizing r with
  | nil => rfl
  | cons c text ih =>
    by_cases h : c.isDigit = true
    · rw [List.dropWhile_cons_of_pos h, ← ih (r.push (digitValue c)), read, if_pos h]
    · rw [List.dropWhile_cons_of_neg h, read, if_neg h]

end DigitRun

/-- The number that a text of digits writes; `none` for the empty text and for one
that holds anything else. -/
def readDigits? (text : List Char) : Option Nat :=
  match DigitRun.empty.read text with
  | (run, []) => if run.count = 0 then none else some run.value
  | (_, _ :: _) => none

/-- A number in decimal digits, without leading zeros. -/
def digitsText (n : Nat) : List Char := Nat.toDigits 10 n

end OperatorPrecedence
