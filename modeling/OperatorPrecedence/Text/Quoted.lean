import OperatorPrecedence.Text.GraphemeExtend
import OperatorPrecedence.Text.Unprintable

/-!
# Quoted characters

A character between single quotes, for a message.  Six characters have a short
escape of their own; a character that would not show, or would join the quote
before it, is written as its code point in hexadecimal; any other stands for
itself.

## Main definitions

* `escaped` — a character as it stands between the quotes.
* `quoted` — a character between single quotes.
-/

namespace OperatorPrecedence

/-- The code point of a character as an escape: `u` and the hexadecimal digits
in braces, behind a backslash. -/
def codePointEscape (c : Char) : List Char :=
  ['\\', 'u', '\x7b'] ++ Nat.toDigits 16 c.toNat ++ ['\x7d']

/-- A character as it stands between single quotes. -/
def escaped (c : Char) : List Char :=
  match c with
  | '\x00' => ['\\', '0']
  | '\t' => ['\\', 't']
  | '\n' => ['\\', 'n']
  | '\r' => ['\\', 'r']
  | '\'' => ['\\', '\'']
  | '\\' => ['\\', '\\']
  | c => if extendsGrapheme c || isUnprintable c then codePointEscape c else [c]

/-- A character between single quotes. -/
def quoted (c : Char) : List Char := '\'' :: escaped c ++ ['\'']

end OperatorPrecedence
