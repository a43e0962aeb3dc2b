import OperatorPrecedence.Binary64
import OperatorPrecedence.Decimal.Digits

/-!
# Reading numbers

The written forms of a number, and the double nearest to what they say.

A number is an optional sign followed by one of the words `inf`, `infinity` and
`nan`, in capitals or not, or by digits with an optional decimal point among or
around them.  At least one digit is needed.  An exponent may follow: the letter
`e`, an optional sign and at least one digit.  Nothing else may stand before,
between or behind these parts.

## Main definitions

* `Numeral` — what a written number says.
* `Numeral.ofText?` — reads a written number.
* `Numeral.toFloat` — the double nearest to a number.
-/

namespace OperatorPrecedence

/-- What a written number says. -/
inductive Numeral where
  /-- The word for no number. -/
  | nan
  /-- The word for infinity, with its sign. -/
  | infinity (negative : Bool)
  /-- The number `digits * 10 ^ exponent`, or its negation. -/
  | decimal (negative : Bool) (digits : Nat) (exponent : Int)
  deriving DecidableEq

namespace Numeral

/-- An exponent that has come this far takes no further digits, since the
number is long out of reach whatever they are. -/
def exponentLimit : Nat := 65536

/-- The number that the digits of an exponent write. -/
def exponentDigits? (text : List Char) : Option Nat :=
  if text.isEmpty || !text.all Char.isDigit then
    none
  else
    some (text.foldl (fun e c => if e < exponentLimit then e * 10 + digitValue c else e) 0)

/-- The exponent written behind the digits of a number: zero if there is nothing,
`none` if what stands there is no exponent. -/
def exponent? : List Char → Option Int
  | [] => some 0
  | c :: text =>
    if c = 'e' ∨ c = 'E' then
      match text with
      | '-' :: digits => (exponentDigits? digits).map fun e => -(e : Int)
      | '+' :: digits => (exponentDigits? digits).map fun e => (e : Int)
      | digits => (exponentDigits? digits).map fun e => (e : Int)
    else
      none

/-- Reads digits with an optional point and an optional exponent.  The digits
behind the point continue those before it, and each of them lowers the exponent
by one. -/
def decimal? (negative : Bool) (text : List Char) : Option Numeral :=
  let (whole, rest) := DigitRun.empty.read text
  let (run, rest) := match rest with
    | '.' :: rest => whole.read rest
    | rest => (whole, rest)
  if run.count = 0 then
    none
  else
    (exponent? rest).map fun e => decimal negative run.value (e - (run.count - whole.count : Nat))

/-- Reads one of the words, in capitals or not. -/
def word? (negative : Bool) (text : List Char) : Option Numeral :=
  match text.map Char.toLower with
  | ['n', 'a', 'n'] => some nan
  | ['i', 'n', 'f'] => some (infinity negative)
  | ['i', 'n', 'f', 'i', 'n', 'i', 't', 'y'] => some (infinity negative)
  | _ => none

/-- Reads a number without its sign. -/
def unsigned? (negative : Bool) (text : List Char) : Option Numeral :=
  (decimal? negative text).or (word? negative text)

/-- Reads a written number; `none` if the text is not one. -/
def ofText? : List Char → Option Numeral
  | '-' :: text => unsigned? true text
  | '+' :: text => unsigned? false text
  | text => unsigned? false text

/-- The double nearest to `digits * 10 ^ exponent`.

Exponents above 310 lead past the largest double and are not carried out.  Nor
are those which put the number below `2 ^ -1076`, a quarter of the least positive double;
there `8 ^ k` stands in for the larger `10 ^ k`. -/
def nearest (digits : Nat) (exponent : Int) : Float :=
  if digits = 0 then
    Float.ofBits 0
  else
    match exponent with
    | .ofNat e =>
      if 310 < e then Binary64.positiveInfinity else Binary64.ofRatio (digits * Nat.pow 10 e) 1
    | .negSucc e =>
      if digits.log2 + 1077 < 3 * (e + 1) then Float.ofBits 0
      else Binary64.ofRatio digits (Nat.pow 10 (e + 1))

/-- The double nearest to a number. -/
def toFloat : Numeral → Float
  | nan => Binary64.notANumber
  | infinity false => Binary64.positiveInfinity
  | infinity true => -Binary64.positiveInfinity
  | decimal false digits exponent => nearest digits exponent
  | decimal true digits exponent => -nearest digits exponent

end Numeral

end OperatorPrecedence
