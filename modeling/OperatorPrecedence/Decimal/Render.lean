import OperatorPrecedence.Binary64
import OperatorPrecedence.Decimal.Shortest

/-!
# Writing doubles

A double is written in positional notation, never with an exponent: either with
the fewest digits that read back as the same double, or with a given number of
digits behind the decimal point.  A negative sign is written for negative zero
too, but never for what is no number.

## Main definitions

* `Binary64.span` — the numbers that round to a double.
* `shortestText` — a double with the fewest digits that read back.
* `fixedText` — a double with a given number of decimal places.
-/

namespace OperatorPrecedence

namespace Binary64

/-- The decimal expansion of `significand * 2 ^ exponent` with the interval of
the numbers that round to this double, in units of the last decimal place.

The double above is a whole step away.  So is the one below, except under a power
of two, where steps are half as long.  A number in the middle between two
doubles rounds to the even one. -/
def span (significand : Nat) (exponent : Int) : Span × Nat :=
  let value := Expansion.ofBinary significand exponent
  let step := (Expansion.ofBinary 1 exponent).digits
  let below := if significand = binade ∧ leastExponent < exponent then step else 2 * step
  (⟨value.digits, 4 * value.digits - below, 4 * value.digits + 2 * step, significand % 2 = 0⟩,
    value.places)

/-- The shortest decimal that rounds to `significand * 2 ^ exponent`. -/
def shortest (significand : Nat) (exponent : Int) : Expansion :=
  if significand = 0 then
    ⟨0, 0⟩
  else
    let (s, places) := span significand exponent
    let (digits, zeros) := s.shortest
    ⟨digits * Nat.pow 10 (zeros - places), places - zeros⟩

end Binary64

/-- A sign in front of a text, if there is one. -/
def signed (negative : Bool) (text : List Char) : String :=
  String.ofList (if negative then '-' :: text else text)

/-- A double with the fewest digits that read back as the same double. -/
def shortestText (x : Float) : String :=
  match Binary64.ofFloat x with
  | .nan => "NaN"
  | .infinity negative => signed negative ['i', 'n', 'f']
  | .finite negative m q => signed negative (Binary64.shortest m q).text

/-- A double with a given number of digits behind the decimal point, rounded from
its exact value with ties to the even digit. -/
def fixedText (places : Nat) (x : Float) : String :=
  match Binary64.ofFloat x with
  | .nan => "NaN"
  | .infinity negative => signed negative ['i', 'n', 'f']
  | .finite negative m q => signed negative ((Expansion.ofBinary m q).toPlaces places).text

end OperatorPrecedence
