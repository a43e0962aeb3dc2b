import OperatorPrecedence.Decimal.Digits
import OperatorPrecedence.Rounding

/-!
# Decimal expansions

A number with finitely many decimal places, rounded to fewer places and written
out.

## Main definitions

* `Expansion` — a natural number of units of the last decimal place.
* `Expansion.ofBinary` — the expansion of a natural number times a power of two.
* `Expansion.toPlaces` — rounds to a number of places, ties to the even digit.
* `Expansion.text` — writes an expansion with all of its places.
-/

namespace OperatorPrecedence

/-- The number `digits / 10 ^ places`. -/
structure Expansion where
  /-- The number in units of its last place. -/
  digits : Nat
  /-- How many digits stand behind the decimal point. -/
  places : Nat
  deriving DecidableEq

namespace Expansion

/-- The expansion of `significand * 2 ^ exponent`, to as many places as the
power of two has halvings: each halving takes one more place, as
`1 / 2 = 5 / 10`. -/
def ofBinary (significand : Nat) : Int → Expansion
  | .ofNat e => ⟨significand <<< e, 0⟩
  | .negSucc e => ⟨significand * Nat.pow 5 (e + 1), e + 1⟩

/-- The nearest number with a given number of places; of two equally near ones
the one whose last digit is even. -/
def toPlaces (x : Expansion) (places : Nat) : Expansion :=
  if x.places ≤ places then
    ⟨x.digits * Nat.pow 10 (places - x.places), places⟩
  else
    ⟨nearestEven x.digits (Nat.pow 10 (x.places - places)), places⟩

@[simp] theorem places_toPlaces (x : Expansion) (places : Nat) :
    (x.toPlaces places).places = places := by
  unfold toPlaces
  split <;> rfl

/-- The digits of an expansion, with zeros in front so that at least one digit
stands before the decimal point. -/
def paddedDigits (x : Expansion) : List Char :=
  let digits := digitsText x.digits
  List.replicate (x.places + 1 - digits.length) '0' ++ digits

/-- An expansion written with all of its places, and with a decimal point if it
has any. -/
def text (x : Expansion) : List Char :=
  if x.places = 0 then
    x.paddedDigits
  else
    let whole := x.paddedDigits.length - x.places
    x.paddedDigits.take whole ++ '.' :: x.paddedDigits.drop whole

end Expansion

end OperatorPrecedence
