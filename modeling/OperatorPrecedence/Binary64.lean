import OperatorPrecedence.Rounding

/-!
# Doubles, exactly

What a double stands for, and the double nearest to a ratio of natural numbers.

A finite double is a significand below `2 ^ 53` times a power of two whose
exponent is at least `-1074`.  Its bit pattern without the sign counts the
doubles upwards from zero, so that the pattern of `m * 2 ^ q` is
`(q + 1074) * binade + m` for normal and subnormal doubles alike, and one step
past the largest finite double is infinity.

## Main definitions

* `Binary64` — a double taken apart.
* `Binary64.ofFloat` — takes a double apart.
* `Binary64.ofRatio` — the double nearest to a ratio, ties to the even one.
-/

namespace OperatorPrecedence

/-- What a double stands for. -/
inductive Binary64 where
  /-- No number; its sign and payload are not told apart. -/
  | nan
  /-- An infinity. -/
  | infinity (negative : Bool)
  /-- The number `significand * 2 ^ exponent`, or its negation. -/
  | finite (negative : Bool) (significand : Nat) (exponent : Int)
  deriving DecidableEq

namespace Binary64

/-- The number of doubles between one power of two and the next, `2 ^ 52`: the least
significand of the doubles that are not subnormal. -/
def binade : Nat := 1 <<< 52

/-- The bit pattern of positive infinity. -/
def infinityBits : Nat := 2047 * binade

/-- The bit that makes a double negative. -/
def signBit : Nat := 1 <<< 63

/-- The exponent of the subnormal doubles, and the least of all. -/
def leastExponent : Int := -1074

/-- Takes a double apart. -/
def ofFloat (x : Float) : Binary64 :=
  let bits := x.toBits.toNat
  let negative := decide (signBit ≤ bits)
  let biased : Nat := bits / binade % 2048
  let fraction : Nat := bits % binade
  if biased = 2047 then
    if fraction = 0 then .infinity negative else .nan
  else if biased = 0 then
    .finite negative fraction leastExponent
  else
    .finite negative (fraction + binade) (leastExponent + (biased - 1 : Nat))

/-- The largest `k` with `2 ^ k ≤ n / d`, for positive `n` and `d`. -/
def floorLog2 (n d : Nat) : Int :=
  let k : Int := n.log2 - d.log2
  if d <<< k.toNat ≤ n <<< (-k).toNat then k else k - 1

/-- The bit pattern of the double nearest to `n / d`, for positive `n` and `d`.
Of two equally near doubles it is the one with an even pattern. -/
def bitsOfRatio (n d : Nat) : Nat :=
  let q := max (floorLog2 n d - 52) leastExponent
  let m := nearestEven (n <<< (-q).toNat) (d <<< q.toNat)
  min ((q - leastExponent).toNat * binade + m) infinityBits

/-- The double nearest to `n / d`, for positive `n` and `d`: infinity if that
lies too far out, zero if it lies too close to zero. -/
def ofRatio (n d : Nat) : Float :=
  Float.ofBits (UInt64.ofNat (bitsOfRatio n d))

/-- Positive infinity. -/
def positiveInfinity : Float := Float.ofBits (UInt64.ofNat infinityBits)

/-- The pattern of all ones in the exponent with a fraction behind it: no number. -/
def notANumber : Float := Float.ofBits (UInt64.ofNat (infinityBits + binade / 2))

end Binary64

end OperatorPrecedence
