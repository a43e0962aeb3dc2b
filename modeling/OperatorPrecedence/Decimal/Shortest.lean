import OperatorPrecedence.Decimal.Expansion

/-!
# The shortest decimal in an interval

The decimal number with the fewest digits in an interval around a given number,
and of those the one nearest to it.

The decimals that are multiples of `10 ^ k` form a grid.  The search starts on a
grid coarser than the number itself and refines it step by step.  On each grid
only the two neighbours of the number need a look, for if any multiple lies in
the interval then so does one of these two.  The finest grid holds the number
itself, so the search always ends.

## Main definitions

* `Span` — an interval around a natural number, its ends in quarters of a unit.
* `Span.neighbour?` — the nearest multiple of a power of ten in the interval.
* `Span.shortest` — the shortest decimal in the interval.
-/

namespace OperatorPrecedence

/-- The natural number `value` and an interval around it.  The ends are given in
quarters of a unit. -/
structure Span where
  /-- The number that the interval surrounds. -/
  value : Nat
  /-- Four times the lower end. -/
  low : Nat
  /-- Four times the upper end. -/
  high : Nat
  /-- Whether the ends belong to the interval. -/
  closed : Bool

namespace Span

/-- Whether a natural number lies in the interval. -/
def contains (s : Span) (n : Nat) : Bool :=
  if s.closed then s.low ≤ 4 * n && 4 * n ≤ s.high else s.low < 4 * n && 4 * n < s.high

/-- The multiple of `10 ^ k` in the interval that is nearest to the number, as a
count of `10 ^ k`.  In the middle between two of them it is the larger one. -/
def neighbour? (s : Span) (k : Nat) : Option Nat :=
  let unit := Nat.pow 10 k
  let below := s.value / unit
  let above := below + 1
  match s.contains (below * unit), s.contains (above * unit) with
  | true, true => some (if 2 * s.value < (below + above) * unit then below else above)
  | true, false => some below
  | false, true => some above
  | false, false => none

/-- The coarsest grid from `10 ^ k` down with a point in the interval, and that
point: the pair `(d, j)` stands for `d * 10 ^ j`. -/
def search (s : Span) : Nat → Nat × Nat
  | 0 => (s.value, 0)
  | k + 1 =>
    match s.neighbour? (k + 1) with
    | some d => (d, k + 1)
    | none => s.search k

/-- The decimal `d * 10 ^ j` with the fewest digits in the interval, and of those
the nearest one, as the pair `(d, j)`. -/
def shortest (s : Span) : Nat × Nat := s.search (digitsText s.value).length

end Span

end OperatorPrecedence
