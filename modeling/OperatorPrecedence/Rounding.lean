/-!
# Rounding to the nearest integer

Quotients of natural numbers are rounded to the nearest integer; one that lies
in the middle between two goes to the even one.

## Main definitions

* `nearestEven` — the integer nearest to a quotient.
-/

namespace OperatorPrecedence

/-- The integer nearest to `n / d`; of two equally near ones the even one. -/
def nearestEven (n d : Nat) : Nat :=
  let q := n / d
  let r := n % d
  if d < 2 * r ∨ d = 2 * r ∧ q % 2 = 1 then q + 1 else q

/-- The integer chosen is at most half a unit away from the quotient. -/
theorem nearestEven_near (n d : Nat) (h : 0 < d) :
    2 * n ≤ (2 * nearestEven n d + 1) * d ∧ 2 * nearestEven n d * d ≤ 2 * n + d := by
  have split := Nat.div_add_mod n d
  have lt := Nat.mod_lt n h
  simp only [nearestEven]
  generalize n / d = q at *
  generalize n % d = r at *
  subst split
  split
  · constructor <;> simp only [Nat.mul_add, Nat.add_mul, Nat.mul_assoc, Nat.mul_comm q d] <;> omega
  · constructor <;> simp only [Nat.mul_add, Nat.add_mul, Nat.mul_assoc, Nat.mul_comm q d] <;> omega

/-- A quotient in the middle between two integers goes to the even one. -/
theorem nearestEven_middle (n d : Nat) (h : 2 * (n % d) = d) : nearestEven n d % 2 = 0 := by
  simp only [nearestEven]
  split <;> omega

end OperatorPrecedence
