import Mathlib.Data.Rat.Cast.Order
import Mathlib.Tactic.FieldSimp
import Mathlib.Tactic.Linarith
import Mathlib.Tactic.Positivity
import OperatorPrecedence.Decimal.Render

/-!
# What is written for a double

A finite double is written in positional notation with exactly the decimal places that are asked
for, and what is written is at most half a unit of the last place away from the double.

An expansion goes through three hands.  It is taken from the double without loss, it is rounded to
the places, and it is spread over the text, with zeros in front if there are too few digits.

## Main definitions

* `Expansion.number` — the number that an expansion stands for.
* `Writes` — a text writes a number to a number of decimal places.

## Main results

* `Expansion.number_ofBinary` — nothing is lost of a double.
* `Expansion.number_toPlaces_near` — rounding goes to a nearest number with so many places.
* `writes_fixedText` — **a finite double is written with the places that are asked for**.
* `lineFeed_notMem_fixedText` — what is written for a double is a single line.
-/

namespace OperatorPrecedence

/-! ### The number of an expansion -/

namespace Expansion

/-- The number that an expansion stands for. -/
def number (x : Expansion) : ℚ := x.digits / 10 ^ x.places

/-- Nothing is lost of a natural number times a power of two. -/
theorem number_ofBinary (m : Nat) (q : Int) : (ofBinary m q).number = m * 2 ^ q := by
  cases q with
  | ofNat e =>
    have hdigits : ((m <<< e : Nat) : ℚ) = m * 2 ^ e := by
      rw [Nat.shiftLeft_eq]
      push_cast
      rfl
    simp only [number, ofBinary, hdigits, pow_zero, div_one, Int.ofNat_eq_natCast, zpow_natCast]
  | negSucc e =>
    -- each halving is a place more, with five times the digits
    have hten : (10 : ℚ) ^ (e + 1) = 2 ^ (e + 1) * 5 ^ (e + 1) := by
      rw [← mul_pow]
      norm_num
    have hdigits : ((m * Nat.pow 5 (e + 1) : Nat) : ℚ) = m * 5 ^ (e + 1) := by
      rw [Nat.pow_eq]
      push_cast
      rfl
    simp only [number, ofBinary, hdigits, hten, zpow_negSucc]
    field_simp

/-- **Rounding goes to a nearest number with so many places.** -/
theorem number_toPlaces_near (x : Expansion) (places : Nat) :
    |(x.toPlaces places).number - x.number| ≤ 1 / (2 * 10 ^ places) := by
  unfold toPlaces
  split
  · next hle =>
    -- there are places enough, and the number stays what it is
    have hten : (10 : ℚ) ^ places = 10 ^ (places - x.places) * 10 ^ x.places := by
      rw [← pow_add, Nat.sub_add_cancel hle]
    have hsame : number ⟨x.digits * Nat.pow 10 (places - x.places), places⟩ = x.number := by
      simp only [number, Nat.pow_eq, hten]
      push_cast
      field_simp
    rw [hsame, sub_self, abs_zero]
    positivity
  · next hgt =>
    set unit : Nat := Nat.pow 10 (x.places - places) with hunit
    have hpos : 0 < unit := Nat.pow_pos (by decide)
    have hten : (10 : ℚ) ^ x.places = 10 ^ places * unit := by
      rw [hunit, Nat.pow_eq]
      push_cast
      rw [← pow_add, Nat.add_sub_cancel' (Nat.le_of_not_le hgt)]
    obtain ⟨hlow, hhigh⟩ := nearestEven_near x.digits unit hpos
    have hlow' : (2 * x.digits : ℚ) ≤ (2 * nearestEven x.digits unit + 1) * unit := by
      exact_mod_cast hlow
    have hhigh' : (2 * nearestEven x.digits unit * unit : ℚ) ≤ 2 * x.digits + unit := by
      exact_mod_cast hhigh
    have hunitPos : (0 : ℚ) < unit := by exact_mod_cast hpos
    have hplaces : (0 : ℚ) < 10 ^ places := by positivity
    have hdifference : number ⟨nearestEven x.digits unit, places⟩ - x.number =
        (nearestEven x.digits unit * unit - x.digits) / (10 ^ places * unit) := by
      simp only [number, hten]
      field_simp
    rw [hdifference, abs_le]
    constructor
    · rw [le_div_iff₀ (by positivity)]
      field_simp
      linarith
    · rw [div_le_iff₀ (by positivity)]
      field_simp
      linarith

/-! ### The digits of an expansion -/

theorem isDigit_of_mem_paddedDigits {x : Expansion} {c : Char} (h : c ∈ x.paddedDigits) :
    c.isDigit = true := by
  rcases List.mem_append.mp h with hzero | hdigit
  · rw [List.eq_of_mem_replicate hzero]
    rfl
  · exact Nat.isDigit_of_mem_toDigits (by decide) (by decide) hdigit

/-- The digits write the number in units of its last place. -/
theorem ofDigitChars_paddedDigits (x : Expansion) :
    Nat.ofDigitChars 10 x.paddedDigits 0 = x.digits := by
  unfold paddedDigits digitsText
  rw [Nat.ofDigitChars_append, Nat.ofDigitChars_replicate_zero, Nat.mul_zero,
    Nat.ofDigitChars_ten_toDigits]

/-- There is a digit for each place, and one more in front of the point. -/
theorem places_lt_length_paddedDigits (x : Expansion) : x.places < x.paddedDigits.length := by
  unfold paddedDigits
  rw [List.length_append, List.length_replicate]
  omega

end Expansion

/-! ### Positional notation -/

/-- **A text writes a number to a number of decimal places.**  It has a sign if asked for, at least
one digit in front of the point, and a digit behind it for each place; without places there is no
point.  The digits make a number that is at most half a unit of the last place away. -/
def Writes (negative : Bool) (places : Nat) (x : ℚ) (text : List Char) : Prop :=
  ∃ whole fraction : List Char,
    text = (if negative then ['-'] else []) ++ whole ++
      (if places = 0 then [] else '.' :: fraction) ∧
    whole ≠ [] ∧ fraction.length = places ∧
    (∀ c ∈ whole ++ fraction, c.isDigit = true) ∧
    |(Nat.ofDigitChars 10 (whole ++ fraction) 0 : ℚ) / 10 ^ places - x| ≤ 1 / (2 * 10 ^ places)

/-- An expansion is written with all of its places, and as the number that it stands for. -/
theorem Expansion.exists_of_text (x : Expansion) :
    ∃ whole fraction : List Char,
      x.text = whole ++ (if x.places = 0 then [] else '.' :: fraction) ∧
      whole ≠ [] ∧ fraction.length = x.places ∧
      (∀ c ∈ whole ++ fraction, c.isDigit = true) ∧
      Nat.ofDigitChars 10 (whole ++ fraction) 0 = x.digits := by
  have hlength := x.places_lt_length_paddedDigits
  refine ⟨x.paddedDigits.take (x.paddedDigits.length - x.places),
    x.paddedDigits.drop (x.paddedDigits.length - x.places), ?_, ?_, ?_, ?_, ?_⟩
  · unfold text
    split
    · next hzero => rw [hzero, Nat.sub_zero, List.take_length, List.append_nil]
    · rfl
  · rw [← List.length_pos_iff, List.length_take]
    omega
  · rw [List.length_drop]
    omega
  · rw [List.take_append_drop]
    exact fun c hc => isDigit_of_mem_paddedDigits hc
  · rw [List.take_append_drop, ofDigitChars_paddedDigits]

theorem toList_signed (negative : Bool) (text : List Char) :
    (signed negative text).toList = (if negative then ['-'] else []) ++ text := by
  cases negative <;> simp [signed]

/-- **A finite double is written with the places that are asked for.** -/
theorem writes_fixedText {x : Float} {negative : Bool} {m : Nat} {q : Int}
    (hx : Binary64.ofFloat x = .finite negative m q) (places : Nat) :
    Writes negative places (m * 2 ^ q) (fixedText places x).toList := by
  set rounded := (Expansion.ofBinary m q).toPlaces places with hrounded
  have hplaces : rounded.places = places := Expansion.places_toPlaces _ places
  obtain ⟨whole, fraction, htext, hwhole, hfraction, hdigits, hnumber⟩ := rounded.exists_of_text
  refine ⟨whole, fraction, ?_, hwhole, hfraction.trans hplaces, hdigits, ?_⟩
  · unfold fixedText
    rw [hx]
    dsimp only
    rw [toList_signed, ← hrounded, htext, hplaces, List.append_assoc]
  · have hnear := (Expansion.ofBinary m q).number_toPlaces_near places
    rw [Expansion.number_ofBinary, ← hrounded, Expansion.number, hplaces] at hnear
    rw [hnumber]
    exact hnear

/-- What is written for a double is a single line. -/
theorem lineFeed_notMem_fixedText (places : Nat) (x : Float) :
    '\n' ∉ (fixedText places x).toList := by
  cases hx : Binary64.ofFloat x with
  | nan =>
    have htext : fixedText places x = "NaN" := by simp only [fixedText, hx]
    rw [htext]
    decide
  | infinity negative =>
    have htext : fixedText places x = signed negative ['i', 'n', 'f'] := by simp only [fixedText, hx]
    rw [htext, toList_signed]
    cases negative <;> decide
  | finite negative m q =>
    obtain ⟨whole, fraction, htext, -, -, hdigits, -⟩ := writes_fixedText hx places
    have hnot : '\n' ∉ whole ++ fraction := fun hmem => absurd (hdigits _ hmem) (by decide)
    obtain ⟨hwhole, hfraction⟩ := not_or.mp (mt List.mem_append.mpr hnot)
    rw [htext]
    cases negative <;> by_cases hzero : places = 0 <;> simp [hzero, hwhole, hfraction]

end OperatorPrecedence
