import Mathlib.Data.List.TakeWhile
import OperatorPrecedence.Expression
import OperatorPrecedence.Numbers.Double

/-!
# Texts of digits and points

A literal is made of digits and points, but not every text of these is a number: it takes a digit,
and there must not be a second point.  That is all it takes.  None of the words for other numbers
can be spelled with digits and points, and there is no letter for an exponent to begin with.

## Main definitions

* `ReadsDecimals` — the texts of digits and points that are numbers.

## Main results

* `Numeral.isSome_decimal?_iff` — digits with at most one point among them are a number.
* `readsDecimals_float` — **doubles are read from digits with at most one point among them**.
-/

namespace OperatorPrecedence

/-- **Of the texts of digits and points, those with a digit and without a second point are
numbers**, and the others are none. -/
def ReadsDecimals (ν : Type) [Numbers ν] : Prop :=
  ∀ text : List Char, (∀ c ∈ text, isNumeric c = true) →
    ((Numbers.read? text : Option ν).isSome = true ↔
      (∃ c ∈ text, c.isDigit = true) ∧ text.count '.' ≤ 1)

/-! ### Digits and points -/

/-- A character of a literal that is no point is a digit. -/
theorem isDigit_of_isNumeric {c : Char} (h : isNumeric c = true) (hc : c ≠ '.') :
    c.isDigit = true := by
  simpa [isNumeric, hc] using h

/-- A text of digits and points has a first point, or it consists of digits. -/
theorem digits_or_point {text : List Char} (h : ∀ c ∈ text, isNumeric c = true) :
    (∀ c ∈ text, c.isDigit = true) ∨
      ∃ whole rest, text = whole ++ '.' :: rest ∧ (∀ c ∈ whole, c.isDigit = true) := by
  by_cases hpoint : '.' ∈ text
  · obtain ⟨whole, rest, rfl, hwhole⟩ := List.eq_append_cons_of_mem hpoint
    refine .inr ⟨whole, rest, rfl, ?_⟩
    intro c hc
    exact isDigit_of_isNumeric (h c (List.mem_append_left _ hc)) (ne_of_mem_of_not_mem hc hwhole)
  · refine .inl ?_
    intro c hc
    exact isDigit_of_isNumeric (h c hc) (ne_of_mem_of_not_mem hc hpoint)

theorem point_notMem_of_digits {text : List Char} (h : ∀ c ∈ text, c.isDigit = true) :
    '.' ∉ text := by
  intro hmem
  exact absurd (h '.' hmem) (by decide)

/-- There is a digit among digits, unless there are none at all. -/
theorem exists_isDigit_iff {digits : List Char} (h : ∀ c ∈ digits, c.isDigit = true) :
    (∃ c ∈ digits, c.isDigit = true) ↔ digits.length ≠ 0 := by
  cases digits with
  | nil => simp
  | cons c digits => exact iff_of_true ⟨c, List.mem_cons_self, h c List.mem_cons_self⟩ (by simp)

/-! ### Reading numbers -/

/-- Digits are read up to the first character that is none. -/
theorem DigitRun.exists_read (r : DigitRun) {digits : List Char}
    (hdigits : ∀ c ∈ digits, c.isDigit = true) (rest : List Char)
    (hrest : ∀ c ∈ rest.head?, c.isDigit = false) :
    ∃ run : DigitRun, r.read (digits ++ rest) = (run, rest) ∧
      run.count = r.count + digits.length := by
  induction digits generalizing r with
  | nil =>
    cases rest with
    | nil => exact ⟨r, rfl, rfl⟩
    | cons c rest =>
      have hc : c.isDigit = false := hrest c rfl
      exact ⟨r, by simp [read, hc], rfl⟩
  | cons c digits ih =>
    have hc : c.isDigit = true := hdigits c List.mem_cons_self
    obtain ⟨run, hread, hcount⟩ :=
      ih (r.push (digitValue c)) fun d hd => hdigits d (List.mem_cons_of_mem c hd)
    refine ⟨run, ?_, ?_⟩
    · rw [List.cons_append, read, if_pos hc, hread]
    · rw [hcount, count_push, List.length_cons]
      omega

namespace Numeral

/-- No exponent begins with a point. -/
theorem exponent?_point (text : List Char) : exponent? ('.' :: text) = none := rfl

/-- **Digits with at most one point among them are a number.** -/
theorem isSome_decimal?_iff (negative : Bool) {text : List Char}
    (h : ∀ c ∈ text, isNumeric c = true) :
    (decimal? negative text).isSome = true ↔
      (∃ c ∈ text, c.isDigit = true) ∧ text.count '.' ≤ 1 := by
  rcases digits_or_point h with hdigits | ⟨whole, rest, rfl, hwhole⟩
  · obtain ⟨run, hread, hcount⟩ := DigitRun.empty.exists_read hdigits [] (by simp)
    rw [List.append_nil] at hread
    have hlength : run.count = text.length := hcount.trans (Nat.zero_add _)
    have hpoints : text.count '.' = 0 := List.count_eq_zero.mpr (point_notMem_of_digits hdigits)
    unfold decimal?
    rw [exists_isDigit_iff hdigits, hpoints, ← hlength, hread]
    by_cases hzero : run.count = 0 <;> simp [hzero, exponent?]
  · have hrest : ∀ c ∈ rest, isNumeric c = true := fun c hc =>
      h c (List.mem_append_right _ (List.mem_cons_of_mem _ hc))
    obtain ⟨run, hread, hcount⟩ := DigitRun.empty.exists_read hwhole ('.' :: rest) (by simp)
    have hnone : whole.count '.' = 0 := List.count_eq_zero.mpr (point_notMem_of_digits hwhole)
    rcases digits_or_point hrest with hdigits | ⟨fraction, tail, rfl, hfraction⟩
    · -- the digits behind the point are the last ones
      obtain ⟨run', hread', hcount'⟩ := run.exists_read hdigits [] (by simp)
      rw [List.append_nil] at hread'
      have hpoints : (whole ++ '.' :: rest).count '.' = 1 := by
        rw [List.count_append, List.count_cons_self, hnone,
          List.count_eq_zero.mpr (point_notMem_of_digits hdigits)]
      have hlength : run'.count = (whole ++ rest).length := by
        rw [hcount', hcount, List.length_append]
        exact congrArg (· + rest.length) (Nat.zero_add _)
      have hdigit : (∃ c ∈ whole ++ '.' :: rest, c.isDigit = true) ↔ run'.count ≠ 0 := by
        rw [hlength, ← exists_isDigit_iff (List.forall_mem_append.mpr ⟨hwhole, hdigits⟩)]
        simp [or_and_right, exists_or]
      unfold decimal?
      rw [hdigit, hpoints, hread]
      simp only [hread']
      by_cases hzero : run'.count = 0 <;> simp [hzero, exponent?]
    · -- there is a second point
      obtain ⟨run', hread', hcount'⟩ := run.exists_read hfraction ('.' :: tail) (by simp)
      have hpoints : 1 < (whole ++ '.' :: (fraction ++ '.' :: tail)).count '.' := by
        rw [List.count_append, List.count_cons_self, List.count_append, List.count_cons_self]
        omega
      unfold decimal?
      rw [hread]
      simp only [hread', exponent?_point]
      refine iff_of_false ?_ fun hboth => absurd hboth.2 (Nat.not_le.mpr hpoints)
      split <;> simp

/-- Digits and points have no capitals. -/
theorem toLower_of_isNumeric {c : Char} (h : isNumeric c = true) : c.toLower = c := by
  have hlow : c.val ≤ '9'.val := by
    simp only [isNumeric, Bool.or_eq_true, beq_iff_eq, Char.isDigit, Bool.and_eq_true,
      decide_eq_true_eq] at h
    rcases h with hdigit | rfl
    · exact hdigit.2
    · decide
  unfold Char.toLower
  rw [dif_neg]
  intro hcapital
  exact absurd (UInt32.le_trans hcapital.1 hlow) (by decide)

/-- No word can be spelled with digits and points. -/
theorem word?_of_numeric (negative : Bool) {text : List Char}
    (h : ∀ c ∈ text, isNumeric c = true) : word? negative text = none := by
  have hsame : text.map Char.toLower = text := by
    rw [List.map_congr_left fun c hc => toLower_of_isNumeric (h c hc), List.map_id']
  unfold word?
  rw [hsame]
  split
  · exact absurd (h 'n' List.mem_cons_self) (by decide)
  · exact absurd (h 'i' List.mem_cons_self) (by decide)
  · exact absurd (h 'i' List.mem_cons_self) (by decide)
  · rfl

/-- No sign can be spelled with digits and points, either. -/
theorem isSome_ofText?_iff {text : List Char} (h : ∀ c ∈ text, isNumeric c = true) :
    (ofText? text).isSome = true ↔ (∃ c ∈ text, c.isDigit = true) ∧ text.count '.' ≤ 1 := by
  have hunsigned : ofText? text = unsigned? false text := by
    unfold ofText?
    split
    · exact absurd (h '-' List.mem_cons_self) (by decide)
    · exact absurd (h '+' List.mem_cons_self) (by decide)
    · rfl
  rw [hunsigned, unsigned?, word?_of_numeric false h, Option.or_none, isSome_decimal?_iff false h]

end Numeral

/-- **Doubles are read from digits with at most one point among them**, and from no other text of
digits and points. -/
theorem readsDecimals_float : ReadsDecimals Float := by
  intro text h
  show ((Numeral.ofText? text).map Numeral.toFloat).isSome = true ↔ _
  rw [Option.isSome_map, Numeral.isSome_ofText?_iff h]

end OperatorPrecedence
