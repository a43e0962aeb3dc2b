import OperatorPrecedence.Text.Ranges

/-!
# White space

The characters with the property `White_Space`, and the trimming of a text at its
end.

## Main definitions

* `blankRanges` — the code points with the property, in rising order.
* `isBlank` — whether a character is white space.
* `trimEnd` — a text without the white space at its end.
-/

namespace OperatorPrecedence

/-- The code points with the property `White_Space`, as ranges in rising order
with both ends included. -/
def blankRanges : Array (Nat × Nat) := #[
  (0x9, 0xd), (0x20, 0x20), (0x85, 0x85), (0xa0, 0xa0), (0x1680, 0x1680), (0x2000, 0x200a),
  (0x2028, 0x2029), (0x202f, 0x202f), (0x205f, 0x205f), (0x3000, 0x3000)]

/-- Whether a character is white space. -/
def isBlank (c : Char) : Bool := inRanges blankRanges c

/-- A text without the white space at its end. -/
def trimEnd (text : List Char) : List Char := (text.reverse.dropWhile isBlank).reverse

/-- What is trimmed away is white space, and nothing else is lost. -/
theorem trimEnd_append_blank (text : List Char) :
    ∃ blank, text = trimEnd text ++ blank ∧ ∀ c ∈ blank, isBlank c = true := by
  refine ⟨(text.reverse.takeWhile isBlank).reverse, ?_, fun c hc => ?_⟩
  · rw [trimEnd, ← List.reverse_append, List.takeWhile_append_dropWhile, List.reverse_reverse]
  · exact List.all_eq_true.1 List.all_takeWhile c (List.mem_reverse.1 hc)

/-- A text that ends in no white space stays as it is. -/
theorem trimEnd_append_singleton (text : List Char) {c : Char} (h : isBlank c = false) :
    trimEnd (text ++ [c]) = text ++ [c] := by
  simp [trimEnd, h]

end OperatorPrecedence
