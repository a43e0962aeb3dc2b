import OperatorPrecedence.Proofs.Consumption
import OperatorPrecedence.Proofs.Faults
import OperatorPrecedence.Proofs.Invariant

/-!
# Completing what has been read

A text that the machine has read without stopping is the beginning of an expression, unless a
multiplication or division in it lacks its left operand.  It is completed by an operand, where
one is to begin, and by closing the parentheses that are open.  So a fault tells of the first
character behind which nothing can help any more: up to there the text can still be completed,
and with that character it cannot be.

Operations that lack their left operand are the exception, since they are noticed too late.

## Main definitions

* `finalOperand`, `closings` — what completes a text.
* `Finished` — a text that lacks closing parentheses at most.

## Main results

* `Finished.exists_value` — a finished text with all parentheses closed has a value.
* `Machine.Behind.completed` — what the machine has read can be completed.
* `evaluation_take_append` — a fault stays, whatever is put in the place of what follows it.
* `evaluation_completed` — **what is accepted can be completed, and faults are reported at
  once**.
-/

namespace OperatorPrecedence

open Stream' (Seq)

variable {ν : Type}

/-! ### Finished texts -/

/-- The operand that a text lacks at its end: zero, where one is to begin. -/
def finalOperand (text : List Char) : List Char := if awaitsOperand text then ['0'] else []

/-- A closing parenthesis for every one that is open. -/
def closings (text : List Char) : List Char :=
  List.replicate (text.count '(' - text.count ')') ')'

/-- **A text that lacks closing parentheses at most** to be an expression. -/
structure Finished (text : List Char) : Prop where
  clean : Clean text
  unterminated : '=' ∉ text
  complete : missing text = 0
  ended : endsOperand text = true

namespace Finished

variable {text : List Char}

theorem awaitsOperand_eq_false (h : Finished text) : awaitsOperand text = false := by
  rw [awaitsOperand_eq_not_endsOperand h.clean h.unterminated, h.ended, Bool.not_true]

/-- A final operand finishes a clean text. -/
theorem of_clean (hclean : Clean text) (hunterminated : '=' ∉ text) (hcomplete : missing text = 0) :
    Finished (text ++ finalOperand text) := by
  have hawaits := awaitsOperand_eq_not_endsOperand hclean hunterminated
  cases hends : endsOperand text with
  | true =>
    rw [finalOperand, hawaits, hends]
    simpa using ⟨hclean, hunterminated, hcomplete, hends⟩
  | false =>
    rw [finalOperand, hawaits, hends]
    -- no closing parenthesis stands in front of the zero
    have hlast : text.getLast? ≠ some ')' := by
      intro hlast
      simp [endsOperand, hlast] at hends
    have hzero : isNumeric '0' = true := rfl
    refine ⟨clean_append_singleton.mpr ⟨hclean, ?_⟩, ?_, ?_, ?_⟩
    · rw [defect?_of_numeric hzero, if_neg hlast]
    · simpa using hunterminated
    · simp [hcomplete, lacksOperand_of_numeric hzero]
    · simp [hzero]

/-- A closing parenthesis may follow as long as one is open. -/
theorem closing (h : Finished text) (hopen : text.count ')' < text.count '(') :
    Finished (text ++ [')']) := by
  refine ⟨clean_append_singleton.mpr ⟨h.clean, ?_⟩, ?_, ?_, ?_⟩
  · rw [defect?_closing, h.awaitsOperand_eq_false, if_neg Bool.false_ne_true,
      if_neg (Nat.ne_of_lt hopen)]
  · simpa using h.unterminated
  · simp [h.complete]
  · simp

theorem append_replicate (h : Finished text) (n : Nat)
    (hopen : text.count ')' + n ≤ text.count '(') :
    Finished (text ++ List.replicate n ')') := by
  induction n with
  | zero => simpa using h
  | succ n ih =>
    rw [List.replicate_succ', ← List.append_assoc]
    refine (ih (by omega)).closing ?_
    simp [List.count_append, List.count_replicate]
    omega

variable [Numbers ν]

/-- **A finished text with all parentheses closed has a value.** -/
theorem exists_value (h : Finished text) (hclosed : text.count '(' = text.count ')') :
    ∃ value, (evaluation none (text ++ ['=']) : Report ν).result = .ok value := by
  have hcomplete : missing (text ++ ['=']) = 0 := by
    simp [h.complete, h.awaitsOperand_eq_false]
  rcases evaluation_of_closed (ν := ν) [] h.clean h.unterminated hclosed with
    ⟨-, hvalue⟩ | ⟨hmissing, -⟩
  · exact hvalue
  · omega

end Finished

/-! ### Completing a text -/

/-- Nothing is missing from a text without a terminator if every multiplication and division
has its left operand. -/
theorem missing_eq_zero_of_supplied {text : List Char} (hunterminated : '=' ∉ text)
    (hsupplied : ∀ n < text.length, unsuppliedAt text n = false) : missing text = 0 := by
  rw [missing_eq_unsupplied hunterminated, unsupplied, List.countP_eq_zero]
  intro n hn
  rw [hsupplied n (List.mem_range.mp hn)]
  exact Bool.false_ne_true

variable [Numbers ν]

/-- **What the machine has read can be completed**, unless a multiplication or division lacks its
left operand. -/
theorem Machine.Behind.completed {text : List Char} {m : Machine ν} (h : m.Behind none text)
    (hsupplied : ∀ n < text.length, unsuppliedAt text n = false) :
    text.count ')' ≤ text.count '(' ∧
      ∃ value, (evaluation none (text ++ finalOperand text ++ closings text ++ ['=']) :
        Report ν).result = .ok value := by
  have hdepth := h.depth
  have hcomplete := missing_eq_zero_of_supplied h.unterminated hsupplied
  have hfinished := Finished.of_clean h.clean h.unterminated hcomplete
  -- the operand supplied opens and closes nothing
  have hcount : ∀ c : Char, c ≠ '0' → (finalOperand text).count c = 0 := by
    intro c hc
    unfold finalOperand
    split
    · exact List.count_eq_zero.mpr (mt List.mem_singleton.mp hc)
    · exact List.count_nil
  have hopening := hcount '(' (by decide)
  have hclosing := hcount ')' (by decide)
  refine ⟨by omega, ?_⟩
  refine (hfinished.append_replicate _ ?_).exists_value ?_
  · simp only [List.count_append, hopening, hclosing]
    omega
  · simp [List.count_append, List.count_replicate, hopening, hclosing]
    omega

/-! ### Where faults are reported -/

/-- **A fault stays**, whatever is put in the place of what follows it. -/
theorem evaluation_take_append {capacity : Option Nat} {source : List Char} {column : Nat}
    {cause : Cause} (h : (evaluation capacity source : Report ν).result = .error ⟨column, cause⟩)
    (hcause : cause ≠ .unexpectedEnd) (rest : List Char) :
    (evaluation capacity (source.take column ++ rest) : Report ν).result =
      .error ⟨column, cause⟩ := by
  have hconsumes := consumes_ofList (ν := ν) capacity source
  obtain ⟨hexhausted, hpulled, -⟩ := hconsumes.pulled_of_fault h hcause
  -- the characters that are pulled are those up to the fault
  have hsame : ∀ k < ((evaluation capacity source : Report ν).consumption source).pulled,
      (Seq.ofList (source.take column ++ rest)).get? k = (Seq.ofList source).get? k := by
    intro k hk
    have hsome := hconsumes.get?_isSome.1 k hk
    rw [hpulled] at hk
    rw [Seq.ofList_get?] at hsome ⊢
    have hlt : k < source.length := by simpa using hsome
    rw [List.getElem?_append_left (by simp; omega), List.getElem?_take_of_lt hk, Seq.ofList_get?]
  have hother := hconsumes.congr hsame (by simp [hexhausted])
  have heq := hother.unique (consumes_ofList capacity _)
  rw [← h]
  exact (congrArg Consumption.result heq).symm

/-- A fault that is not for the end of the input is reported at a character, and the machine
waits behind the text before it. -/
theorem exists_behind_of_fault {source : List Char} {column : Nat} {cause : Cause}
    (h : (evaluation none source : Report ν).result = .error ⟨column, cause⟩)
    (hcause : cause ≠ .unexpectedEnd) :
    ∃ text c rest, ∃ m : Machine ν, source = text ++ c :: rest ∧ column = text.length + 1 ∧
      m.Behind none text := by
  have hends := Machine.evaluation_ends (ν := ν) none source
  generalize (evaluation none source : Report ν) = report at h hends
  cases hends with
  | noRoom limited => cases limited
  | exhausted behind =>
    cases h
    exact absurd rfl hcause
  | @stopped text rest c m verdict source_eq behind reads =>
    exact ⟨text, c, rest, m, source_eq, (reads.reportable h).1, behind⟩

/-- The text in front of a fault can be completed, unless a multiplication or division lacks its
left operand there. -/
theorem exists_continuation {source : List Char} {column : Nat} {cause : Cause}
    (h : (evaluation none source : Report ν).result = .error ⟨column, cause⟩)
    (hcause : cause ≠ .unexpectedEnd)
    (hsupplied : ∀ n, n + 1 < column → unsuppliedAt source n = false) {n : Nat}
    (hn : n < column) :
    ∃ rest value, (evaluation none (source.take n ++ rest) : Report ν).result = .ok value := by
  obtain ⟨text, c, rest, m, rfl, rfl, hbehind⟩ := exists_behind_of_fault h hcause
  have hbefore : ∀ k < text.length, unsuppliedAt text k = false := by
    intro k hk
    rw [← hsupplied k (by omega), unsuppliedAt, unsuppliedAt, List.getElem?_append_left hk,
      List.take_append_of_le_length (Nat.le_of_lt hk)]
  obtain ⟨-, value, hvalue⟩ := hbehind.completed hbefore
  refine ⟨text.drop n ++ finalOperand text ++ closings text ++ ['='], value, ?_⟩
  rw [List.take_append_of_le_length (Nat.le_of_lt_succ hn), ← hvalue]
  simp only [List.append_assoc, ← List.append_assoc (text.take n), List.take_append_drop]

/-- **What is accepted can be completed, and faults are reported at once.**  If the input runs out
of a text in which no multiplication or division lacks its left operand, then no more parentheses
are closed in it than opened, and it becomes an expression by a zero, where an operand is to begin,
by closing all parentheses and by the terminator.  Any other fault is reported at the first
character behind which nothing leads to a value, unless some multiplication or division lacks its
left operand before that. -/
theorem evaluation_completed :
    (∀ (text : List Char) (column : Nat),
      (evaluation none text : Report ν).result = .error ⟨column, .unexpectedEnd⟩ →
      (∀ n < text.length, unsuppliedAt text n = false) →
        text.count ')' ≤ text.count '(' ∧
        ∃ value, (evaluation none (text ++ finalOperand text ++ closings text ++ ['=']) :
          Report ν).result = .ok value) ∧
    (∀ (source : List Char) (column : Nat) (cause : Cause),
      (evaluation none source : Report ν).result = .error ⟨column, cause⟩ →
      cause ≠ .unexpectedEnd →
      (∀ n, n + 1 < column → unsuppliedAt source n = false) →
        (∀ rest, (evaluation none (source.take column ++ rest) : Report ν).result =
          .error ⟨column, cause⟩) ∧
        ∀ n < column, ∃ rest value,
          (evaluation none (source.take n ++ rest) : Report ν).result = .ok value) := by
  refine ⟨?_, ?_⟩
  · intro text column h hsupplied
    have hends := Machine.evaluation_ends (ν := ν) none text
    generalize (evaluation none text : Report ν) = report at h hends
    cases hends with
    | noRoom limited => cases limited
    | exhausted behind => exact behind.completed hsupplied
    | stopped source_eq behind reads => cases (reads.reportable h).2
  · intro source column cause h hcause hsupplied
    refine ⟨evaluation_take_append h hcause, ?_⟩
    intro n hn
    exact exists_continuation h hcause hsupplied hn

/-- A sign in a group that is open, and the same group closed too early. -/
theorem completion_of_sign_in_group :
    (∃ value, (evaluation none ['2', '*', '(', '-', '0', ')', '='] : Report Float).result =
      .ok value) ∧
    (∀ rest, (evaluation none (['2', '*', '(', ')'] ++ rest) : Report Float).result =
      .error ⟨4, .missingOperand⟩) ∧
    ∃ rest value, (evaluation none (['2', '*', '('] ++ rest) : Report Float).result = .ok value := by
  obtain ⟨hcompleted, hreported⟩ := evaluation_completed (ν := Float)
  obtain ⟨-, hvalue⟩ := hcompleted ['2', '*', '(', '-'] 5 rfl (by decide)
  have hsupplied : ∀ n < 3, unsuppliedAt ['2', '*', '(', ')', '='] n = false := by decide
  obtain ⟨hfault, hbefore⟩ := hreported ['2', '*', '(', ')', '='] 4 .missingOperand rfl nofun
    fun n hn => hsupplied n (Nat.lt_of_succ_lt_succ hn)
  exact ⟨hvalue, hfault, hbefore 3 (by decide)⟩

end OperatorPrecedence
