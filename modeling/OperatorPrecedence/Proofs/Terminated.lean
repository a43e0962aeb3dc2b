import Mathlib.Data.List.DropRight
import OperatorPrecedence.CommandLine.Session
import OperatorPrecedence.Proofs.Consumption

/-!
# Completing an expression

The command line may be asked to trim an expression and to supply the terminator if there is
none.  Neither can do harm.  What is trimmed away stands behind the terminator, where nothing is
read, or there is no terminator at all; and a terminator that is supplied is read only where the
input would have run out.

## Main results

* `trimEnd_trimEnd`, `mem_trimEnd_iff`, `trimEnd_append` — what trimming leaves.
* `terminated_of_mem`, `terminated_of_notMem` — completing a source is trimming it, or trimming it
  and appending a terminator.
* `result_ne_unexpectedEnd`, `exists_fault_of_notMem` — how sources with and without a terminator
  can end.
* `completion_transparent` — **completing a source repairs what is incomplete and changes nothing
  else**.
-/

namespace OperatorPrecedence

variable {ν : Type}

/-! ### Trimming -/

theorem isBlank_terminator : isBlank '=' = false := by
  simp [isBlank, inRanges, blankRanges]

theorem trimEnd_trimEnd (text : List Char) : trimEnd (trimEnd text) = trimEnd text := by
  unfold trimEnd
  rw [List.reverse_reverse, List.dropWhile_idempotent]

/-- Nothing but white space is trimmed away. -/
theorem mem_trimEnd_iff {text : List Char} {c : Char} (hc : isBlank c = false) :
    c ∈ trimEnd text ↔ c ∈ text := by
  obtain ⟨blank, htext, hblank⟩ := trimEnd_append_blank text
  constructor
  · intro h
    rw [htext]
    exact List.mem_append_left blank h
  · intro h
    rw [htext] at h
    rcases List.mem_append.mp h with h | h
    · exact h
    · rw [hblank c h] at hc
      cases hc

/-- White space at the end makes no difference to what is left. -/
theorem trimEnd_append (text : List Char) {blank : List Char}
    (hblank : ∀ c ∈ blank, isBlank c = true) : trimEnd (text ++ blank) = trimEnd text := by
  unfold trimEnd
  rw [List.reverse_append, List.dropWhile_append_of_pos]
  intro c hc
  exact hblank c (List.mem_reverse.mp hc)

namespace CommandLine

theorem terminator_mem_trimEnd_iff {source : List Char} : '=' ∈ trimEnd source ↔ '=' ∈ source :=
  mem_trimEnd_iff isBlank_terminator

/-- Completing a source is trimming it, and appending a terminator if there is none. -/
theorem terminated_of_mem {source : List Char} (h : '=' ∈ source) :
    terminated source = trimEnd source := by
  unfold terminated
  rw [if_pos (terminator_mem_trimEnd_iff.mpr h)]

theorem terminated_of_notMem {source : List Char} (h : '=' ∉ source) :
    terminated source = trimEnd source ++ ['='] := by
  unfold terminated
  rw [if_neg (mt terminator_mem_trimEnd_iff.mp h)]

theorem terminator_mem_terminated (source : List Char) : '=' ∈ terminated source := by
  by_cases h : '=' ∈ source
  · rw [terminated_of_mem h]
    exact terminator_mem_trimEnd_iff.mpr h
  · rw [terminated_of_notMem h]
    simp

theorem terminated_terminated (source : List Char) :
    terminated (terminated source) = terminated source := by
  rw [terminated_of_mem (terminator_mem_terminated source)]
  by_cases h : '=' ∈ source
  · rw [terminated_of_mem h, trimEnd_trimEnd]
  · rw [terminated_of_notMem h, trimEnd_append_singleton _ isBlank_terminator]

/-- White space at the end makes no difference to a completed source. -/
theorem terminated_append (source : List Char) {blank : List Char}
    (hblank : ∀ c ∈ blank, isBlank c = true) :
    terminated (source ++ blank) = terminated source := by
  unfold terminated
  rw [trimEnd_append source hblank]

end CommandLine

/-! ### Sources with and without a terminator -/

variable [Numbers ν] (capacity : Option Nat) {source : List Char}

/-- The input does not run out before a terminator. -/
theorem result_ne_unexpectedEnd (h : '=' ∈ source) (column : Nat) :
    (evaluation capacity source : Report ν).result ≠ .error ⟨column, .unexpectedEnd⟩ := by
  intro hresult
  obtain ⟨text, hsource, hnot, -⟩ :=
    (consumes_ofList (ν := ν) capacity source).eq_ofList_of_unexpectedEnd hresult
  rw [Stream'.Seq.ofList_injective hsource] at h
  exact hnot h

/-- There is no value without a terminator. -/
theorem exists_fault_of_notMem (h : '=' ∉ source) :
    ∃ fault, (evaluation capacity source : Report ν).result = .error fault := by
  cases hresult : (evaluation capacity source : Report ν).result with
  | error fault => exact ⟨fault, rfl⟩
  | ok value =>
    obtain ⟨-, n, -, hget, -⟩ := (consumes_ofList (ν := ν) capacity source).pulled_of_ok hresult
    rw [Stream'.Seq.ofList_get?] at hget
    exact absurd (List.mem_of_getElem? hget) h

/-- Behind a terminator nothing is read. -/
theorem evaluation_append_of_mem (h : '=' ∈ source) (rest : List Char) :
    (evaluation capacity (source ++ rest) : Report ν) =
      { evaluation capacity source with
        unread := (evaluation capacity source : Report ν).unread ++ rest } :=
  evaluation_append rest (result_ne_unexpectedEnd capacity h)

/-- Where the input does not run out, nothing behind its end is read. -/
theorem evaluation_append_or (source : List Char) :
    (∃ column, (evaluation capacity source : Report ν).result =
      .error ⟨column, .unexpectedEnd⟩) ∨
    ∀ rest, (evaluation capacity (source ++ rest) : Report ν) =
      { evaluation capacity source with
        unread := (evaluation capacity source : Report ν).unread ++ rest } := by
  by_cases h : ∃ column, (evaluation capacity source : Report ν).result =
      .error ⟨column, .unexpectedEnd⟩
  · exact .inl h
  · exact .inr fun rest => evaluation_append rest (not_exists.mp h)

namespace CommandLine

/-- **Completing a source repairs what is incomplete and changes nothing else.**  It is done once
and for all.  The input does not run out of a completed source.  A source with a terminator comes
to the same result, with the same log, once it is completed.  A source without one has a fault,
trimmed as it is, and keeps it once it is completed unless the input ran out. -/
theorem completion_transparent (source : List Char) :
    terminated (terminated source) = terminated source ∧
    (∀ column, (evaluation capacity (terminated source) : Report ν).result ≠
      .error ⟨column, .unexpectedEnd⟩) ∧
    ('=' ∈ source →
      (evaluation capacity (terminated source) : Report ν).result =
        (evaluation capacity source : Report ν).result ∧
      (evaluation capacity (terminated source) : Report ν).log =
        (evaluation capacity source : Report ν).log) ∧
    ('=' ∉ source →
      ∃ fault, (evaluation capacity (trimEnd source) : Report ν).result = .error fault ∧
        (fault.cause = .unexpectedEnd ∨
          (evaluation capacity (terminated source) : Report ν).result = .error fault)) := by
  refine ⟨terminated_terminated source,
    result_ne_unexpectedEnd capacity (terminator_mem_terminated source), ?_, ?_⟩
  · intro h
    -- what is trimmed stands behind the terminator
    obtain ⟨blank, hsource, -⟩ := trimEnd_append_blank source
    have hsame := evaluation_append_of_mem (ν := ν) capacity
      (terminator_mem_trimEnd_iff.mpr h) blank
    rw [← hsource] at hsame
    rw [terminated_of_mem h, hsame]
    exact ⟨rfl, rfl⟩
  · intro h
    obtain ⟨fault, hfault⟩ := exists_fault_of_notMem (ν := ν) capacity
      (mt terminator_mem_trimEnd_iff.mp h)
    refine ⟨fault, hfault, ?_⟩
    rcases evaluation_append_or (ν := ν) capacity (trimEnd source) with ⟨column, hend⟩ | hsame
    · rw [hend] at hfault
      cases hfault
      exact .inl rfl
    · rw [terminated_of_notMem h, hsame]
      exact .inr hfault

/-- A closing parenthesis without an opening one is reported with and without a terminator. -/
theorem completion_of_unmatched_closing :
    terminated ['1', ')', ' '] = ['1', ')', '='] ∧
    (evaluation none ['1', ')'] : Report Float).result = .error ⟨2, .unmatchedClosing⟩ ∧
    (evaluation none ['1', ')', '='] : Report Float).result = .error ⟨2, .unmatchedClosing⟩ := by
  have htrimmed : trimEnd ['1', ')', ' '] = ['1', ')'] := by decide +kernel
  have hterminated : terminated ['1', ')', ' '] = ['1', ')', '='] := by decide +kernel
  have hresult : (evaluation none ['1', ')'] : Report Float).result =
      .error ⟨2, .unmatchedClosing⟩ := rfl
  obtain ⟨fault, hfault, hkept⟩ :=
    (completion_transparent (ν := Float) none ['1', ')', ' ']).2.2.2 (by decide)
  rw [htrimmed, hresult] at hfault
  cases hfault
  rw [hterminated] at hkept
  rcases hkept with hend | hkept
  · cases hend
  · exact ⟨hterminated, hresult, hkept⟩

end CommandLine

end OperatorPrecedence
