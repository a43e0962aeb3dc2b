import Mathlib.Data.List.Induction
import OperatorPrecedence.Proofs.Decimals
import OperatorPrecedence.Proofs.Displaced
import OperatorPrecedence.Proofs.Isolation
import OperatorPrecedence.Proofs.PostOrder

/-!
# What a literal comes to

A literal is any text of digits and points, and it may hold more points than a number has.  What
counts is the part in front of its second point: that is the number, if it has a digit, and
otherwise the literal is zero.  The machine has no such rule.  It reads the text anew with each
character and keeps the last number that it found, so what is to be shown is that none is found
once there is a second point, and that what was found for one literal is gone when the next begins.

What does not count may as well be left out, wherever the literal stands: the same is done, and it
comes to the same, except that faults behind the literal are found that many columns earlier.

## Main definitions

* `counted` — the part of a literal in front of its second point.
* `Report.Spares` — leaving out some characters makes no difference.
* `AmountsTo` — a text amounts to a value as a literal, wherever it stands.

## Main results

* `counted_of_count_le`, `counted_append_singleton` — what counts, character by character.
* `Literal.read?_counted`, `Literal.valueOf_counted` — the value of a literal, from the part that
  counts.
* `Machine.feed_literal`, `Machine.commitLiteral_of_take` — a literal is read and becomes an
  operand.
* `evaluation_of_counted` — what does not count may be left out of a source.
* `Literal.amountsTo_counted` — **a literal amounts to the number in front of its second point**.
-/

namespace OperatorPrecedence

/-! ### The part that counts -/

/-- The part of a literal that counts: what stands in front of its second point, or all of it if
there is none. -/
def counted (text : List Char) : List Char :=
  text.takeWhile (· ≠ '.') ++
    match text.dropWhile (· ≠ '.') with
    | [] => []
    | point :: rest => point :: rest.takeWhile (· ≠ '.')

theorem ne_point_of_notMem {text : List Char} (h : '.' ∉ text) :
    ∀ c ∈ text, decide (c ≠ '.') = true := by
  intro c hc
  exact decide_eq_true (ne_of_mem_of_not_mem hc h)

/-- Without a point, all of a literal counts. -/
theorem counted_of_notMem {text : List Char} (h : '.' ∉ text) : counted text = text := by
  unfold counted
  rw [List.takeWhile_eq_self_iff.mpr (ne_point_of_notMem h),
    List.dropWhile_eq_nil_iff.mpr (ne_point_of_notMem h), List.append_nil]

/-- Behind the first point, what stands in front of the next one counts. -/
theorem counted_append_point {whole : List Char} (h : '.' ∉ whole) (rest : List Char) :
    counted (whole ++ '.' :: rest) = whole ++ '.' :: rest.takeWhile (· ≠ '.') := by
  unfold counted
  rw [List.takeWhile_append_of_pos (ne_point_of_notMem h),
    List.dropWhile_append_of_pos (ne_point_of_notMem h)]
  simp

/-- All of a literal without a second point counts. -/
theorem counted_of_count_le {text : List Char} (h : text.count '.' ≤ 1) : counted text = text := by
  by_cases hpoint : '.' ∈ text
  · obtain ⟨whole, rest, rfl, hwhole⟩ := List.eq_append_cons_of_mem hpoint
    have hrest : '.' ∉ rest := by
      rw [← List.count_eq_zero]
      rw [List.count_append, List.count_cons_self] at h
      omega
    rw [counted_append_point hwhole, List.takeWhile_eq_self_iff.mpr (ne_point_of_notMem hrest)]
  · exact counted_of_notMem hpoint

/-- A character that follows the second point, or is it, does not count. -/
theorem counted_append_singleton {text : List Char} {c : Char}
    (h : 1 < (text ++ [c]).count '.') : counted (text ++ [c]) = counted text := by
  have hpoint : '.' ∈ text := by
    by_contra hnot
    have hnone := List.count_eq_zero.mpr hnot
    have hlast := List.count_le_length (a := '.') (l := [c])
    rw [List.count_append, hnone] at h
    simp only [List.length_singleton] at hlast
    omega
  obtain ⟨whole, rest, rfl, hwhole⟩ := List.eq_append_cons_of_mem hpoint
  have hend : (rest ++ [c]).takeWhile (· ≠ '.') = rest.takeWhile (· ≠ '.') := by
    by_cases hrest : '.' ∈ rest
    · obtain ⟨fraction, tail, rfl, hfraction⟩ := List.eq_append_cons_of_mem hrest
      rw [List.append_assoc, List.takeWhile_append_of_pos (ne_point_of_notMem hfraction),
        List.takeWhile_append_of_pos (ne_point_of_notMem hfraction)]
      simp
    · -- it is this character that is the second point
      have hc : c = '.' := by
        have hwhole' := List.count_eq_zero.mpr hwhole
        have hrest' := List.count_eq_zero.mpr hrest
        by_contra hc
        rw [List.count_append, List.count_append, List.count_cons_self, hwhole', hrest',
          List.count_singleton, if_neg (by simpa using hc)] at h
        omega
      rw [List.takeWhile_append_of_pos (ne_point_of_notMem hrest),
        List.takeWhile_eq_self_iff.mpr (ne_point_of_notMem hrest), hc]
      simp
  rw [List.append_assoc, List.cons_append, counted_append_point hwhole,
    counted_append_point hwhole, hend]

/-- What does not count begins with the second point. -/
theorem exists_eq_counted_append (text : List Char) : ∃ rest, text = counted text ++ rest ∧
    (rest = [] ∨ '.' ∈ counted text ∧ ∃ tail, rest = '.' :: tail) := by
  by_cases hpoint : '.' ∈ text
  · obtain ⟨whole, rest, rfl, hwhole⟩ := List.eq_append_cons_of_mem hpoint
    rw [counted_append_point hwhole]
    refine ⟨rest.dropWhile (· ≠ '.'), by simp, ?_⟩
    by_cases hrest : '.' ∈ rest
    · obtain ⟨fraction, tail, rfl, hfraction⟩ := List.eq_append_cons_of_mem hrest
      refine .inr ⟨by simp, tail, ?_⟩
      rw [List.dropWhile_append_of_pos (ne_point_of_notMem hfraction)]
      simp
    · exact .inl (List.dropWhile_eq_nil_iff.mpr (ne_point_of_notMem hrest))
  · exact ⟨[], by rw [counted_of_notMem hpoint, List.append_nil], .inl rfl⟩

theorem count_counted_le (text : List Char) : (counted text).count '.' ≤ 1 := by
  induction text using List.reverseRecOn with
  | nil => decide
  | append_singleton text c ih =>
    by_cases hcount : (text ++ [c]).count '.' ≤ 1
    · rw [counted_of_count_le hcount]
      exact hcount
    · rw [counted_append_singleton (Nat.lt_of_not_le hcount)]
      exact ih

theorem counted_counted (text : List Char) : counted (counted text) = counted text :=
  counted_of_count_le (count_counted_le text)

/-- A literal begins with the part that counts. -/
theorem begins_counted (text : List Char) : counted text <+: text := by
  obtain ⟨rest, htext, -⟩ := exists_eq_counted_append text
  exact ⟨rest, htext.symm⟩

theorem counted_numeric {text : List Char} (h : ∀ c ∈ text, isNumeric c = true) :
    ∀ c ∈ counted text, isNumeric c = true :=
  fun c hc => h c ((begins_counted text).subset hc)

theorem exists_counted_cons (c : Char) (text : List Char) :
    ∃ rest, counted (c :: text) = c :: rest := by
  by_cases hc : c = '.'
  · exact ⟨text.takeWhile (· ≠ '.'), by rw [hc]; exact counted_append_point List.not_mem_nil text⟩
  · exact ⟨counted text, by simp [counted, hc]⟩

theorem counted_ne_nil {text : List Char} (h : text ≠ []) : counted text ≠ [] := by
  obtain ⟨c, others, rfl⟩ := List.exists_cons_of_ne_nil h
  obtain ⟨rest, hcounted⟩ := exists_counted_cons c others
  simp [hcounted]

/-! ### The value of a literal -/

namespace Literal

variable {ν : Type} [Numbers ν]

/-- The part of a literal that counts is the number, if it has a digit; otherwise the literal is
zero. -/
theorem read?_counted (hreads : ReadsDecimals ν) {text : List Char}
    (h : ∀ c ∈ text, isNumeric c = true) :
    ((∃ c ∈ counted text, c.isDigit = true) →
      (Numbers.read? (counted text) : Option ν) = some (valueOf text)) ∧
    ((∀ c ∈ counted text, c.isDigit = false) → (valueOf text : ν) = Numbers.zero) := by
  induction text using List.reverseRecOn with
  | nil => exact ⟨fun hdigit => by simp [counted] at hdigit, fun _ => rfl⟩
  | append_singleton text c ih =>
    have hwhole := hreads (text ++ [c]) h
    obtain ⟨hnumber, hzero⟩ := ih fun d hd => h d (List.mem_append_left _ hd)
    rw [valueOf_append_singleton]
    by_cases hcount : (text ++ [c]).count '.' ≤ 1
    · -- all of the text counts, and so did all of it before
      rw [counted_of_count_le hcount]
      have hbefore : counted text = text := by
        refine counted_of_count_le ?_
        rw [List.count_append] at hcount
        omega
      rw [hbefore] at hzero
      constructor
      · intro hdigit
        obtain ⟨value, hvalue⟩ := Option.isSome_iff_exists.mp (hwhole.mpr ⟨hdigit, hcount⟩)
        rw [hvalue, Option.getD_some]
      · intro hnone
        have hunread : (Numbers.read? (text ++ [c]) : Option ν) = none := by
          rw [← Option.not_isSome_iff_eq_none, hwhole]
          rintro ⟨⟨d, hd, hdigit⟩, -⟩
          rw [hnone d hd] at hdigit
          cases hdigit
        rw [hunread, Option.getD_none]
        exact hzero fun d hd => hnone d (List.mem_append_left _ hd)
    · -- with a second point no text is a number
      have hunread : (Numbers.read? (text ++ [c]) : Option ν) = none := by
        rw [← Option.not_isSome_iff_eq_none, hwhole]
        exact fun hboth => hcount hboth.2
      rw [counted_append_singleton (Nat.lt_of_not_le hcount), hunread, Option.getD_none]
      exact ⟨hnumber, hzero⟩

/-- What does not count makes no difference to the value. -/
theorem valueOf_counted (hreads : ReadsDecimals ν) {text : List Char}
    (h : ∀ c ∈ text, isNumeric c = true) : (valueOf (counted text) : ν) = valueOf text := by
  obtain ⟨hnumber, hzero⟩ := read?_counted hreads h
  obtain ⟨hnumber', hzero'⟩ := read?_counted hreads (counted_numeric h)
  rw [counted_counted] at hnumber' hzero'
  by_cases hdigit : ∃ c ∈ counted text, c.isDigit = true
  · exact Option.some.inj ((hnumber' hdigit).symm.trans (hnumber hdigit))
  · have hnone : ∀ c ∈ counted text, c.isDigit = false := by simpa using hdigit
    rw [hzero hnone, hzero' hnone]

/-- A literal that has been gathered is handed out with its value, and leaves nothing behind. -/
theorem take_foldl_push {text : List Char} (h : text ≠ []) :
    (text.foldl push (empty : Literal ν)).take = (some (valueOf text), empty) := by
  unfold take
  rw [isEmpty_foldl_push h, if_neg Bool.false_ne_true, value_foldl_push]

end Literal

/-! ### A literal in its place -/

/-- What is remembered of a text that does not end in a literal. -/
theorem Preceding.behind_ne_operand {text : List Char}
    (h : ∀ c ∈ text.getLast?, isNumeric c = false) : behind text ≠ operand := by
  unfold behind
  cases hlast : text.getLast? with
  | none => simp
  | some c =>
    simp only [h c hlast, Bool.false_eq_true, if_false]
    split
    · simp
    · split <;> simp

namespace Machine

variable {ν : Type} [Numbers ν] {capacity : Option Nat} {before text : List Char}
  {first m n : Machine ν} {k : Nat}

/-- Reading a literal leaves the machine as it is but for the characters that it gathers. -/
theorem feed_literal (hstart : start capacity = .ok first) (hfeed : first.feed before = .waiting m)
    (hbegins : m.preceding ≠ .operand) (hclosing : m.preceding ≠ .closing)
    (hnonempty : text ≠ []) (hnumeric : ∀ c ∈ text, isNumeric c = true) :
    m.feed text = .waiting { m with
      literal := text.foldl Literal.push .empty
      preceding := .operand
      column := m.column + text.length } := by
  have hbehind := behind_of_feed hstart hfeed
  have hempty : m.literal.isEmpty = true := by
    cases hliteral : m.literal.isEmpty with
    | true => rfl
    | false => exact absurd (hbehind.literal.mp hliteral) hbegins
  have hliteral : m.literal = .empty := Literal.eq_empty (valued_of_feed hstart hfeed) hempty
  rw [feed_numeric hnonempty hnumeric m hclosing, hliteral]

/-- A literal that is handed out becomes an operand. -/
theorem commitLiteral_of_take {value : ν} (h : m.literal.take = (some value, .empty)) :
    m.commitLiteral = ({ m with literal := .empty }.record (.commit value)).putOperand value := by
  unfold commitLiteral
  rw [h]

/-- Behind literals of the same value, a source that does not go on with the literal is read
alike. -/
theorem Displaced.feed_behind_literal {value : ν}
    (h : ({ m with literal := .empty } : Machine ν).Displaced k { n with literal := .empty })
    (hm : m.literal.take = (some value, .empty)) (hn : n.literal.take = (some value, .empty))
    {after : List Char} (hafter : ∀ c ∈ after.head?, isNumeric c = false) :
    (m.feed after).report.Displaced k (n.feed after).report := by
  cases after with
  | nil =>
    have hend := h.endOfInput
    exact ⟨hend.result, hend.events, rfl⟩
  | cons c rest =>
    have hadvanced : ({ m.advanced with literal := .empty } : Machine ν).Displaced k
        { n.advanced with literal := .empty } := h.advanced
    -- only the texts of the literals differ, and they are gone once the literals are committed
    have haccept : ∀ op, Parallel (Verdict.Displaced k) (Machine.Displaced k)
        (m.advanced.accept op) (n.advanced.accept op) := by
      intro op
      apply accept_of_commit
      rw [commitLiteral_of_take (m := m.advanced) hm, commitLiteral_of_take (m := n.advanced) hn]
      exact (hadvanced.record (.commit value)).putOperand value
    refine Displaced.feed_cons ?_ fun hnext => hnext.feed rest
    rcases step_cases (ν := ν) c with hforeign | ⟨hnumeric, -⟩ | ⟨token, op, htoken, hop⟩
    · rw [hforeign, hforeign]
      exact hadvanced.fail (.invalidCharacter c)
    · rw [hafter c rfl] at hnumeric
      cases hnumeric
    · rw [step_of_token m htoken hop, step_of_token n htoken hop]
      exact haccept op

/-- Where a literal begins, what does not count of it may be left out. -/
theorem feed_counted (hreads : ReadsDecimals ν) (hstart : start capacity = .ok first)
    (hfeed : first.feed before = .waiting m) (hbegins : m.preceding ≠ .operand)
    (hclosing : m.preceding ≠ .closing) (hnonempty : text ≠ [])
    (hnumeric : ∀ c ∈ text, isNumeric c = true) {after : List Char}
    (hafter : ∀ c ∈ after.head?, isNumeric c = false) :
    (m.feed (text ++ after)).report.Displaced (text.length - (counted text).length)
      (m.feed (counted text ++ after)).report := by
  have hcounted : counted text ≠ [] := counted_ne_nil hnonempty
  have hlength := (begins_counted text).length_le
  have htaken := Literal.take_foldl_push (ν := ν) hcounted
  rw [Literal.valueOf_counted hreads hnumeric] at htaken
  rw [feed_append, feed_append,
    feed_literal hstart hfeed hbegins hclosing hnonempty hnumeric,
    feed_literal hstart hfeed hbegins hclosing hcounted (counted_numeric hnumeric)]
  dsimp only
  refine Displaced.feed_behind_literal ?_ (Literal.take_foldl_push hnonempty) htaken hafter
  refine ⟨rfl, rfl, rfl, rfl, ?_, rfl⟩
  dsimp only
  omega

end Machine

/-! ### What does not count -/

variable {ν : Type}

/-- **Leaving out `k` characters behind `n` others makes no difference.**  The same is done, and it
comes to the same `k` columns earlier, unless there is a fault no later than at the character
behind the first `n`, and the same one either way. -/
def Report.Spares (n k : Nat) (r r' : Report ν) : Prop :=
  r.Displaced k r' ∨
    r.Displaced 0 r' ∧ ∃ fault, r.result = .error fault ∧ fault.column ≤ n + 1

/-- Nothing behind the character that stops a machine makes a difference. -/
theorem Verdict.spares {n : Nat} {verdict : Verdict ν}
    (h : ∀ fault, verdict.result = .error fault → fault.column ≤ n + 1) (k : Nat)
    (unread unread' : List Char) :
    (verdict.report unread).Spares n k (verdict.report unread') := by
  have hsame := Displaced.refl verdict
  cases hresult : verdict.result with
  | ok value =>
    have hvalue : SameFinding k verdict.result verdict.result := by
      rw [hresult]
      exact .value value
    exact .inl (Displaced.report ⟨hvalue, hsame.events⟩ unread unread')
  | error fault => exact .inr ⟨hsame.report unread unread', fault, hresult, h fault hresult⟩

variable [Numbers ν]

/-- **What does not count may be left out**, wherever the literal stands. -/
theorem evaluation_of_counted (hreads : ReadsDecimals ν) {text : List Char} (hnonempty : text ≠ [])
    (hnumeric : ∀ c ∈ text, isNumeric c = true) (capacity : Option Nat) {before after : List Char}
    (hbefore : ∀ c ∈ before.getLast?, isNumeric c = false)
    (hafter : ∀ c ∈ after.head?, isNumeric c = false) :
    (evaluation capacity (before ++ (text ++ after)) : Report ν).Spares before.length
      (text.length - (counted text).length)
      (evaluation capacity (before ++ (counted text ++ after))) := by
  rcases Machine.start_spec (ν := ν) capacity with
    ⟨first, hstart, -⟩ | ⟨-, verdict, hstart, hresult, -⟩
  · rw [evaluation_of_start hstart, evaluation_of_start hstart, Machine.feed_append,
      Machine.feed_append]
    cases hfeed : first.feed before with
    | stopped verdict unread =>
      refine Verdict.spares ?_ _ _ _
      rintro ⟨column, cause⟩ hresult
      obtain ⟨read, c, last, rfl, -, hstopped⟩ :=
        (Machine.behind_of_start hstart).feed_stopped hfeed
      have hcolumn := (hstopped.reportable hresult).1
      simp only [List.nil_append, List.length_append, List.length_cons] at hcolumn ⊢
      omega
    | waiting m =>
      dsimp only
      have hbehind := Machine.behind_of_feed hstart hfeed
      obtain ⟨c, others, rfl⟩ := List.exists_cons_of_ne_nil hnonempty
      obtain ⟨others', hcounted⟩ := exists_counted_cons c others
      by_cases hclosing : m.preceding = .closing
      · -- the literal is refused at its first character
        have hstep : m.step c = m.advanced.fail .digitAfterClosing := by
          rw [Machine.step_numeric m (hnumeric c List.mem_cons_self), Machine.gather,
            if_pos (by exact hclosing)]
        rw [hcounted, List.cons_append, List.cons_append, Machine.feed, Machine.feed, hstep]
        refine Verdict.spares ?_ _ _ _
        rintro fault ⟨⟩
        exact Nat.le_of_eq (congrArg (· + 1) hbehind.column)
      · have hbegins : m.preceding ≠ .operand := by
          rw [hbehind.preceding]
          exact Preceding.behind_ne_operand hbefore
        exact .inl (Machine.feed_counted hreads hstart hfeed hbegins hclosing hnonempty hnumeric
          hafter)
  · unfold evaluation
    rw [hstart]
    refine Verdict.spares ?_ _ _ _
    intro fault hfault
    rw [hresult] at hfault
    cases hfault
    exact Nat.zero_le _

/-! ### What a literal amounts to -/

/-- **A text amounts to a value as a literal**, wherever it stands. -/
structure AmountsTo (text : List Char) (value : ν) : Prop where
  /-- It is handed out with that value once it has been gathered, and nothing of it is left for
  the next literal. -/
  taken : (text.foldl Literal.push .empty : Literal ν).take = (some value, .empty)
  /-- It is an expression of that value. -/
  evaluated : ∀ rest, (evaluation none (text ++ '=' :: rest) : Report ν).result = .ok value
  /-- Behind a text where a literal may begin, it is read without a fault and without a change of
  the stacks, and the next operator makes its value an operand. -/
  committed : ∀ {capacity : Option Nat} {before : List Char} {first m : Machine ν},
    Machine.start capacity = .ok first → first.feed before = .waiting m →
    (∀ c ∈ before.getLast?, isNumeric c = false ∧ c ≠ ')') →
    ∃ next, m.feed text = .waiting next ∧
      next.operators = m.operators ∧ next.operands = m.operands ∧ next.log = m.log ∧
      next.advanced.commitLiteral =
        ({ next.advanced with literal := .empty }.record (.commit value)).putOperand value

/-- A text of digits and points amounts to its value. -/
theorem amountsTo_valueOf {text : List Char} (hnonempty : text ≠ [])
    (hnumeric : ∀ c ∈ text, isNumeric c = true) :
    AmountsTo text (Literal.valueOf text : ν) := by
  refine ⟨Literal.take_foldl_push hnonempty, ?_, ?_⟩
  · intro rest
    exact congrArg Report.result ((Phrase.expression (.plain (.leading
      (.literal text hnonempty hnumeric)))).evaluation_eq rest)
  · intro capacity before first m hstart hfeed hbefore
    have hpreceding := (Machine.behind_of_feed hstart hfeed).preceding
    have hbegins : m.preceding ≠ .operand := by
      rw [hpreceding]
      exact Preceding.behind_ne_operand fun c hc => (hbefore c hc).1
    have hclosing : m.preceding ≠ .closing := by
      rw [hpreceding, Ne, Preceding.behind_eq_closing_iff]
      exact fun hlast => (hbefore ')' hlast).2 rfl
    exact ⟨_, Machine.feed_literal hstart hfeed hbegins hclosing hnonempty hnumeric, rfl, rfl, rfl,
      Machine.commitLiteral_of_take (Literal.take_foldl_push hnonempty)⟩

/-- **A literal amounts to the number in front of its second point**, and to zero if there is no
digit there.  Whatever stands from its second point on may be left out, wherever the literal
stands. -/
theorem Literal.amountsTo_counted (hreads : ReadsDecimals ν) {text : List Char}
    (hnonempty : text ≠ []) (hnumeric : ∀ c ∈ text, isNumeric c = true) :
    ∃ value : ν,
      ((∃ c ∈ counted text, c.isDigit = true) → Numbers.read? (counted text) = some value) ∧
      ((∀ c ∈ counted text, c.isDigit = false) → value = Numbers.zero) ∧
      AmountsTo text value ∧
      ∀ (capacity : Option Nat) (before after : List Char),
        (∀ c ∈ before.getLast?, isNumeric c = false) →
        (∀ c ∈ after.head?, isNumeric c = false) →
        (evaluation capacity (before ++ (text ++ after)) : Report ν).Spares before.length
          (text.length - (counted text).length)
          (evaluation capacity (before ++ (counted text ++ after))) := by
  obtain ⟨hnumber, hzero⟩ := read?_counted hreads hnumeric
  refine ⟨valueOf text, hnumber, hzero, amountsTo_valueOf hnonempty hnumeric, ?_⟩
  intro capacity before after hbefore hafter
  exact evaluation_of_counted hreads hnonempty hnumeric capacity hbefore hafter

/-- A literal with three points, as an expression and behind a product. -/
theorem amount_of_three_points :
    ∃ value : Float, Numbers.read? ['.', '5'] = some value ∧
      (evaluation none ['.', '5', '.', '7', '.', '='] : Report Float).result = .ok value ∧
      (evaluation (some 2) (['2', '*'] ++ (['.', '5', '.', '7', '.'] ++ ['(', '='])) :
        Report Float).Spares 2 3
        (evaluation (some 2) (['2', '*'] ++ (['.', '5'] ++ ['(', '=']))) := by
  have hnumeric : ∀ c ∈ ['.', '5', '.', '7', '.'], isNumeric c = true :=
    List.all_eq_true.mp (by decide)
  have hcounted : counted ['.', '5', '.', '7', '.'] = ['.', '5'] := by decide
  obtain ⟨value, hnumber, -, hamounts, hreplaced⟩ :=
    Literal.amountsTo_counted readsDecimals_float (by decide) hnumeric
  rw [hcounted] at hnumber hreplaced
  refine ⟨value, hnumber ⟨'5', by decide, by decide⟩, hamounts.evaluated [],
    hreplaced (some 2) ['2', '*'] ['(', '='] ?_ ?_⟩
  · rintro c ⟨⟩
    rfl
  · rintro c ⟨⟩
    rfl

end OperatorPrecedence
