import OperatorPrecedence.Proofs.Reading

/-!
# Which fault an evaluation reports

A source is read from the left, and the first thing that is wrong with it is what its
evaluation reports, at the column where it stands.  What is wrong is a matter of the text
alone, as told in `OperatorPrecedence.Proofs.Position`: the machine finds defects in several
places, some of them only after it has applied the operators in its way, but operands do not
run out before that unless they are missing from the text.

Missing operands are another matter.  The machine notices that an operand is missing only
when a stack is empty that should not be, which may be much later than where the operand is
missing, but never before, and never later than the terminator.

## Main results

* `evaluation_of_first_defect` — **the first defect of a source is reported**, at its column.
* `underflow_of_missing_operand` — **operands run out exactly if some are missing**.
-/

namespace OperatorPrecedence

open Machine

variable {ν : Type}

/-! ### Positions of a source that is read in part -/

section Positions

variable {text rest : List Char} {c : Char}

theorem defectAt?_of_lt {k : Nat} (hk : k < text.length) :
    defectAt? (text ++ rest) k = defectAt? text k := by
  rw [← defectAt?_take (text ++ rest) hk, List.take_left]

theorem lacksOperandAt_of_lt {k : Nat} (hk : k < text.length) :
    lacksOperandAt (text ++ rest) k = lacksOperandAt text k := by
  rw [← lacksOperandAt_take (text ++ rest) hk, List.take_left]

/-- What is missing up to some character is missing at some position up to there. -/
theorem exists_lacksOperandAt (rest : List Char) (h : 0 < missing (text ++ [c])) :
    ∃ k ≤ text.length, lacksOperandAt (text ++ c :: rest) k = true := by
  obtain ⟨k, hk, hlacks⟩ := missing_pos_iff.mp h
  have hsplit : text ++ c :: rest = (text ++ [c]) ++ rest := by simp
  refine ⟨k, by simpa [Nat.lt_succ_iff] using hk, ?_⟩
  rw [hsplit, lacksOperandAt_of_lt hk, hlacks]

/-- Nothing is missing up to some character if nothing is missing at any position up to
there. -/
theorem lacksOperandAt_eq_false (h : missing (text ++ [c]) = 0) {k : Nat} (hk : k ≤ text.length) :
    lacksOperandAt (text ++ c :: rest) k = false := by
  have hlt : k < (text ++ [c]).length := by
    rw [List.length_append, List.length_singleton]
    omega
  have hsplit : text ++ c :: rest = (text ++ [c]) ++ rest := by simp
  rw [hsplit, lacksOperandAt_of_lt hlt]
  cases hlacks : lacksOperandAt (text ++ [c]) k with
  | false => rfl
  | true =>
    have := missing_pos_iff.mpr ⟨k, hlt, hlacks⟩
    omega

end Positions

/-- The column of a machine that reports a fault is that of a character of the source, or of
the end. -/
theorem getElem?_length_append (text rest : List Char) (c : Char) :
    (text ++ c :: rest)[text.length]? = some c := by
  simp

/-- A source splits at any of its characters. -/
theorem exists_eq_append_of_getElem? {source : List Char} {n : Nat} {c : Char}
    (h : source[n]? = some c) : ∃ text rest, source = text ++ c :: rest ∧ text.length = n := by
  obtain ⟨hlt, hc⟩ := List.getElem?_eq_some_iff.mp h
  refine ⟨source.take n, source.drop (n + 1), ?_, List.length_take_of_le (Nat.le_of_lt hlt)⟩
  rw [← hc, ← List.drop_eq_getElem_cons hlt, List.take_append_drop]

/-- A text holds no character that none of its positions holds. -/
theorem notMem_of_getElem?_ne {text rest : List Char} {c : Char}
    (h : ∀ k < text.length, (text ++ rest)[k]? ≠ some c) : c ∉ text := by
  intro hmem
  obtain ⟨k, hk⟩ := List.mem_iff_getElem?.mp hmem
  obtain ⟨hlt, -⟩ := List.getElem?_eq_some_iff.mp hk
  exact h k hlt (by rw [List.getElem?_append_left hlt, hk])

/-! ### Defects -/

/-- Nothing is missing from a text if no position of it lacks an operand. -/
theorem missing_eq_zero {text rest : List Char}
    (h : ∀ k < text.length, lacksOperandAt (text ++ rest) k = false) : missing text = 0 := by
  rcases Nat.eq_zero_or_pos (missing text) with hzero | hpos
  · exact hzero
  · obtain ⟨k, hk, hlacks⟩ := missing_pos_iff.mp hpos
    rw [← lacksOperandAt_of_lt hk, h k hk] at hlacks
    cases hlacks

/-- What stops the machine at a character with a defect is that defect, as long as nothing is
missing from the text before. -/
theorem Machine.Reads.explained {text : List Char} {c : Char} {verdict : Verdict ν} {d : Defect}
    (h : Reads none text c (.error verdict)) (hdefect : defect? text c = some d)
    (hmissing : missing text = 0) :
    ∃ cause ∈ d.causes (decide (text.count ')' < text.count '(')),
      verdict.result = .error ⟨text.length + 1, cause⟩ := by
  cases h with
  | refused _ _ defect explains malformed result =>
    rw [hdefect] at defect
    cases defect
    exact ⟨_, explains, result⟩
  | starved operator short result =>
    -- nothing was missing before, so it is this character that lacks an operand
    have hlacks : lacksOperand text c = true := by
      rw [missing_append_singleton, hmissing] at short
      cases hlacks : lacksOperand text c with
      | true => rfl
      | false => simp [hlacks] at short
    obtain rfl := defect?_eq_unfinished hdefect hlacks
    exact ⟨_, stackUnderflow_mem_causes _, result⟩
  | full operator limited => cases limited
  | finished terminator sound =>
    rw [sound] at hdefect
    cases hdefect

/-- **The causes that a character behind a text can be refused for.**  The others are for
the end of the input, or for what no machine ever comes to. -/
inductive Reportable (capacity : Option Nat) (text : List Char) (c : Char) : Cause → Prop
  /-- The character does not belong to the alphabet. -/
  | invalidCharacter (foreign : inAlphabet c = false) :
      Reportable capacity text c (.invalidCharacter c)
  /-- An opening parenthesis stands behind an operand. -/
  | missingOperator (opening : c = '(') (ends : endsOperand text = true) :
      Reportable capacity text c .missingOperator
  /-- A closing parenthesis stands where an operand is to begin. -/
  | missingOperand (closing : c = ')') (awaits : awaitsOperand text = true) :
      Reportable capacity text c .missingOperand
  /-- A digit or a point stands behind a closing parenthesis. -/
  | digitAfterClosing (numeric : isNumeric c = true) : Reportable capacity text c .digitAfterClosing
  /-- No parenthesis is open. -/
  | unmatchedClosing (closing : c = ')') : Reportable capacity text c .unmatchedClosing
  /-- A parenthesis is open. -/
  | unclosedOpening (terminator : c = '=') : Reportable capacity text c .unclosedOpening
  /-- There is no room for the operator. -/
  | stackOverflow {n : Nat} (limited : capacity = some n)
      (operator : isOperation c = true ∨ c = '(') :
      Reportable capacity text c (.stackOverflow .operator n)
  /-- An operand is missing. -/
  | stackUnderflow (operator : isOperation c = true ∨ c = ')' ∨ c = '=') :
      Reportable capacity text c (.stackUnderflow .operand)

/-- What a defect is reported by can be reported. -/
theorem reportable_of_defect? (capacity : Option Nat) {text : List Char} {c : Char} {d : Defect}
    {cause : Cause} (hdefect : defect? text c = some d)
    (hexplains : cause ∈ d.causes (decide (text.count ')' < text.count '('))) :
    Reportable capacity text c cause := by
  cases CharClass.of c with
  | numeric h =>
    rw [defect?_of_numeric h] at hdefect
    split at hdefect <;> cases hdefect
    obtain rfl := List.mem_singleton.mp hexplains
    exact .digitAfterClosing h
  | operation operation => simp at hdefect
  | opening =>
    rw [defect?_opening] at hdefect
    split at hdefect <;> cases hdefect
    next hends =>
      obtain rfl := List.mem_singleton.mp hexplains
      exact .missingOperator rfl hends
  | closing =>
    rw [defect?_closing] at hdefect
    split at hdefect
    · next hawaits =>
      cases hdefect
      obtain rfl := List.mem_singleton.mp hexplains
      exact .missingOperand rfl hawaits
    · split at hdefect <;> cases hdefect
      obtain rfl := List.mem_singleton.mp hexplains
      exact .unmatchedClosing rfl
  | terminator =>
    rw [defect?_terminator] at hdefect
    split at hdefect
    · cases hdefect
      have hcause : cause = .stackUnderflow .operand ∨ cause = .unclosedOpening := by
        generalize decide (text.count ')' < text.count '(') = isOpen at hexplains
        cases isOpen with
        | false => exact .inl (List.mem_singleton.mp hexplains)
        | true => simpa [Defect.causes] using hexplains
      rcases hcause with rfl | rfl
      · exact .stackUnderflow (.inr (.inr rfl))
      · exact .unclosedOpening rfl
    · split at hdefect <;> cases hdefect
      obtain rfl := List.mem_singleton.mp hexplains
      exact .unclosedOpening rfl
  | foreign h =>
    rw [defect?_of_foreign h] at hdefect
    cases hdefect
    obtain rfl := List.mem_singleton.mp hexplains
    exact .invalidCharacter h

/-- A fault that stops the machine at a character is reported at its column. -/
theorem Machine.Reads.reportable {capacity : Option Nat} {text : List Char} {c : Char}
    {verdict : Verdict ν} (h : Reads capacity text c (.error verdict)) {column : Nat} {cause : Cause}
    (hresult : verdict.result = .error ⟨column, cause⟩) :
    column = text.length + 1 ∧ Reportable capacity text c cause := by
  cases h with
  | refused d cause' defect explains malformed result =>
    cases result.symm.trans hresult
    exact ⟨rfl, reportable_of_defect? capacity defect explains⟩
  | starved operator short result =>
    cases result.symm.trans hresult
    exact ⟨rfl, .stackUnderflow operator⟩
  | full operator limited sound result =>
    cases result.symm.trans hresult
    exact ⟨rfl, .stackOverflow limited operator⟩
  | finished terminator sound complete result => cases result.symm.trans hresult

/-- A machine does not stop at a character without a defect, unless that is the terminator or
an operand is missing up to there. -/
theorem Machine.Reads.not_stopped {text : List Char} {c : Char} {verdict : Verdict ν}
    (h : Reads none text c (.error verdict)) (hsound : defect? text c = none) (hc : c ≠ '=') :
    0 < missing (text ++ [c]) := by
  cases h with
  | refused _ _ defect =>
    rw [hsound] at defect
    cases defect
  | starved operator short => exact short
  | full operator limited => cases limited
  | finished terminator => exact absurd terminator hc

variable [Numbers ν]

/-- **The first defect of a source is what its evaluation reports**, at its column.  Before
it, no operation may lack an operand, and the terminator may not have come. -/
theorem evaluation_of_first_defect (source : List Char) (n : Nat) (d : Defect)
    (hdefect : defectAt? source n = some d) (hfirst : ∀ k < n, defectAt? source k = none)
    (hsupplied : ∀ k < n, lacksOperandAt source k = false)
    (hunterminated : ∀ k < n, source[k]? ≠ some '=') :
    ∃ cause ∈ d.causes (decide ((source.take n).count ')' < (source.take n).count '(')),
      (evaluation none source : Report ν).result = .error ⟨n + 1, cause⟩ := by
  have hends := evaluation_ends (ν := ν) none source
  generalize (evaluation none source : Report ν) = report at hends ⊢
  cases hends with
  | noRoom limited => cases limited
  | @exhausted m behind =>
    -- no position of the source has a defect, so the one there is must be its end
    have hn : n = source.length := by
      rcases Nat.lt_trichotomy n source.length with hlt | heq | hgt
      · rw [behind.clean n hlt] at hdefect
        cases hdefect
      · exact heq
      · have := hfirst source.length hgt
        simp [defectAt?] at this
    subst hn
    have hd : d = .endOfInput := by simpa [defectAt?, eq_comm] using hdefect
    subst hd
    refine ⟨.unexpectedEnd, by simp [Defect.causes], ?_⟩
    simp only [Machine.endOfInput, behind.column]
  | @stopped text rest c m verdict source_eq behind reads =>
    subst source_eq
    have hat := defectAt?_append_cons text c rest
    -- what stops the machine is at the position of the defect, neither before nor behind it
    have hn : n = text.length := by
      rcases Nat.lt_trichotomy n text.length with hlt | heq | hgt
      · rw [defectAt?_of_lt hlt, behind.clean n hlt] at hdefect
        cases hdefect
      · exact heq
      · exfalso
        have hc : c ≠ '=' := by
          rintro rfl
          exact hunterminated _ hgt (getElem?_length_append text rest '=')
        have hshort := reads.not_stopped (hat.symm.trans (hfirst _ hgt)) hc
        obtain ⟨k, hk, hlacks⟩ := exists_lacksOperandAt rest hshort
        rw [hsupplied k (by omega)] at hlacks
        cases hlacks
    subst hn
    rw [List.take_left]
    exact reads.explained (hat.symm.trans hdefect) (missing_eq_zero hsupplied)

/-- A group that is still open when the terminator comes is reported there. -/
theorem evaluation_of_unclosed_sum :
    ∃ cause ∈ Defect.unclosedOpening.causes true,
      (evaluation none ['(', '1', '+', '2', '='] : Report Float).result = .error ⟨5, cause⟩ :=
  evaluation_of_first_defect ['(', '1', '+', '2', '='] 4 .unclosedOpening (by decide) (by decide)
    (by decide) (by decide)

/-! ### Missing operands -/

/-- A stack runs out of entries only behind a position where an operand is missing. -/
theorem exists_lacksOperandAt_of_underflow {capacity : Option Nat} {source : List Char}
    {column : Nat} {stack : StackName}
    (h : (evaluation capacity source : Report ν).result = .error ⟨column, .stackUnderflow stack⟩) :
    ∃ k, k + 1 ≤ column ∧ lacksOperandAt source k = true := by
  have hends := evaluation_ends (ν := ν) capacity source
  generalize (evaluation capacity source : Report ν) = report at h hends
  cases hends with
  | noRoom limited result =>
    rw [Verdict.report, result] at h
    cases h
  | exhausted behind => cases h
  | @stopped text rest c m verdict source_eq behind reads =>
    subst source_eq
    change verdict.result = _ at h
    cases reads with
    | refused _ _ defect explains malformed result =>
      rw [result] at h
      cases h
      cases malformed
    | starved operator short result =>
      rw [result] at h
      cases h
      obtain ⟨k, hk, hlacks⟩ := exists_lacksOperandAt rest short
      exact ⟨k, by omega, hlacks⟩
    | full operator limited sound result =>
      rw [result] at h
      cases h
    | finished terminator sound complete result =>
      rw [result] at h
      cases h

/-- A source without any other defect up to its terminator has a value, or runs out of operands
before the terminator has been read. -/
theorem evaluation_of_closed {text : List Char} (rest : List Char) (hclean : Clean text)
    (hunterminated : '=' ∉ text) (hclosed : text.count '(' = text.count ')') :
    (missing (text ++ ['=']) = 0 ∧
        ∃ value, (evaluation none (text ++ '=' :: rest) : Report ν).result = .ok value) ∨
      (0 < missing (text ++ ['=']) ∧ ∃ column ≤ text.length + 1,
        (evaluation none (text ++ '=' :: rest) : Report ν).result =
          .error ⟨column, .stackUnderflow .operand⟩) := by
  have hends := evaluation_ends (ν := ν) none (text ++ '=' :: rest)
  generalize (evaluation none (text ++ '=' :: rest) : Report ν) = report at hends ⊢
  cases hends with
  | noRoom limited => cases limited
  | exhausted behind => exact absurd (by simp) behind.unterminated
  | @stopped read unread c m verdict source_eq behind reads =>
    have hshort : 0 < missing (read ++ [c]) → read.length ≤ text.length →
        0 < missing (text ++ ['=']) := by
      intro short hle
      rcases Nat.eq_zero_or_pos (missing (text ++ ['='])) with hzero | hpos
      · obtain ⟨k, hk, hlacks⟩ := exists_lacksOperandAt unread short
        rw [← source_eq, lacksOperandAt_eq_false hzero (by omega)] at hlacks
        cases hlacks
      · exact hpos
    rcases Nat.lt_trichotomy read.length text.length with hlt | heq | hgt
    · -- a character before the terminator stops the machine, and has no defect
      have hsound : defect? read c = none := by
        -- the text is clean at every position, and this is one of them
        rw [← defectAt?_append_cons read c unread, ← source_eq, defectAt?_of_lt hlt]
        exact hclean _ hlt
      have hc : c ≠ '=' := by
        rintro rfl
        have hat := getElem?_length_append read unread '='
        rw [← source_eq, List.getElem?_append_left hlt] at hat
        exact hunterminated (List.mem_of_getElem? hat)
      cases reads with
      | refused _ _ defect =>
        rw [hsound] at defect
        cases defect
      | starved operator short result =>
        exact .inr ⟨hshort short (Nat.le_of_lt hlt), read.length + 1, by omega, result⟩
      | full operator limited => cases limited
      | finished terminator => exact absurd terminator hc
    · -- the terminator itself
      obtain ⟨rfl, hcons⟩ := List.append_inj source_eq heq.symm
      cases hcons
      cases reads with
      | refused d cause defect explains malformed result =>
        have hopen : ¬ text.count ')' < text.count '(' := by omega
        rw [defect?_terminator, if_neg hopen] at defect
        split at defect
        · cases defect
          have hcause : cause = .stackUnderflow .operand := by
            simpa [hopen, Defect.causes] using explains
          subst hcause
          cases malformed
        · cases defect
      | starved operator short result =>
        exact .inr ⟨short, text.length + 1, by omega, result⟩
      | full operator limited => cases limited
      | finished terminator sound complete result => exact .inl ⟨complete, _, result⟩
    · -- the machine never reads past the terminator
      have hat := getElem?_length_append text rest '='
      rw [source_eq, List.getElem?_append_left hgt] at hat
      exact absurd (List.mem_of_getElem? hat) behind.unterminated

/-- **Operands run out exactly if some are missing.**  A stack runs out of entries only behind
a position where an operand is missing.  A source that has no other defect up to its
terminator has a value exactly if no operand is missing; otherwise operands run out, no
earlier than where the first one is missing, and no later than the terminator. -/
theorem underflow_of_missing_operand (source : List Char) :
    (∀ (capacity : Option Nat) (column : Nat) (stack : StackName),
      (evaluation capacity source : Report ν).result = .error ⟨column, .stackUnderflow stack⟩ →
        ∃ k, k + 1 ≤ column ∧ lacksOperandAt source k = true) ∧
    (∀ n, source[n]? = some '=' → (∀ k < n, source[k]? ≠ some '=') →
      (∀ k < n, defectAt? source k = none) →
      (source.take n).count '(' = (source.take n).count ')' →
        ((∃ value, (evaluation none source : Report ν).result = .ok value) ↔
          ∀ k ≤ n, lacksOperandAt source k = false) ∧
        (∀ first ≤ n, lacksOperandAt source first = true →
          (∀ k < first, lacksOperandAt source k = false) →
            ∃ column, first + 1 ≤ column ∧ column ≤ n + 1 ∧
              (evaluation none source : Report ν).result =
                .error ⟨column, .stackUnderflow .operand⟩)) := by
  refine ⟨?_, ?_⟩
  · intro capacity column stack h
    exact exists_lacksOperandAt_of_underflow h
  intro n hn hfirst hclean hclosed
  obtain ⟨text, rest, rfl, rfl⟩ := exists_eq_append_of_getElem? hn
  have hunterminated : '=' ∉ text := notMem_of_getElem?_ne hfirst
  have hsound : Clean text := by
    intro k hk
    rw [← defectAt?_of_lt hk]
    exact hclean k hk
  rw [List.take_left] at hclosed
  rcases evaluation_of_closed (ν := ν) rest hsound hunterminated hclosed with
    ⟨hzero, value, hvalue⟩ | ⟨hpos, column, hcolumn, hunderflow⟩
  · have hnone : ∀ k ≤ text.length, lacksOperandAt (text ++ '=' :: rest) k = false :=
      fun k hk => lacksOperandAt_eq_false hzero hk
    refine ⟨iff_of_true ⟨value, hvalue⟩ hnone, ?_⟩
    intro first hle hlacks
    rw [hnone first hle] at hlacks
    cases hlacks
  · obtain ⟨k, hk, hlacks⟩ := exists_lacksOperandAt rest hpos
    refine ⟨iff_of_false ?_ ?_, ?_⟩
    · rintro ⟨value, hvalue⟩
      rw [hunderflow] at hvalue
      cases hvalue
    · intro hnone
      rw [hnone k hk] at hlacks
      cases hlacks
    · intro first _ _ hleast
      -- what runs out does so behind a position where an operand is missing
      obtain ⟨j, hj, hmissing⟩ := exists_lacksOperandAt_of_underflow hunderflow
      refine ⟨column, ?_, hcolumn, hunderflow⟩
      rcases Nat.lt_or_ge j first with hlt | hge
      · rw [hleast j hlt] at hmissing
        cases hmissing
      · omega

/-- A product in a group that lacks its left operand takes the one in front of the group, and
it is the sum around the group that operands run out for. -/
theorem underflow_of_borrowed_operand :
    (∃ k, k + 1 ≤ 7 ∧ lacksOperandAt ['1', '+', '(', '*', '2', ')', '='] k = true) ∧
      ∃ column, 4 ≤ column ∧ column ≤ 7 ∧
        (evaluation none ['1', '+', '(', '*', '2', ')', '='] : Report Float).result =
          .error ⟨column, .stackUnderflow .operand⟩ := by
  have h := underflow_of_missing_operand (ν := Float) ['1', '+', '(', '*', '2', ')', '=']
  refine ⟨h.1 none 7 .operand rfl, ?_⟩
  exact (h.2 6 rfl (by decide) (by decide) (by decide)).2 3 (by decide) (by decide) (by decide)

end OperatorPrecedence
