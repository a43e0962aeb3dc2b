import OperatorPrecedence.Evaluation
import OperatorPrecedence.Proofs.Balance

/-!
# Reading a text

What the machine knows of a text that it has read, and what reading one more
character can come to: the machine goes on, or it refuses the character for a defect,
or an operand is missing by then, or the stack of operators is full, or the evaluation is
finished.  Nothing else can happen, whatever the text and however many entries the
stacks may hold.

## Main definitions

* `Preceding.behind` — what the machine remembers of the last character of a text.
* `Machine.Behind` — the invariant: a machine that has read a text and waits for more.
* `Machine.Primed` — a machine about to place an operator behind a text.
* `Machine.Reads` — what reading a character can come to.
* `Machine.Ends` — how the evaluation of a source can end.

## Main results

* `Machine.Behind.step` — **reading a character behind a text**, case by case.
* `Machine.Behind.feed_waiting`, `Machine.Behind.feed_stopped` — reading a piece of a source.
* `Machine.evaluation_ends` — **evaluating a source**, case by case.
-/

namespace OperatorPrecedence

/-! ### What is remembered of the last character -/

namespace Preceding

/-- What the machine remembers of the last character of a text. -/
def behind (text : List Char) : Preceding :=
  match text.getLast? with
  | none => nothing
  | some c =>
    if isNumeric c then operand
    else if c = '(' then opening
    else if c = ')' then closing
    else operator

theorem behind_append_singleton (text : List Char) (c : Char) :
    behind (text ++ [c]) =
      if isNumeric c then operand
      else if c = '(' then opening
      else if c = ')' then closing
      else operator := by
  simp [behind]

@[simp] theorem behind_append_symbol (text : List Char) (operation : Operation) :
    behind (text ++ [operation.symbol]) = operator := by
  simp [behind_append_singleton]

@[simp] theorem behind_append_opening (text : List Char) : behind (text ++ ['(']) = opening := by
  rw [behind_append_singleton]
  rfl

@[simp] theorem behind_append_closing (text : List Char) : behind (text ++ [')']) = closing := by
  rw [behind_append_singleton]
  rfl

/-- An operand that has just ended is remembered as one. -/
@[simp] theorem endsOperand_behind (text : List Char) :
    (behind text).endsOperand = OperatorPrecedence.endsOperand text := by
  unfold behind OperatorPrecedence.endsOperand
  cases text.getLast? with
  | none => rfl
  | some c =>
    simp only [Option.any_some]
    split
    · next h => simp [h, Preceding.endsOperand]
    · next h =>
      split
      · next hc => subst hc; rfl
      · split
        · next hc => subst hc; rfl
        · next hc => simp [h, hc, Preceding.endsOperand]

theorem behind_eq_closing_iff {text : List Char} :
    behind text = closing ↔ text.getLast? = some ')' := by
  unfold behind
  cases text.getLast? with
  | none => simp
  | some c =>
    simp only [Option.some.injEq]
    constructor
    · intro h
      split at h
      · cases h
      · split at h
        · cases h
        · split at h
          · assumption
          · cases h
    · rintro rfl
      rfl

/-- What the top of a stack of operators has to do with the character before. -/
def Fits : Preceding → List Operator → Prop
  | nothing, items => items = [.terminator]
  | opening, items => ∃ rest, items = .opening :: rest
  | operator, items => ∃ top rest, items = top :: rest ∧ top.operation?.isSome = true
  | operand, _ | closing, _ => True

end Preceding

/-- Behind a clean text, an operand is to begin unless one has just ended. -/
theorem awaitsOperand_eq_not_endsOperand {text : List Char} (hclean : Clean text)
    (hunterminated : '=' ∉ text) : awaitsOperand text = !endsOperand text := by
  rcases List.eq_nil_or_concat text with rfl | ⟨before, c, rfl⟩
  · rfl
  · rw [List.concat_eq_append] at hclean hunterminated ⊢
    rw [awaitsOperand_append_singleton, endsOperand_append_singleton]
    cases CharClass.of c with
    | numeric h =>
      have hopening : c ≠ '(' := ne_of_isNumeric h (by decide)
      have hoperation : isOperation c = false := by
        simp only [isOperation, Bool.or_eq_false_iff, beq_eq_false_iff_ne]
        exact ⟨⟨⟨ne_of_isNumeric h (by decide), ne_of_isNumeric h (by decide)⟩,
          ne_of_isNumeric h (by decide)⟩, ne_of_isNumeric h (by decide)⟩
      simp [h, hopening, hoperation]
    | operation operation => simp
    | opening => rfl
    | closing => rfl
    | terminator => simp at hunterminated
    | foreign h =>
      have hdefect := (clean_append_singleton.mp hclean).2
      rw [defect?_of_foreign h] at hdefect
      cases hdefect

namespace Machine

variable {ν : Type}

/-! ### The invariant -/

/-- **A machine that has read a text** and waits for the next character.  Its stacks, its
literal and what it remembers of the last character are tied to the text. -/
structure Behind (capacity : Option Nat) (text : List Char) (m : Machine ν) : Prop where
  /-- The operators are stacked properly. -/
  stacked : Stacked m.operators.items
  /-- The capacity of the operator stack. -/
  operatorCapacity : m.operators.capacity = capacity
  /-- The capacity of the operand stack. -/
  operandCapacity : m.operands.capacity = capacity
  /-- All of the text has been counted. -/
  column : m.column = text.length
  /-- What is remembered of the last character. -/
  preceding : m.preceding = .behind text
  /-- A literal is being read if the last character belongs to one. -/
  literal : m.literal.isEmpty = false ↔ m.preceding = .operand
  /-- The top operator has to do with the last character. -/
  top : m.preceding.Fits m.operators.items
  /-- The open parentheses are on the stack. -/
  depth : m.operators.items.count .opening + text.count ')' = text.count '('
  /-- There is an operand for every operation that waits, and one more if an operand has just
  ended, less those that are missing. -/
  balance : m.operands.size + (!m.literal.isEmpty).toNat + missing text =
    waiting m.operators.items + (endsOperand text).toNat
  /-- No character had a defect. -/
  clean : Clean text
  /-- The terminator has not been read. -/
  unterminated : '=' ∉ text

/-- **A machine about to place an operator** behind a text, with the literal committed and
zero supplied to a sign.  It is short of a number of operands. -/
structure Primed (capacity : Option Nat) (text : List Char) (short : Nat) (m : Machine ν) :
    Prop where
  /-- The operators are stacked properly. -/
  stacked : Stacked m.operators.items
  /-- The capacity of the operator stack. -/
  operatorCapacity : m.operators.capacity = capacity
  /-- The capacity of the operand stack. -/
  operandCapacity : m.operands.capacity = capacity
  /-- The operator being read is counted. -/
  column : m.column = text.length + 1
  /-- The literal has been committed. -/
  literal : m.literal.isEmpty = true
  /-- The open parentheses are on the stack. -/
  depth : m.operators.items.count .opening + text.count ')' = text.count '('
  /-- There is one operand more than operations wait, less those that are missing. -/
  balance : m.operands.size + short = waiting m.operators.items + 1

/-- **What reading a character behind a text can come to.** -/
inductive Reads (capacity : Option Nat) (text : List Char) (c : Char) :
    Except (Verdict ν) (Machine ν) → Prop
  /-- The machine goes on. -/
  | onward {next : Machine ν} (behind : Behind capacity (text ++ [c]) next) :
      Reads capacity text c (.ok next)
  /-- The character has a defect and is refused for it. -/
  | refused {verdict : Verdict ν} (d : Defect) (cause : Cause) (defect : defect? text c = some d)
      (explains : cause ∈ d.causes (decide (text.count ')' < text.count '(')))
      (malformed : cause.kind = .malformed)
      (result : verdict.result = .error ⟨text.length + 1, cause⟩) :
      Reads capacity text c (.error verdict)
  /-- An operand is missing, here or before. -/
  | starved {verdict : Verdict ν} (operator : isOperation c = true ∨ c = ')' ∨ c = '=')
      (short : 0 < missing (text ++ [c]))
      (result : verdict.result = .error ⟨text.length + 1, .stackUnderflow .operand⟩) :
      Reads capacity text c (.error verdict)
  /-- There is no room for another operator. -/
  | full {verdict : Verdict ν} {n : Nat} (operator : isOperation c = true ∨ c = '(')
      (limited : capacity = some n) (sound : defect? text c = none)
      (result : verdict.result = .error ⟨text.length + 1, .stackOverflow .operator n⟩) :
      Reads capacity text c (.error verdict)
  /-- The terminator ends an expression, and nothing is missing from it. -/
  | finished {verdict : Verdict ν} {value : ν} (terminator : c = '=')
      (sound : defect? text c = none) (complete : missing (text ++ [c]) = 0)
      (result : verdict.result = .ok value) : Reads capacity text c (.error verdict)

/-! ### Placing an operator -/

namespace Primed

variable {capacity : Option Nat} {text : List Char} {short : Nat} {m : Machine ν}

/-- As long as an operand is missing, there is room for one. -/
theorem room_ne_zero (h : Primed capacity text (short + 1) m) : m.operands.room ≠ some 0 := by
  -- the operators outnumber the operations, and these the operands
  have hwaiting := h.stacked.waiting_lt
  have hbalance := h.balance
  refine Stack.room_ne_zero_of_size_lt (h.operandCapacity.trans h.operatorCapacity.symm) ?_
  unfold Stack.size at *
  omega

/-- Another operand makes up for one that is missing. -/
theorem withOperand (h : Primed capacity text (short + 1) m) (value : ν) :
    Primed capacity text short (m.withOperand value) where
  stacked := h.stacked
  operatorCapacity := h.operatorCapacity
  operandCapacity := (Stack.capacity_cover h.room_ne_zero value).trans h.operandCapacity
  column := h.column
  literal := h.literal
  depth := h.depth
  balance := by
    have hbalance := h.balance
    simp only [Machine.withOperand, Stack.size_cover]
    omega

/-- An operator that an operand follows, and that finds a looser one on top of the stack, is
put there if there is room. -/
theorem enter_on_looser (h : Primed capacity text short m) (hclean : Clean text)
    (hunterminated : '=' ∉ text) {c : Char} {op top : Operator} {rest : List Operator}
    (hc : isOperation c = true ∨ c = '(') (hsound : defect? text c = none)
    (hbehind : Preceding.ofOperator op = .behind (text ++ [c]))
    (hends : (Preceding.ofOperator op).endsOperand = false)
    (hfits : (Preceding.ofOperator op).Fits (op :: m.operators.items))
    (hcounts : [op].count .opening + [c].count ')' = [c].count '(')
    (hshort : missing (text ++ [c]) + 1 = short + op.operation?.isSome.toNat)
    (hitems : m.operators.items = top :: rest) (hstands : op.StandsOn top) :
    Reads capacity text c (m.enter op) := by
  by_cases hroom : m.operators.room = some 0
  · rw [enter_of_full hitems hstands.1 hroom]
    refine .full (n := m.operators.size) hc ?_ hsound ?_
    · exact h.operatorCapacity.symm.trans (Stack.capacity_of_full hroom)
    · simp only [record, h.column]
  · rw [enter_of_looser hitems hstands.1 hroom]
    have hoperand : Preceding.ofOperator op ≠ .operand := by
      intro hoperand
      rw [hoperand] at hends
      cases hends
    have hequals : c ≠ '=' := by
      rintro rfl
      rcases hc with hc | hc <;> cases hc
    refine .onward ⟨?_, ?_, h.operandCapacity, ?_, hbehind, ?_, hfits, ?_, ?_, ?_, ?_⟩
    · simpa only [withOperator, record, Stack.items_cover, hitems] using
        .push (hitems ▸ h.stacked) hstands
    · exact (Stack.capacity_cover hroom op).trans h.operatorCapacity
    · simpa [withOperator, record] using h.column
    · simp [withOperator, record, h.literal, hoperand]
    · have hdepth := h.depth
      change (op :: m.operators.items).count .opening + _ = _
      rw [List.count_cons, List.count_append, List.count_append]
      rw [List.count_singleton] at hcounts
      omega
    · have hbalance := h.balance
      have hnone : endsOperand (text ++ [c]) = false := by
        rw [← Preceding.endsOperand_behind, ← hbehind, hends]
      simp only [withOperator, record, h.literal, hnone, Stack.items_cover, waiting_cons,
        Bool.not_true, Bool.toNat_false]
      omega
    · exact clean_append_singleton.mpr ⟨hclean, hsound⟩
    · simpa using ⟨hunterminated, hequals.symm⟩

/-- An operation, or a sign, that finds a looser operator on top of the stack. -/
theorem enter_operation (h : Primed capacity text short m) (hclean : Clean text)
    (hunterminated : '=' ∉ text) {op top : Operator} {rest : List Operator}
    {operation : Operation} (hop : op.operation? = some operation)
    (hshort : missing (text ++ [operation.symbol]) = short)
    (hitems : m.operators.items = top :: rest) (hstands : op.StandsOn top) :
    Reads capacity text operation.symbol (m.enter op) := by
  have hpreceding : Preceding.ofOperator op = .operator := by
    cases op <;> first | rfl | cases hop
  have hopening : op ≠ .opening := by
    rintro rfl
    cases hop
  refine h.enter_on_looser hclean hunterminated (.inl (isOperation_symbol operation))
    (defect?_symbol text operation) ?_ ?_ ?_ ?_ ?_ hitems hstands
  · rw [hpreceding, Preceding.behind_append_symbol]
  · rw [hpreceding]
    rfl
  · rw [hpreceding]
    exact ⟨op, m.operators.items, rfl, by simp [hop]⟩
  · rw [List.count_cons_of_ne hopening]
    cases operation <;> rfl
  · simp [hop, hshort]

/-- An opening parenthesis, where an operand is to begin. -/
theorem enter_opening (h : Primed capacity text (missing text + 1) m) (hclean : Clean text)
    (hunterminated : '=' ∉ text) (hends : endsOperand text = false) :
    Reads capacity text '(' (m.enter .opening) := by
  obtain ⟨top, rest, hitems⟩ := h.stacked.exists_cons
  have htop : top ≠ .closing := Stacked.ne_closing (hitems ▸ h.stacked)
  have hlooser : top.binding? .opening = some .looser := by
    cases top <;> first | rfl | exact absurd rfl htop
  refine h.enter_on_looser hclean hunterminated (.inr rfl) (by simp [hends]) ?_ rfl
    ⟨m.operators.items, rfl⟩ rfl (by simp [Operator.operation?]) hitems ⟨hlooser, by simp⟩
  rw [Preceding.behind_append_opening]
  rfl

/-- A closing parenthesis, once every operation of its group has been applied. -/
theorem enter_closing (h : Primed capacity text (missing text) m) (hclean : Clean text)
    (hunterminated : '=' ∉ text) (hawaits : awaitsOperand text = false)
    (hsettled : ∀ top ∈ m.operators.items.head?, top.binding? .closing ≠ some .tighter) :
    Reads capacity text ')' (m.enter .closing) := by
  obtain ⟨top, rest, hitems⟩ := h.stacked.exists_cons
  have hstacked : Stacked (top :: rest) := hitems ▸ h.stacked
  have hdepth := h.depth
  have htop := hsettled top (by simp [hitems])
  cases top with
  | binary operation => exact absurd rfl htop
  | sign operation => exact absurd rfl htop
  | closing => exact absurd rfl hstacked.ne_closing
  | terminator =>
    -- the bottom of the stack: no group is open
    obtain rfl := hstacked.eq_nil_of_terminator
    have hcount : text.count ')' = text.count '(' := by simpa [hitems] using hdepth
    rw [enter_of_none hitems rfl]
    refine .refused .unmatchedClosing .unmatchedClosing ?_ (by simp [Defect.causes]) rfl ?_
    · simp [hawaits, hcount]
    · simp only [h.column, unplaceable]
  | opening =>
    have hcount : rest.count .opening + 1 + text.count ')' = text.count '(' := by
      simpa [hitems] using hdepth
    have hsound : defect? text ')' = none := by
      rw [defect?_closing, if_neg (by simp [hawaits]), if_neg (by omega)]
    rw [Machine.enter_closing hitems]
    refine .onward ⟨?_, ?_, h.operandCapacity, ?_, ?_, ?_, trivial, ?_, ?_, ?_, ?_⟩
    · simpa [record, hitems] using hstacked.tail (by simp)
    · exact (Stack.capacity_uncover hitems).trans h.operatorCapacity
    · simpa [record] using h.column
    · simp
    · simp [record, h.literal]
    · simp only [Stack.items_uncover, hitems, List.tail_cons, List.count_append]
      simp
      omega
    · have hbalance := h.balance
      simp [record, h.literal, hitems, Operator.operation?] at hbalance ⊢
      omega
    · exact clean_append_singleton.mpr ⟨hclean, hsound⟩
    · simpa using hunterminated

/-- The terminator, once every operation back to an open group or to the bottom of the
stack has been applied. -/
theorem enter_terminator (h : Primed capacity text (missing (text ++ ['='])) m)
    (hsettled : ∀ top ∈ m.operators.items.head?, top.binding? .terminator ≠ some .tighter) :
    Reads capacity text '=' (m.enter .terminator) := by
  obtain ⟨top, rest, hitems⟩ := h.stacked.exists_cons
  have hstacked : Stacked (top :: rest) := hitems ▸ h.stacked
  have hdepth := h.depth
  have htop := hsettled top (by simp [hitems])
  cases top with
  | binary operation => exact absurd rfl htop
  | sign operation => exact absurd rfl htop
  | closing => exact absurd rfl hstacked.ne_closing
  | opening =>
    have hopen : text.count ')' < text.count '(' := by
      have : rest.count .opening + 1 + text.count ')' = text.count '(' := by
        simpa [hitems] using hdepth
      omega
    rw [enter_of_none hitems rfl]
    have hresult : (⟨m.column, .unclosedOpening⟩ : Fault) =
        ⟨text.length + 1, .unclosedOpening⟩ := by
      rw [h.column]
    cases hawaits : awaitsOperand text with
    | true =>
      exact .refused .unfinished .unclosedOpening (by simp [hawaits])
        (by simp [Defect.causes, hopen]) rfl (congrArg _ hresult)
    | false =>
      exact .refused .unclosedOpening .unclosedOpening (by simp [hawaits, hopen])
        (by simp [Defect.causes]) rfl (congrArg _ hresult)
  | terminator =>
    obtain rfl := hstacked.eq_nil_of_terminator
    have hcount : text.count ')' = text.count '(' := by simpa [hitems] using hdepth
    have hbalance : m.operands.items.length + missing (text ++ ['=']) = 1 := by
      have hwaiting : waiting [Operator.terminator] = 0 := rfl
      have := h.balance
      rwa [hitems, hwaiting] at this
    -- at the bottom no operation waits, so there is one operand unless that is missing
    match hoperands : m.operands.items with
    | [] =>
      rw [enter_terminator_of_nil hitems hoperands]
      refine .starved (.inr (.inr rfl)) ?_ ?_
      · rw [hoperands, List.length_nil] at hbalance
        omega
      · simp only [h.column]
    | [value] =>
      have hcomplete : missing (text ++ ['=']) = 0 := by
        rw [hoperands, List.length_singleton] at hbalance
        omega
      have hawaits : awaitsOperand text = false := by
        rw [missing_append_singleton, lacksOperand_terminator] at hcomplete
        cases h : awaitsOperand text
        · rfl
        · rw [h] at hcomplete
          simp at hcomplete
      rw [Machine.enter_terminator hitems hoperands]
      exact .finished rfl (by simp [hawaits, hcount]) hcomplete rfl
    | _ :: _ :: _ =>
      rw [hoperands] at hbalance
      simp only [List.length_cons] at hbalance
      omega

variable [Numbers ν]

/-- Applying the tighter operators either leaves the machine primed as it was, or shows that
an operand is missing. -/
theorem reduce (h : Primed capacity text short m) (op : Operator) :
    (∃ next, m.reduce op = .ok next ∧ Primed capacity text short next ∧
        ∀ top ∈ next.operators.items.head?, top.binding? op ≠ some .tighter) ∨
      (∃ verdict, m.reduce op = .error verdict ∧
        verdict.result = .error ⟨text.length + 1, .stackUnderflow .operand⟩ ∧ 0 < short) := by
  have hbalance := h.balance
  rcases reduce_spec h.stacked op with ⟨next, hnext, hreduced⟩ | ⟨verdict, hverdict, hresult, hle⟩
  · refine .inl ⟨next, hnext, ⟨hreduced.stacked, hreduced.operatorCapacity.trans h.operatorCapacity,
      hreduced.operandCapacity.trans h.operandCapacity, hreduced.column.trans h.column, ?_, ?_, ?_⟩,
      hreduced.settled⟩
    · rw [hreduced.literal, h.literal]
    · rw [hreduced.openings, h.depth]
    · have hkept := hreduced.balance
      omega
  · refine .inr ⟨verdict, hverdict, ?_, by omega⟩
    rw [hresult, h.column]

/-- An operator is settled by applying what binds tighter and placing it, unless an operand
is missing by then. -/
theorem settle_of_enter (h : Primed capacity text short m) {c : Char} {op : Operator}
    (hc : isOperation c = true ∨ c = ')' ∨ c = '=')
    (hshort : 0 < short → 0 < missing (text ++ [c]))
    (henter : ∀ next : Machine ν, Primed capacity text short next →
      (∀ top ∈ next.operators.items.head?, top.binding? op ≠ some .tighter) →
        Reads capacity text c (next.enter op)) :
    Reads capacity text c (m.settle op) := by
  unfold settle
  rcases h.reduce op with ⟨next, hnext, hprimed, hsettled⟩ | ⟨verdict, hverdict, hresult, hpos⟩
  · rw [hnext]
    exact henter next hprimed hsettled
  · rw [hverdict]
    exact .starved hc (hshort hpos) hresult

theorem settle_operation (h : Primed capacity text short m) (hclean : Clean text)
    (hunterminated : '=' ∉ text) {operation : Operation}
    (hshort : missing (text ++ [operation.symbol]) = short) :
    Reads capacity text operation.symbol (m.settle (.binary operation)) := by
  refine h.settle_of_enter (.inl (isOperation_symbol operation)) (fun hpos => hshort ▸ hpos) ?_
  intro next hprimed hsettled
  obtain ⟨top, rest, hitems⟩ := hprimed.stacked.exists_cons
  have htop := hsettled top (by simp [hitems])
  -- the table has no third answer to an operation
  have hlooser : top.binding? (.binary operation) = some .looser := by
    cases top <;> simp_all [Operator.binding?]
  exact hprimed.enter_operation hclean hunterminated rfl hshort hitems ⟨hlooser, by simp⟩

/-- A sign is placed at once, on the operation before it. -/
theorem settle_sign (h : Primed capacity text short m) (hclean : Clean text)
    (hunterminated : '=' ∉ text) {operation : Operation} (hadditive : operation.isAdditive = true)
    (hshort : missing (text ++ [operation.symbol]) = short)
    {top : Operator} {rest : List Operator} (hitems : m.operators.items = top :: rest)
    (htop : top.operation?.isSome = true) :
    Reads capacity text operation.symbol (m.settle (.sign operation)) := by
  have hlooser : top.binding? (.sign operation) = some .looser := rfl
  rw [settle_of_not_tighter hitems (by simp [hlooser])]
  refine h.enter_operation hclean hunterminated rfl hshort hitems ⟨hlooser, ?_⟩
  rintro _ ⟨⟩
  exact ⟨hadditive, htop⟩

/-- An opening parenthesis is placed at once. -/
theorem settle_opening (h : Primed capacity text (missing text + 1) m) (hclean : Clean text)
    (hunterminated : '=' ∉ text) (hends : endsOperand text = false) :
    Reads capacity text '(' (m.settle .opening) := by
  obtain ⟨top, rest, hitems⟩ := h.stacked.exists_cons
  rw [settle_of_not_tighter hitems (by cases top <;> simp [Operator.binding?])]
  exact h.enter_opening hclean hunterminated hends

theorem settle_closing (h : Primed capacity text (missing text) m) (hclean : Clean text)
    (hunterminated : '=' ∉ text) (hawaits : awaitsOperand text = false) :
    Reads capacity text ')' (m.settle .closing) := by
  refine h.settle_of_enter (.inr (.inl rfl)) (fun hpos => by simpa using hpos) ?_
  intro next hprimed hsettled
  exact hprimed.enter_closing hclean hunterminated hawaits hsettled

theorem settle_terminator (h : Primed capacity text (missing (text ++ ['='])) m) :
    Reads capacity text '=' (m.settle .terminator) := by
  refine h.settle_of_enter (.inr (.inr rfl)) id ?_
  intro next hprimed hsettled
  exact hprimed.enter_terminator hsettled

end Primed

/-! ### Reading a character -/

/-- A machine that stops does so at a character. -/
theorem exists_of_feed_stopped [Numbers ν] {m : Machine ν} {source unread : List Char}
    {verdict : Verdict ν} (h : m.feed source = .stopped verdict unread) :
    ∃ read c last, source = read ++ c :: unread ∧ m.feed read = .waiting last ∧
      last.step c = .error verdict := by
  induction source generalizing m with
  | nil => cases h
  | cons c source ih =>
    rw [feed] at h
    cases hstep : m.step c with
    | error stopped =>
      rw [hstep] at h
      cases h
      exact ⟨[], c, m, rfl, rfl, hstep⟩
    | ok onward =>
      rw [hstep] at h
      obtain ⟨read, d, last, rfl, hlast, hstopped⟩ := ih h
      refine ⟨c :: read, d, last, rfl, ?_, hstopped⟩
      rw [feed, hstep]
      exact hlast

namespace Behind

variable {capacity : Option Nat} {text : List Char} {m : Machine ν}

/-- What is remembered tells whether an operand has just ended. -/
theorem endsOperand_preceding (h : Behind capacity text m) :
    m.preceding.endsOperand = endsOperand text := by
  rw [h.preceding, Preceding.endsOperand_behind]

theorem awaitsOperand_eq (h : Behind capacity text m) :
    awaitsOperand text = !endsOperand text :=
  awaitsOperand_eq_not_endsOperand h.clean h.unterminated

/-- A digit or a point is gathered, unless it follows a closing parenthesis. -/
theorem step_numeric [Numbers ν] (h : Behind capacity text m) {c : Char}
    (hc : isNumeric c = true) : Reads capacity text c (m.step c) := by
  rw [Machine.step_numeric m hc]
  unfold gather
  by_cases hclosing : m.preceding = .closing
  · rw [if_pos (by exact hclosing)]
    have hlast : text.getLast? = some ')' := by
      rw [← Preceding.behind_eq_closing_iff, ← h.preceding, hclosing]
    refine .refused .digitAfterClosing .digitAfterClosing ?_ (by simp [Defect.causes]) rfl ?_
    · rw [defect?_of_numeric hc, if_pos hlast]
    · simp only [advanced, h.column]
  · rw [if_neg (by exact hclosing)]
    have hlast : text.getLast? ≠ some ')' := by
      intro hlast
      exact hclosing (h.preceding.trans (Preceding.behind_eq_closing_iff.mpr hlast))
    have hsound : defect? text c = none := by rw [defect?_of_numeric hc, if_neg hlast]
    have hpreceding : Preceding.behind (text ++ [c]) = .operand := by
      rw [Preceding.behind_append_singleton, if_pos hc]
    refine .onward ⟨h.stacked, h.operatorCapacity, h.operandCapacity, ?_, hpreceding.symm, ?_,
      trivial, ?_, ?_, clean_append_singleton.mpr ⟨h.clean, hsound⟩, ?_⟩
    · simp [advanced, h.column]
    · simp [advanced]
    · have hopening : c ≠ '(' := ne_of_isNumeric hc (by decide)
      have hend : c ≠ ')' := ne_of_isNumeric hc (by decide)
      have hdepth := h.depth
      simp [advanced, List.count_append, hopening, hend, hdepth]
    · -- the literal stands for the operand that has just ended, be it new or not
      have hpending : (!m.literal.isEmpty) = endsOperand text := by
        have hliteral := h.literal
        rw [← h.endsOperand_preceding]
        cases hp : m.preceding <;> simp_all [Preceding.endsOperand]
      have hbalance := h.balance
      rw [hpending] at hbalance
      simp [advanced, lacksOperand_of_numeric hc, hc] at hbalance ⊢
      omega
    · have hequals : '=' ≠ c := (ne_of_isNumeric hc (by decide)).symm
      simpa using ⟨h.unterminated, hequals⟩

variable [Numbers ν]

/-- Once the literal has been committed, the machine is short of one operand more unless one
has just ended. -/
theorem commitLiteral (h : Behind capacity text m) :
    ∃ next, m.advanced.commitLiteral = .ok next ∧
      Primed capacity text (missing text + (!endsOperand text).toNat) next ∧
      next.preceding = m.preceding ∧ next.operators = m.operators := by
  have hbalance := h.balance
  cases hliteral : m.literal.isEmpty with
  | true =>
    refine ⟨m.advanced, commitLiteral_of_isEmpty hliteral, ⟨h.stacked, h.operatorCapacity,
      h.operandCapacity, by simp [advanced, h.column], hliteral, h.depth, ?_⟩, rfl, rfl⟩
    cases hends : endsOperand text <;> simp [hliteral, hends, advanced] at hbalance ⊢ <;> omega
  | false =>
    have hroom : m.operands.room ≠ some 0 := by
      refine Stack.room_ne_zero_of_size_lt (h.operandCapacity.trans h.operatorCapacity.symm) ?_
      have hwaiting := h.stacked.waiting_lt
      have hends := Bool.toNat_le (endsOperand text)
      simp only [hliteral, Bool.not_false, Bool.toNat_true] at hbalance
      unfold Stack.size at *
      omega
    refine ⟨m.advanced.committed, commitLiteral_eq hliteral hroom, ⟨h.stacked, h.operatorCapacity,
      (Stack.capacity_cover hroom _).trans h.operandCapacity, ?_, rfl, h.depth, ?_⟩, rfl, rfl⟩
    · simp [committed, advanced, record, withOperand, h.column]
    · cases hends : endsOperand text <;>
        simp [hliteral, hends, committed, advanced, record, withOperand] at hbalance ⊢ <;> omega

/-- An operation is what it says behind an operand; elsewhere a plus or minus takes zero for
its left operand, and a multiplication or division lacks one. -/
theorem step_symbol (h : Behind capacity text m) (operation : Operation) :
    Reads capacity text operation.symbol (m.step operation.symbol) := by
  obtain ⟨next, hnext, hprimed, hpreceding, hoperators⟩ := h.commitLiteral
  rw [Machine.step_symbol, accept_eq_of_commit hnext]
  have hends : next.preceding.endsOperand = endsOperand text :=
    hpreceding ▸ h.endsOperand_preceding
  have hawaits := h.awaitsOperand_eq
  cases hoperand : endsOperand text with
  | true =>
    rw [interpret_of_endsOperand (hends.trans hoperand)]
    refine hprimed.settle_operation h.clean h.unterminated ?_
    simp [hawaits, hoperand]
  | false =>
    rw [hoperand] at hprimed
    cases hadditive : operation.isAdditive with
    | false =>
      rw [interpret_of_not_additive next hadditive]
      refine hprimed.settle_operation h.clean h.unterminated ?_
      simp [hawaits, hoperand, hadditive]
    | true =>
      have hshort : missing (text ++ [operation.symbol]) = missing text := by simp [hadditive]
      have hroom := hprimed.room_ne_zero
      have hzero := hprimed.withOperand (Numbers.zero : ν)
      -- zero makes up for the operand that is to begin
      cases hp : next.preceding with
      | operand => simp [hp, hoperand, Preceding.endsOperand] at hends
      | closing => simp [hp, hoperand, Preceding.endsOperand] at hends
      | nothing =>
        rw [interpret_at_start hadditive (.inl hp) hroom]
        exact hzero.settle_operation h.clean h.unterminated hshort
      | opening =>
        rw [interpret_at_start hadditive (.inr hp) hroom]
        exact hzero.settle_operation h.clean h.unterminated hshort
      | operator =>
        have hfits := h.top
        rw [← hpreceding, hp] at hfits
        obtain ⟨top, rest, hitems, htop⟩ := hfits
        rw [interpret_behind_operator hadditive hp hroom]
        exact hzero.settle_sign h.clean h.unterminated hadditive hshort
          ((congrArg Stack.items hoperators).trans hitems) htop

/-- An opening parenthesis is refused behind an operand. -/
theorem step_opening (h : Behind capacity text m) : Reads capacity text '(' (m.step '(') := by
  obtain ⟨next, hnext, hprimed, hpreceding, -⟩ := h.commitLiteral
  rw [Machine.step_opening, accept_eq_of_commit hnext]
  have hends : next.preceding.endsOperand = endsOperand text :=
    hpreceding ▸ h.endsOperand_preceding
  change Reads capacity text '(' (next.checkPlace .opening >>= fun _ => next.settle .opening)
  unfold checkPlace
  cases hoperand : endsOperand text with
  | true =>
    simp only [hends, hoperand]
    refine .refused .missingOperator .missingOperator (by simp [hoperand])
      (by simp [Defect.causes]) rfl ?_
    simp only [hprimed.column]
  | false =>
    rw [hoperand] at hprimed
    simp only [hends, hoperand]
    exact hprimed.settle_opening h.clean h.unterminated hoperand

/-- A closing parenthesis is refused where an operand is to begin. -/
theorem step_closing (h : Behind capacity text m) : Reads capacity text ')' (m.step ')') := by
  obtain ⟨next, hnext, hprimed, hpreceding, -⟩ := h.commitLiteral
  rw [Machine.step_closing, accept_eq_of_commit hnext]
  have hends : next.preceding.endsOperand = endsOperand text :=
    hpreceding ▸ h.endsOperand_preceding
  have hawaits := h.awaitsOperand_eq
  change Reads capacity text ')' (next.checkPlace .closing >>= fun _ => next.settle .closing)
  unfold checkPlace
  cases hoperand : endsOperand text with
  | true =>
    rw [hoperand] at hprimed hawaits
    simp only [hends, hoperand]
    exact hprimed.settle_closing h.clean h.unterminated hawaits
  | false =>
    rw [hoperand] at hawaits
    simp only [hends, hoperand]
    refine .refused .missingOperand .missingOperand (by simp [hawaits])
      (by simp [Defect.causes]) rfl ?_
    simp only [hprimed.column]

theorem step_terminator (h : Behind capacity text m) : Reads capacity text '=' (m.step '=') := by
  obtain ⟨next, hnext, hprimed, -, -⟩ := h.commitLiteral
  rw [Machine.step_terminator, accept_eq_of_commit hnext]
  rw [← h.awaitsOperand_eq, ← lacksOperand_terminator, ← missing_append_singleton] at hprimed
  exact hprimed.settle_terminator

theorem step_foreign (h : Behind capacity text m) {c : Char} (hc : inAlphabet c = false) :
    Reads capacity text c (m.step c) := by
  rw [Machine.step_foreign m hc]
  refine .refused (.foreign c) (.invalidCharacter c) (defect?_of_foreign hc text)
    (by simp [Defect.causes]) rfl ?_
  simp only [advanced, h.column]

/-- **Reading a character behind a text.**  Whatever the character, one of the cases of
`Machine.Reads` is what happens. -/
theorem step (h : Behind capacity text m) (c : Char) : Reads capacity text c (m.step c) := by
  cases CharClass.of c with
  | numeric hc => exact h.step_numeric hc
  | operation operation => exact h.step_symbol operation
  | opening => exact h.step_opening
  | closing => exact h.step_closing
  | terminator => exact h.step_terminator
  | foreign hc => exact h.step_foreign hc

/-- Reading a piece of a source, as long as the machine waits for more. -/
theorem feed_waiting (h : Behind capacity text m) {rest : List Char} {next : Machine ν}
    (hfeed : m.feed rest = .waiting next) : Behind capacity (text ++ rest) next := by
  induction rest generalizing m text with
  | nil =>
    cases hfeed
    simpa using h
  | cons c rest ih =>
    have hreads := h.step c
    rw [feed] at hfeed
    cases hstep : m.step c with
    | error verdict => rw [hstep] at hfeed; cases hfeed
    | ok onward =>
      rw [hstep] at hfeed hreads
      cases hreads with
      | onward behind => simpa using ih behind hfeed

/-- Reading a piece of a source, up to the character that stops the machine. -/
theorem feed_stopped (h : Behind capacity text m) {rest unread : List Char} {verdict : Verdict ν}
    (hfeed : m.feed rest = .stopped verdict unread) :
    ∃ (read : List Char) (c : Char) (last : Machine ν), rest = read ++ c :: unread ∧
      Behind capacity (text ++ read) last ∧ Reads capacity (text ++ read) c (.error verdict) := by
  obtain ⟨read, c, last, hrest, hlast, hstep⟩ := exists_of_feed_stopped hfeed
  have hbehind := h.feed_waiting hlast
  exact ⟨read, c, last, hrest, hbehind, hstep ▸ hbehind.step c⟩

end Behind

/-! ### Evaluating a source -/

variable [Numbers ν]

/-- The machine before the first character has read nothing. -/
theorem start_spec (capacity : Option Nat) :
    (∃ m : Machine ν, start capacity = .ok m ∧ Behind capacity [] m) ∨
      capacity = some 0 ∧ ∃ verdict : Verdict ν, start capacity = .error verdict ∧
        verdict.result = .error ⟨0, .stackOverflow .operator 0⟩ ∧ verdict.log = [] := by
  unfold start putOperator
  by_cases hroom : capacity = some 0
  · rw [Stack.push_of_full (by exact hroom)]
    exact .inr ⟨hroom, _, rfl, rfl, rfl⟩
  · have hempty : (Stack.empty capacity : Stack Operator).room ≠ some 0 := hroom
    refine .inl ⟨_, by rw [Stack.push_eq_cover hempty]; rfl, ?_⟩
    refine ⟨.bottom, ?_, Stack.capacity_empty capacity, rfl, rfl, ?_, rfl, rfl, rfl, clean_nil, ?_⟩
    · exact (Stack.capacity_cover hempty .terminator).trans (Stack.capacity_empty capacity)
    · simp [Literal.isEmpty, Literal.empty]
    · simp

/-- The machine before the first character, if there is room for the mark at the bottom. -/
theorem eq_of_start {capacity : Option Nat} {first : Machine ν}
    (hstart : start capacity = .ok first) :
    first =
      ⟨(Stack.empty capacity).cover .terminator, .empty capacity, .empty, .nothing, 0, []⟩ := by
  unfold start putOperator at hstart
  by_cases hroom : capacity = some 0
  · rw [Stack.push_of_full (by exact hroom)] at hstart
    cases hstart
  · rw [Stack.push_eq_cover (by exact hroom)] at hstart
    cases hstart
    rfl

theorem behind_of_start {capacity : Option Nat} {first : Machine ν}
    (hstart : start capacity = .ok first) : Behind capacity [] first := by
  rcases start_spec (ν := ν) capacity with ⟨begun, hbegun, h⟩ | ⟨-, verdict, hverdict, -⟩
  · cases hstart.symm.trans hbegun
    exact h
  · cases hstart.symm.trans hverdict

/-- A machine that waits for more has read what it was fed. -/
theorem behind_of_feed {capacity : Option Nat} {text : List Char} {first m : Machine ν}
    (hstart : start capacity = .ok first) (hfeed : first.feed text = .waiting m) :
    Behind capacity text m :=
  (behind_of_start hstart).feed_waiting hfeed

/-- **How the evaluation of a source can end.** -/
inductive Ends (capacity : Option Nat) (source : List Char) : Report ν → Prop
  /-- Not even the mark at the bottom of the operator stack has room. -/
  | noRoom {verdict : Verdict ν} (limited : capacity = some 0)
      (result : verdict.result = .error ⟨0, .stackOverflow .operator 0⟩)
      (log : verdict.log = []) : Ends capacity source (verdict.report source)
  /-- All of the source has been read, and the machine waits for more. -/
  | exhausted {m : Machine ν} (behind : Behind capacity source m) :
      Ends capacity source m.endOfInput
  /-- A character stops the machine. -/
  | stopped {text rest : List Char} {c : Char} {m : Machine ν} {verdict : Verdict ν}
      (source_eq : source = text ++ c :: rest) (behind : Behind capacity text m)
      (reads : Reads capacity text c (.error verdict)) : Ends capacity source (verdict.report rest)

/-- Every evaluation ends in one of these ways. -/
theorem evaluation_ends (capacity : Option Nat) (source : List Char) :
    Ends capacity source (evaluation capacity source : Report ν) := by
  unfold evaluation
  rcases start_spec (ν := ν) capacity with
    ⟨m, hstart, hbehind⟩ | ⟨hcapacity, verdict, hstart, hresult, hlog⟩
  · rw [hstart]
    cases hfeed : m.feed source with
    | waiting next => simpa [hfeed] using Ends.exhausted (hbehind.feed_waiting hfeed)
    | stopped verdict unread =>
      obtain ⟨read, c, last, hsource, hlast, hreads⟩ := hbehind.feed_stopped hfeed
      simpa [hfeed] using Ends.stopped hsource hlast hreads
  · rw [hstart]
    exact .noRoom hcapacity hresult hlog

end Machine

variable [Numbers ν]

/-- The report that the reading of a piece of a source comes to if nothing follows. -/
def Progress.report : Progress ν → Report ν
  | .waiting m => m.endOfInput
  | .stopped verdict unread => verdict.report unread

theorem evaluation_of_start {capacity : Option Nat} {m : Machine ν}
    (h : Machine.start capacity = .ok m) (source : List Char) :
    evaluation capacity source = (m.feed source).report := by
  unfold evaluation
  rw [h]
  show (match m.feed source with | .waiting next => _ | .stopped verdict unread => _) = _
  cases m.feed source <;> rfl

end OperatorPrecedence
