import OperatorPrecedence.Proofs.History
import OperatorPrecedence.Proofs.Value

/-!
# The order of evaluation

The whole log of an expression is known: it consists of the records of the expression as a
phrase, and of its value.  Two kinds of records tell in which order things are done.  The folds
are the operations of the derivation tree in post-order, although some of them have to wait for
an operator that comes much later.  The commits are the literals from left to right, each as soon
as the operator behind it is read.

## Main definitions

* `recordsOf` — the records of a kind.
* `Occurrence` — a literal, and where it stands.
* `Occurrence.StandsIn` — a literal stands in a source, and an operator behind it.
* `Phrase.literals` — the literals of a phrase from left to right.

## Main results

* `Phrase.evaluation_eq` — the report of an expression, down to the last record.
* `Phrase.folds_of_records`, `Phrase.commits_of_records` — the folds and the commits of a phrase.
* `Phrase.evaluation_in_post_order` — **folds happen in post-order**.
-/

namespace OperatorPrecedence

/-! ### The report of an expression -/

section Report

open Machine

variable {ν : Type} [Numbers ν]

/-- The report of an expression: nothing has been recorded but what is recorded of the phrase,
and its value. -/
theorem Phrase.evaluation_eq (e : Phrase .expression) (rest : List Char) :
    (evaluation none (e.text ++ '=' :: rest) : Report ν) =
      ⟨.ok e.value, e.records 0 .terminator ++ [⟨e.text.length + 1, .evaluated e.value⟩], rest,
        false⟩ := by
  obtain ⟨first, hstart, hready, hbottom, hnone⟩ := start_ready (ν := ν)
  obtain ⟨hcolumn, hlog⟩ : first.column = 0 ∧ first.log = [] := by
    cases hstart
    exact ⟨rfl, rfl⟩
  obtain ⟨next, hfeed, hfollow⟩ := e.yields hready
  obtain ⟨holding, hholds, hstep⟩ := hfollow .terminator trivial
  rw [hcolumn, top_eq hbottom] at hholds
  have hitems : holding.operators.items = [.terminator] := by
    rw [hholds.operators, hbottom]
  have hoperands : holding.operands.items = [e.value] := by
    rw [hholds.operands, Stack.items_cover, hnone]
  have hrecorded : (holding.record (.evaluated e.value)).log =
      ⟨e.text.length + 1, .evaluated e.value⟩ :: (e.records 0 .terminator).reverse := by
    simp [record, hholds.log, hholds.column, hcolumn, hlog]
  -- the two terminators meet over the single operand that is left
  have hend : next.step '=' = .error ⟨.ok e.value, (holding.record (.evaluated e.value)).log⟩ := by
    rw [← enter_terminator hitems hoperands, ← settle_of_not_tighter hitems (by decide), ← hstep]
    rfl
  rw [evaluation, hstart]
  simp only [feed_append, hfeed, feed, hend]
  rw [Verdict.report, hrecorded, List.reverse_cons, List.reverse_reverse]

end Report

/-! ### Records of one kind -/

/-- The records of a kind. -/
def recordsOf {ν : Type} (kind : Event.Kind) (log : List (Record ν)) : List (Record ν) :=
  log.filter fun r => r.event.kind = kind

section RecordsOf

variable {ν : Type} {kind : Event.Kind}

@[simp] theorem recordsOf_nil : recordsOf kind ([] : List (Record ν)) = [] := rfl

@[simp] theorem recordsOf_append (log later : List (Record ν)) :
    recordsOf kind (log ++ later) = recordsOf kind log ++ recordsOf kind later :=
  List.filter_append ..

theorem recordsOf_cons (r : Record ν) (log : List (Record ν)) :
    recordsOf kind (r :: log) =
      (if r.event.kind = kind then [r] else []) ++ recordsOf kind log := by
  by_cases h : r.event.kind = kind
  · simp [recordsOf, h]
  · simp [recordsOf, h]

end RecordsOf

/-! ### Literals and where they stand -/

/-- A literal of a source: the number of characters in front of it, and its text. -/
structure Occurrence where
  start : Nat
  text : List Char

namespace Occurrence

/-- The number of characters in front of the one behind the literal. -/
def stop (l : Occurrence) : Nat := l.start + l.text.length

/-- The commit of a literal, when the character behind it is read. -/
def commit {ν : Type} [Numbers ν] (l : Occurrence) : Record ν :=
  ⟨l.stop + 1, .commit (Literal.valueOf l.text)⟩

/-- **A literal stands in a source**, and the character behind it is an operator. -/
def StandsIn (l : Occurrence) (source : List Char) : Prop :=
  ∃ before, ∃ op : Operator, ∃ after, source = before ++ l.text ++ op.symbol :: after ∧
    before.length = l.start

end Occurrence

namespace Phrase

variable {r : Rank}

/-- The literals of a phrase with `n` characters in front of it, from left to right. -/
def literals (n : Nat) : {r : Rank} → Phrase r → List Occurrence
  | _, literal text _ _ => [⟨n, text⟩]
  | _, group e => e.literals (n + 1)
  | _, factor p => p.literals n
  | _, sign _ _ f => f.literals (n + 1)
  | _, term f => f.literals n
  | _, product t _ _ f => t.literals n ++ f.literals (n + t.text.length + 1)
  | _, leading p => p.literals n
  | _, leadingProduct t _ _ f => t.literals n ++ f.literals (n + t.text.length + 1)
  | _, plain t => t.literals n
  | _, signed _ _ t => t.literals (n + 1)
  | _, expression h => h.literals n
  | _, sum e _ _ t => e.literals n ++ t.literals (n + e.text.length + 1)

/-- The literals of a phrase stand in its text, wherever that stands in front of an operator. -/
theorem standsIn_of_mem_literals (p : Phrase r) (before : List Char) (op : Operator)
    (after : List Char) :
    ∀ l ∈ p.literals before.length, l.StandsIn (before ++ p.text ++ op.symbol :: after) := by
  -- behind the left operand of an operation stands that operation
  induction p generalizing before op after with
  | literal text nonempty numeric =>
    intro l hl
    obtain rfl := List.mem_singleton.mp hl
    exact ⟨before, op, after, rfl, rfl⟩
  | group e ih =>
    intro l hl
    have h := ih (before ++ ['(']) .closing (op.symbol :: after) l (by simpa [literals] using hl)
    simpa [text, Operator.symbol] using h
  | factor p ih | term p ih | leading p ih | plain p ih | expression p ih =>
    exact ih before op after
  | sign sign additive f ih | signed sign additive f ih =>
    intro l hl
    have h := ih (before ++ [sign.symbol]) op after l (by simpa [literals] using hl)
    simpa [text] using h
  | product t operation kind f iht ihf | leadingProduct t operation kind f iht ihf
  | sum t operation kind f iht ihf =>
    intro l hl
    rcases List.mem_append.mp hl with hl | hl
    · have h := iht before (.binary operation) (f.text ++ op.symbol :: after) l hl
      simpa [text, Operator.symbol] using h
    · have h := ihf (before ++ t.text ++ [operation.symbol]) op after l
        (by simpa [Nat.add_assoc] using hl)
      simpa [text] using h

/-- The literals of a phrase stand among its characters. -/
theorem bounds_of_mem_literals (p : Phrase r) (n : Nat) :
    ∀ l ∈ p.literals n, n ≤ l.start ∧ l.stop ≤ n + p.text.length := by
  induction p generalizing n with
  | literal text nonempty numeric =>
    intro l hl
    obtain rfl := List.mem_singleton.mp hl
    exact ⟨Nat.le_refl _, Nat.le_refl _⟩
  | group e ih =>
    intro l hl
    have h := ih (n + 1) l hl
    simp only [text, List.length_append, List.length_cons]
    omega
  | factor p ih | term p ih | leading p ih | plain p ih | expression p ih => exact ih n
  | sign sign additive f ih | signed sign additive f ih =>
    intro l hl
    have h := ih (n + 1) l hl
    simp only [text, List.length_cons]
    omega
  | product t operation kind f iht ihf | leadingProduct t operation kind f iht ihf
  | sum t operation kind f iht ihf =>
    intro l hl
    simp only [text, List.length_append, List.length_cons]
    rcases List.mem_append.mp hl with hl | hl
    · have h := iht n l hl
      omega
    · have h := ihf (n + t.text.length + 1) l hl
      omega

/-- The literals of a phrase come from left to right. -/
theorem pairwise_literals (p : Phrase r) (n : Nat) :
    (p.literals n).Pairwise fun l later => l.stop < later.start := by
  induction p generalizing n with
  | literal text nonempty numeric => exact List.pairwise_singleton ..
  | group e ih => exact ih (n + 1)
  | factor p ih | term p ih | leading p ih | plain p ih | expression p ih => exact ih n
  | sign sign additive f ih | signed sign additive f ih => exact ih (n + 1)
  | product t operation kind f iht ihf | leadingProduct t operation kind f iht ihf
  | sum t operation kind f iht ihf =>
    refine List.pairwise_append.mpr ⟨iht n, ihf _, ?_⟩
    intro l hl later hlater
    have hleft := t.bounds_of_mem_literals n l hl
    have hright := f.bounds_of_mem_literals _ later hlater
    omega

/-! ### The folds and the commits of a phrase -/

variable {ν : Type} [Numbers ν]

/-- **The folds of a phrase are its operations in post-order.** -/
theorem folds_of_records (p : Phrase r) (n : Nat) (top : Operator) :
    (recordsOf .fold (p.records n top : List (Record ν))).map Record.event = p.folds := by
  induction p generalizing n top with
  | literal text nonempty numeric => rfl
  | group e ih => simp [records, folds, recordsOf_cons, Event.kind, ih]
  | factor p ih | term p ih | leading p ih | plain p ih | expression p ih => exact ih n top
  | sign op additive f ih | signed op additive f ih =>
    simp [records, folds, recordsOf_cons, Event.kind, foldEvent, ih]
  | product t op kind f iht ihf | leadingProduct t op kind f iht ihf | sum t op kind f iht ihf =>
    simp [records, folds, recordsOf_cons, Event.kind, foldEvent, iht, ihf]

/-- **The commits of a phrase are those of its literals.** -/
theorem commits_of_records (p : Phrase r) (n : Nat) (top : Operator) :
    recordsOf .commit (p.records n top : List (Record ν)) =
      (p.literals n).map Occurrence.commit := by
  induction p generalizing n top with
  | literal text nonempty numeric => rfl
  | group e ih => simp [records, literals, recordsOf_cons, Event.kind, ih]
  | factor p ih | term p ih | leading p ih | plain p ih | expression p ih => exact ih n top
  | sign op additive f ih | signed op additive f ih =>
    simp [records, literals, recordsOf_cons, Event.kind, foldEvent, ih]
  | product t op kind f iht ihf | leadingProduct t op kind f iht ihf | sum t op kind f iht ihf =>
    simp [records, literals, recordsOf_cons, Event.kind, foldEvent, iht, ihf]

/-- **Folds happen in post-order.**  Without a limit, what is logged of folds for the text of an
expression are its operations in post-order, each with its two operands and its result; a sign
has zero for its left operand.  What is logged of commits are its literals from left to right, one
record for each, in the column of the operator that stands behind the literal. -/
theorem evaluation_in_post_order (e : Phrase .expression) (rest : List Char) :
    let source := e.text ++ '=' :: rest
    let report : Report ν := evaluation none source
    (recordsOf .fold report.log).map Record.event = e.folds ∧
    recordsOf .commit report.log = (e.literals 0).map Occurrence.commit ∧
    (e.literals 0).Pairwise (fun l later => l.stop < later.start) ∧
    ∀ l ∈ e.literals 0, l.StandsIn source := by
  intro source report
  have hlog : report.log =
      e.records 0 .terminator ++ [⟨e.text.length + 1, .evaluated e.value⟩] :=
    congrArg Report.log (e.evaluation_eq rest)
  refine ⟨?_, ?_, e.pairwise_literals 0, e.standsIn_of_mem_literals [] .terminator rest⟩
  · rw [hlog, recordsOf_append, List.map_append, folds_of_records]
    simp [recordsOf_cons, Event.kind]
  · rw [hlog, recordsOf_append, commits_of_records]
    simp [recordsOf_cons, Event.kind]

/-- The literal of a single digit. -/
def digit (c : Char) (hc : isNumeric c = true) : Phrase .primary :=
  .literal [c] (List.cons_ne_nil c []) (by simpa using hc)

/-- The product that is written `-1*-2`, with a sign at the start and another one behind the
operator. -/
def productWithSigns : Phrase .expression :=
  .expression (.signed .sub rfl (.product (.term (.factor (digit '1' rfl))) .mul rfl
    (.sign .sub rfl (.factor (digit '2' rfl)))))

/-- In `-1*-2` the sign of the factor is applied before the product, and the sign at the start
behind it. -/
theorem post_order_of_product_with_signs :
    let source := ['-', '1', '*', '-', '2', '=']
    let report : Report Float := evaluation none source
    let one : Float := Literal.valueOf ['1']
    let two : Float := Literal.valueOf ['2']
    let factor := Numbers.apply .sub Numbers.zero two
    (recordsOf .fold report.log).map Record.event =
      [foldEvent Numbers.zero .sub two, foldEvent one .mul factor,
        foldEvent Numbers.zero .sub (Numbers.apply .mul one factor)] ∧
    recordsOf .commit report.log = [⟨3, .commit one⟩, ⟨6, .commit two⟩] ∧
    (⟨4, ['2']⟩ : Occurrence).StandsIn source := by
  obtain ⟨hfolds, hcommits, -, hstands⟩ :=
    productWithSigns.evaluation_in_post_order (ν := Float) []
  exact ⟨hfolds, hcommits, hstands ⟨4, ['2']⟩ (by simp [productWithSigns, digit, literals, text])⟩

end Phrase

end OperatorPrecedence
