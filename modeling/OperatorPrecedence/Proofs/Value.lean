import OperatorPrecedence.Evaluation
import OperatorPrecedence.Proofs.Moves

/-!
# The value of an expression

On stacks without a limit, the text of an expression with a terminator behind it has the
value of the expression: every operation gets the operands that the grammar gives it, and
what stands behind the terminator does not matter.

A machine that has read a phrase has not always computed its value yet, since operations
wait on the stack until an operator shows that nothing tighter follows.  What can be said
is that, when such an operator comes, the machine goes on like one that finds the value
among its operands.  Which operators these are depends on the rank of the phrase: a
multiplication leaves a term whole, but it takes up the last term of a sum.

By then everything has been recorded that a phrase gives rise to, so that the log of an
expression is known as well, down to the last record.

## Main definitions

* `Phrase.records` — what is recorded of a phrase.
* `Operator.Follows` — the operators that leave a phrase of some rank whole.
* `Rank.BeginsBehind`, `Machine.Ready` — where a phrase of some rank may begin.
* `Machine.Holds` — a machine with a value more among its operands.
* `Machine.Yields` — a text that amounts to a value.

## Main results

* `Literal.value_foldl_push` — gathering a text gives the value of the text.
* `Machine.Ready.operate` — how an operation gets its two operands.
* `Machine.Ready.group` — a group amounts to a value, whatever is on the stacks.
* `Phrase.yields` — a phrase amounts to its value, wherever it may begin.
* `Phrase.evaluation_text` — **the text of an expression has its value.**
-/

namespace OperatorPrecedence

/-! ### The value of a literal -/

namespace Literal

variable {ν : Type} [Numbers ν]

/-- A text that is no number keeps the value that it had without its last character. -/
theorem valueOf_append_singleton (text : List Char) (c : Char) :
    (valueOf (text ++ [c]) : ν) = (Numbers.read? (text ++ [c])).getD (valueOf text) := by
  have hrange : (List.range (text ++ [c]).length).reverse =
      text.length :: (List.range text.length).reverse := by
    simp [List.range_succ]
  have hwhole : (text ++ [c]).take (text.length + 1) = text ++ [c] :=
    List.take_of_length_le (by simp)
  have hshorter : (List.range text.length).reverse.map
        (fun n => (Numbers.read? ((text ++ [c]).take (n + 1)) : Option ν)) =
      (List.range text.length).reverse.map fun n => Numbers.read? (text.take (n + 1)) := by
    refine List.map_congr_left ?_
    intro n hn
    have hlt : n < text.length := by simpa using hn
    rw [List.take_append_of_le_length (by omega)]
  have hfind := congrArg (List.findSome? id) hshorter
  rw [List.findSome?_map, List.findSome?_map] at hfind
  unfold valueOf
  rw [hrange, List.findSome?_cons, hwhole]
  -- the whole text is tried first, and what is tried after it are the beginnings of `text`
  cases (Numbers.read? (text ++ [c]) : Option ν) with
  | none => exact congrArg (·.getD Numbers.zero) hfind
  | some value => rfl

theorem value_push {l : Literal ν} (h : l.value = valueOf l.text) (c : Char) :
    (l.push c).value = valueOf (l.push c).text := by
  rw [text_push, valueOf_append_singleton, ← h]
  simp [push, text]

theorem foldl_push {l : Literal ν} (h : l.value = valueOf l.text) (text : List Char) :
    (text.foldl push l).text = l.text ++ text ∧
      (text.foldl push l).value = valueOf (l.text ++ text) := by
  induction text generalizing l with
  | nil => simpa using h
  | cons c text ih => simpa using ih (value_push h c)

/-- **Gathering a text gives the value of the text**, although that is only ever brought up to
date. -/
theorem value_foldl_push (text : List Char) :
    (text.foldl push (empty : Literal ν)).value = valueOf text :=
  (foldl_push rfl text).2

theorem isEmpty_foldl_push {text : List Char} (h : text ≠ []) :
    (text.foldl push (empty : Literal ν)).isEmpty = false := by
  rw [← Bool.not_eq_true, isEmpty_iff_text, (foldl_push rfl text).1]
  simpa using h

end Literal

/-! ### What is recorded of a phrase -/

/-- What is recorded of a phrase that begins behind `n` characters, over `top` on the operator
stack, up to and including what the operator behind it gives rise to: a literal is committed
when that operator is read, and an operation is applied then.  So an operation is pushed behind
the records of its left operand, and applied behind those of its right one. -/
def Phrase.records {ν : Type} [Numbers ν] (n : Nat) (top : Operator) :
    {r : Rank} → Phrase r → List (Record ν)
  | _, literal text _ _ => [⟨n + text.length + 1, .commit (Literal.valueOf text)⟩]
  | _, group e =>
    [⟨n + 1, .push .opening top⟩] ++ e.records (n + 1) .opening ++
      [⟨n + (group e).text.length, .close .closing .opening⟩]
  | _, factor p => p.records n top
  | _, sign op h f =>
    [⟨n + 1, .push (.sign op) top⟩] ++ f.records (n + 1) (.sign op) ++
      [⟨n + (sign op h f).text.length + 1, foldEvent Numbers.zero op f.value⟩]
  | _, term f => f.records n top
  | _, product t op h f =>
    t.records n top ++ [⟨n + t.text.length + 1, .push (.binary op) top⟩] ++
      f.records (n + t.text.length + 1) (.binary op) ++
      [⟨n + (product t op h f).text.length + 1, foldEvent t.value op f.value⟩]
  | _, leading p => p.records n top
  | _, leadingProduct t op h f =>
    t.records n top ++ [⟨n + t.text.length + 1, .push (.binary op) top⟩] ++
      f.records (n + t.text.length + 1) (.binary op) ++
      [⟨n + (leadingProduct t op h f).text.length + 1, foldEvent t.value op f.value⟩]
  | _, plain t => t.records n top
  | _, signed op h t =>
    [⟨n + 1, .push (.binary op) top⟩] ++ t.records (n + 1) (.binary op) ++
      [⟨n + (signed op h t).text.length + 1, foldEvent Numbers.zero op t.value⟩]
  | _, expression h => h.records n top
  | _, sum e op h t =>
    e.records n top ++ [⟨n + e.text.length + 1, .push (.binary op) top⟩] ++
      t.records (n + e.text.length + 1) (.binary op) ++
      [⟨n + (sum e op h t).text.length + 1, foldEvent e.value op t.value⟩]

/-! ### Where phrases begin and end -/

/-- Whether phrases of a rank are sums, which a multiplication or division behind them would
take apart. -/
def Rank.isSum : Rank → Bool
  | .head | .expression => true
  | .primary | .factor | .term | .leading => false

/-- The operators that leave a phrase of some rank whole if they follow it. -/
def Operator.Follows (op : Operator) (r : Rank) : Prop :=
  match op with
  | .binary operation => r.isSum = true → operation.isAdditive = true
  | .closing | .terminator => True
  | .sign _ | .opening => False

/-- Where a phrase of some rank may begin: behind which kind of character, and with which
operator on top of the stack. -/
def Rank.BeginsBehind (r : Rank) (preceding : Preceding) (top : Operator) : Prop :=
  match r with
  | .primary => preceding.endsOperand = false ∧ top ≠ .closing
  | .factor => preceding = .operator ∧ top ≠ .closing
  | .term => preceding = .operator ∧
      ∃ operation, top = .binary operation ∧ operation.isAdditive = true
  | .leading | .head | .expression =>
      (preceding = .nothing ∨ preceding = .opening) ∧ (top = .opening ∨ top = .terminator)

theorem Rank.factor_beginsBehind_binary (operation : Operation) :
    Rank.factor.BeginsBehind .operator (.binary operation) := ⟨rfl, nofun⟩

theorem Rank.factor_beginsBehind_sign (operation : Operation) :
    Rank.factor.BeginsBehind .operator (.sign operation) := ⟨rfl, nofun⟩

theorem Rank.term_beginsBehind_binary {operation : Operation}
    (h : operation.isAdditive = true) :
    Rank.term.BeginsBehind .operator (.binary operation) := ⟨rfl, operation, rfl, h⟩

theorem Operator.binary_follows {r : Rank} (hr : r.isSum = false) (operation : Operation) :
    (Operator.binary operation).Follows r := by
  intro hsum
  rw [hr] at hsum
  cases hsum

theorem Operator.Follows.mono {op : Operator} {r s : Rank} (h : op.Follows s)
    (hrs : r.isSum = true → s.isSum = true) : op.Follows r := by
  cases op with
  | binary operation =>
    intro hr
    exact h (hrs hr)
  | closing => trivial
  | terminator => trivial
  | sign operation => cases h
  | opening => cases h

/-- An operation binds tighter than an operator that leaves its result whole, provided that the
result of an addition or subtraction is known to be a sum. -/
theorem Operator.Follows.binding?_binary {op : Operator} {r : Rank} (h : op.Follows r)
    {operation : Operation} (hsum : operation.isAdditive = true → r.isSum = true) :
    (Operator.binary operation).binding? op = some .tighter := by
  cases op with
  | binary incoming =>
    cases hoperation : operation.isAdditive with
    | false => simp [binding?, hoperation]
    | true =>
      have hincoming : incoming.isAdditive = true := h (hsum hoperation)
      simp [binding?, hincoming]
  | closing => rfl
  | terminator => rfl
  | sign incoming => cases h
  | opening => cases h

/-- A sign binds tighter than whatever follows its operand. -/
theorem Operator.Follows.binding?_sign {op : Operator} {r : Rank} (h : op.Follows r)
    (operation : Operation) : (Operator.sign operation).binding? op = some .tighter := by
  cases op with
  | binary incoming => rfl
  | closing => rfl
  | terminator => rfl
  | sign incoming => cases h
  | opening => cases h

namespace Machine

variable {ν : Type}

/-- The operator on top of the stack, where there always is one. -/
def top (m : Machine ν) : Operator := m.operators.items.headD .terminator

theorem top_eq {m : Machine ν} {op : Operator} {rest : List Operator}
    (h : m.operators.items = op :: rest) : m.top = op := by
  rw [top, h, List.headD_cons]

variable [Numbers ν]

/-- **A machine about to read a phrase** of some rank, on stacks without a limit. -/
structure Ready (r : Rank) (m : Machine ν) : Prop where
  /-- The operator stack has no limit. -/
  operatorRoom : m.operators.room = none
  /-- The operand stack has no limit. -/
  operandRoom : m.operands.room = none
  /-- No literal has begun. -/
  literal : m.literal = .empty
  /-- A phrase of that rank may begin here. -/
  begins : ∃ top rest, m.operators.items = top :: rest ∧ r.BeginsBehind m.preceding top

/-- A machine that has read `n` characters more than `m`, has made some records, and holds what
`m` holds and one operand more. -/
structure Holds (m : Machine ν) (value : ν) (n : Nat) (records : List (Record ν))
    (next : Machine ν) : Prop where
  /-- The operators are those of `m`. -/
  operators : next.operators = m.operators
  /-- The value is on top of the operands of `m`. -/
  operands : next.operands = m.operands.cover value
  /-- No literal has begun. -/
  literal : next.literal = .empty
  /-- All characters are counted. -/
  column : next.column = m.column + n
  /-- The records follow those of `m`. -/
  log : next.log = records.reverse ++ m.log

/-- A machine that has read `n` characters more than `m`, has made some records, and holds what
`m` holds, the left operand of an operator, and the operator. -/
structure Awaits (m : Machine ν) (left : ν) (op : Operator) (n : Nat) (records : List (Record ν))
    (next : Machine ν) : Prop where
  /-- The operator is on top of the operators of `m`. -/
  operators : next.operators = m.operators.cover op
  /-- The left operand is on top of the operands of `m`. -/
  operands : next.operands = m.operands.cover left
  /-- No literal has begun. -/
  literal : next.literal = .empty
  /-- The operator was the last character. -/
  preceding : next.preceding = .ofOperator op
  /-- All characters are counted. -/
  column : next.column = m.column + n
  /-- The records follow those of `m`. -/
  log : next.log = records.reverse ++ m.log

/-- **A text that amounts to a value.**  Once it has been read, an operator that leaves a phrase
of the given rank whole is settled as by a machine that holds the value, and has made the
records of the text. -/
def Yields (m : Machine ν) (r : Rank) (text : List Char) (value : ν)
    (records : List (Record ν)) : Prop :=
  ∃ next, m.feed text = .waiting next ∧ ∀ op : Operator, op.Follows r →
    ∃ holding, m.Holds value (text.length + 1) records holding ∧
      next.step op.symbol = holding.settle op

variable {r s t : Rank} {m next holding : Machine ν} {text : List Char} {value left right : ν}
  {records before after : List (Record ν)}

/-- What leaves a phrase whole also does so if the phrase is taken for one of a rank that
fewer operators leave whole. -/
theorem Yields.mono (h : m.Yields r text value records)
    (hrs : r.isSum = true → s.isSum = true) : m.Yields s text value records := by
  obtain ⟨next, hfeed, hfollow⟩ := h
  refine ⟨next, hfeed, ?_⟩
  intro op hop
  exact hfollow op (hop.mono hrs)

/-- Where a phrase of one rank may begin, one of another rank may. -/
theorem Ready.mono (hm : m.Ready r)
    (hrs : ∀ {preceding top}, r.BeginsBehind preceding top → s.BeginsBehind preceding top) :
    m.Ready s := by
  obtain ⟨top, rest, hitems, hbegins⟩ := hm.begins
  exact ⟨hm.operatorRoom, hm.operandRoom, hm.literal, top, rest, hitems, hrs hbegins⟩

theorem Ready.primary_of_factor (hm : m.Ready .factor) : m.Ready .primary := by
  refine hm.mono ?_
  rintro preceding top ⟨rfl, htop⟩
  exact ⟨rfl, htop⟩

theorem Ready.factor_of_term (hm : m.Ready .term) : m.Ready .factor := by
  refine hm.mono ?_
  rintro preceding top ⟨hpreceding, operation, rfl, -⟩
  exact ⟨hpreceding, nofun⟩

theorem Ready.primary_of_leading (hm : m.Ready .leading) : m.Ready .primary := by
  refine hm.mono ?_
  rintro preceding top ⟨rfl | rfl, rfl | rfl⟩ <;> exact ⟨rfl, nofun⟩

/-- At the start of an expression, every operation finds a looser operator on top. -/
theorem Ready.looser_at_start (hm : m.Ready .expression) (operation : Operation) :
    ∀ top ∈ m.operators.items.head?, top.binding? (.binary operation) = some .looser := by
  obtain ⟨top, rest, hitems, -, rfl | rfl⟩ := hm.begins <;> simp [hitems, Operator.binding?]

/-! ### Settling an operator behind an operand -/

/-- Behind an operand, an operator that may follow it is accepted as it is. -/
theorem step_of_follows {op : Operator} (hop : op.Follows r)
    (hcommit : m.advanced.commitLiteral = .ok next) (hends : next.preceding.endsOperand = true) :
    m.step op.symbol = next.settle op := by
  have hstep : m.step op.symbol = m.advanced.accept op := by
    cases op with
    | binary operation => exact m.step_symbol operation
    | closing => exact m.step_closing
    | terminator => exact m.step_terminator
    | sign operation => cases hop
    | opening => cases hop
  have hplace : next.checkPlace op = .ok () := by
    cases op with
    | closing => simp only [checkPlace, hends, if_true]
    | opening => cases hop
    | _ => rfl
  rw [hstep, accept_eq_of_commit hcommit, interpret_of_endsOperand hends]
  simp only [bind, Except.bind, hplace]

/-- A machine that holds a value, and knows that an operand has just ended, has read a text
that amounts to the value. -/
theorem Holds.yields (h : m.Holds value text.length records next)
    (hfeed : m.feed text = .waiting next) (hends : next.preceding.endsOperand = true) :
    m.Yields r text value records := by
  refine ⟨next, hfeed, ?_⟩
  intro op hop
  refine ⟨next.advanced, ?_, ?_⟩
  · exact ⟨h.operators, h.operands, h.literal, by simp only [advanced, h.column]; omega, h.log⟩
  · refine step_of_follows hop (commitLiteral_of_isEmpty ?_) hends
    rw [advanced, h.literal]
    rfl

/-- An operator that finds a looser one on top waits there for its right operand. -/
theorem Holds.settle_of_looser {n : Nat} (h : m.Holds left n before holding)
    (hroom : m.operators.room = none) {op top : Operator} {rest : List Operator}
    (hitems : m.operators.items = top :: rest) (htop : top.binding? op = some .looser) :
    ∃ next, holding.settle op = .ok next ∧
      m.Awaits left op n (before ++ [⟨m.column + n, .push op top⟩]) next := by
  have hholding : holding.operators.items = top :: rest := by rw [h.operators, hitems]
  have hfits : holding.operators.room ≠ some 0 := by
    rw [h.operators, hroom]
    exact Option.some_ne_none 0 |>.symm
  rw [settle_of_not_tighter hholding (by simp [htop]), enter_of_looser hholding htop hfits]
  refine ⟨_, rfl, ?_, h.operands, h.literal, rfl, h.column, ?_⟩
  · exact congrArg (·.cover op) h.operators
  · simp [withOperator, record, h.column, h.log]

/-- An operator that finds a tighter one on top is settled as if the result of that one were
there already. -/
theorem Awaits.settle_of_tighter {n k : Nat} {op incoming : Operator} {operation : Operation}
    (h : m.Awaits left op n before next) (hoperators : m.operators.room = none)
    (hoperands : m.operands.room = none) (hright : next.Holds right k after holding)
    (hop : op.operation? = some operation) (htighter : op.binding? incoming = some .tighter) :
    ∃ applied, m.Holds (Numbers.apply operation left right) (n + k)
        (before ++ after ++ [⟨m.column + (n + k), Phrase.foldEvent left operation right⟩]) applied ∧
      holding.settle incoming = applied.settle incoming := by
  have hitems : holding.operators.items = op :: m.operators.items := by
    rw [hright.operators, h.operators, Stack.items_cover]
  have hvalues : holding.operands = (m.operands.cover left).cover right := by
    rw [hright.operands, h.operands]
  have htop : holding.operands.items = right :: left :: m.operands.items := by
    rw [hvalues, Stack.items_cover, Stack.items_cover]
  have hcolumn : holding.column = m.column + (n + k) := by
    rw [hright.column, h.column, Nat.add_assoc]
  refine ⟨holding.folded left operation right, ⟨?_, ?_, hright.literal, hcolumn, ?_⟩, ?_⟩
  · have hroom : m.operators.room ≠ some 0 := by simp [hoperators]
    change holding.operators.uncover = m.operators
    rw [hright.operators, h.operators, Stack.uncover_cover hroom]
  · have hroom : m.operands.room ≠ some 0 := by simp [hoperands]
    have hroom' : (m.operands.cover left).room ≠ some 0 := by simp [Stack.cover, hoperands]
    change holding.operands.uncover.uncover.cover _ = m.operands.cover _
    rw [hvalues, Stack.uncover_cover hroom', Stack.uncover_cover hroom]
  · simp [folded, withOperand, record, Phrase.foldEvent, hcolumn, hright.log, h.log]
  · rw [Machine.settle_of_tighter hitems htighter, applyTop_eq hitems hop htop]
    rfl

/-! ### Reading phrases -/

/-- **How an operation gets its two operands.**  The left one has been read, or it is the
zero of a sign; the right one is read next, and the operation is applied to them as soon as an
operator follows that leaves the result whole. -/
theorem Ready.operate {mid : Machine ν} {start : List Char} {c : Char} {op : Operator}
    {operation : Operation} (behind : Nat → Operator → List (Record ν))
    (hm : m.Ready r) (hstart : m.feed start = .waiting mid)
    (hleft : m.Holds left (start.length + 1) before holding)
    (hstep : mid.step c = holding.settle op)
    (hop : op.operation? = some operation) (hbegins : s.BeginsBehind (.ofOperator op) op)
    (hlooser : ∀ top ∈ m.operators.items.head?, top.binding? op = some .looser)
    (htighter : ∀ {incoming : Operator}, incoming.Follows t →
      op.binding? incoming = some .tighter)
    (hst : s.isSum = true → t.isSum = true)
    (hright : ∀ {next : Machine ν}, next.Ready s →
      next.Yields s text right (behind next.column next.top)) :
    m.Yields t (start ++ c :: text) (Numbers.apply operation left right)
      (before ++ [⟨m.column + start.length + 1, .push op m.top⟩] ++
        behind (m.column + start.length + 1) op ++
        [⟨m.column + (start ++ c :: text).length + 1, Phrase.foldEvent left operation right⟩]) := by
  obtain ⟨top, rest, hitems, -⟩ := hm.begins
  -- the operator goes on the stack, over the left operand
  obtain ⟨next, hsettle, hawaits⟩ :=
    hleft.settle_of_looser hm.operatorRoom hitems (hlooser top (by simp [hitems]))
  have hready : next.Ready s := by
    refine ⟨?_, ?_, hawaits.literal, op, m.operators.items, ?_, hawaits.preceding ▸ hbegins⟩
    · simp [hawaits.operators, Stack.cover, hm.operatorRoom]
    · simp [hawaits.operands, Stack.cover, hm.operandRoom]
    · rw [hawaits.operators, Stack.items_cover]
  have hcolumn : next.column = m.column + start.length + 1 := hawaits.column
  have htop : next.top = op := top_eq (by rw [hawaits.operators, Stack.items_cover])
  -- the right operand is read over both of them, and stays until an operator follows
  obtain ⟨final, hfeed, hfollow⟩ := hright hready
  refine ⟨final, ?_, ?_⟩
  · rw [feed_append, hstart]
    simp only [feed, hstep, hsettle, hfeed]
  · intro incoming hincoming
    obtain ⟨settled, hsettled, hfinal⟩ := hfollow incoming (hincoming.mono hst)
    obtain ⟨applied, happlied, hnext⟩ :=
      hawaits.settle_of_tighter hm.operatorRoom hm.operandRoom hsettled hop (htighter hincoming)
    have hlength : start.length + 1 + (text.length + 1) = (start ++ c :: text).length + 1 := by
      simp only [List.length_append, List.length_cons]
      omega
    rw [hlength, hcolumn, htop, ← top_eq hitems] at happlied
    exact ⟨applied, happlied, hfinal.trans hnext⟩

/-- An operation between a phrase that has been read and one that is read next. -/
theorem Ready.operation {leftText : List Char} {operation : Operation}
    (behind : Nat → Operator → List (Record ν)) (hm : m.Ready r)
    (hleft : m.Yields r leftText left before) (hfollows : (Operator.binary operation).Follows r)
    (hbegins : s.BeginsBehind .operator (.binary operation))
    (hlooser : ∀ top ∈ m.operators.items.head?, top.binding? (.binary operation) = some .looser)
    (htsum : operation.isAdditive = true → t.isSum = true)
    (hst : s.isSum = true → t.isSum = true)
    (hright : ∀ {next : Machine ν}, next.Ready s →
      next.Yields s text right (behind next.column next.top)) :
    m.Yields t (leftText ++ operation.symbol :: text) (Numbers.apply operation left right)
      (before ++ [⟨m.column + leftText.length + 1, .push (.binary operation) m.top⟩] ++
        behind (m.column + leftText.length + 1) (.binary operation) ++
        [⟨m.column + (leftText ++ operation.symbol :: text).length + 1,
          Phrase.foldEvent left operation right⟩]) := by
  obtain ⟨mid, hstart, hfollow⟩ := hleft
  obtain ⟨holding, hholds, hstep⟩ := hfollow (.binary operation) hfollows
  exact hm.operate behind hstart hholds hstep rfl hbegins hlooser (·.binding?_binary htsum) hst
    hright

/-- Where a phrase may begin, there is no literal to commit. -/
theorem Ready.commitLiteral (hm : m.Ready r) : m.advanced.commitLiteral = .ok m.advanced := by
  refine commitLiteral_of_isEmpty ?_
  rw [advanced, hm.literal]
  rfl

/-- A sign holds zero for its left operand, whether it is one behind another operator or at
the start of a group. -/
theorem Ready.sign {op : Operator} {operation : Operation}
    (behind : Nat → Operator → List (Record ν)) (hm : m.Ready r)
    (hsign : m.advanced.interpret (.binary operation) =
      .ok (op, m.advanced.withOperand Numbers.zero))
    (hop : op.operation? = some operation) (hbegins : s.BeginsBehind (.ofOperator op) op)
    (hlooser : ∀ top ∈ m.operators.items.head?, top.binding? op = some .looser)
    (htighter : ∀ {incoming : Operator}, incoming.Follows t →
      op.binding? incoming = some .tighter)
    (hst : s.isSum = true → t.isSum = true)
    (hright : ∀ {next : Machine ν}, next.Ready s →
      next.Yields s text right (behind next.column next.top)) :
    m.Yields t (operation.symbol :: text) (Numbers.apply operation Numbers.zero right)
      ([⟨m.column + 1, .push op m.top⟩] ++ behind (m.column + 1) op ++
        [⟨m.column + (operation.symbol :: text).length + 1,
          Phrase.foldEvent Numbers.zero operation right⟩]) := by
  have hplace : ∀ m : Machine ν, m.checkPlace op = .ok () := by
    intro m
    cases op <;> first | rfl | cases hop
  have hstep : m.step operation.symbol = (m.advanced.withOperand Numbers.zero).settle op := by
    rw [step_symbol, accept_eq_of_commit hm.commitLiteral, hsign]
    simp only [bind, Except.bind, hplace]
  have hzero : m.Holds Numbers.zero 1 [] (m.advanced.withOperand Numbers.zero) :=
    ⟨rfl, rfl, hm.literal, rfl, rfl⟩
  have hfeed : m.feed [] = .waiting m := rfl
  exact hm.operate behind hfeed hzero hstep hop hbegins hlooser htighter hst hright

/-- The digits and points of a literal are gathered one by one. -/
theorem feed_numeric {text : List Char} (hnonempty : text ≠ [])
    (hnumeric : ∀ c ∈ text, isNumeric c = true) (m : Machine ν) (hm : m.preceding ≠ .closing) :
    m.feed text = .waiting { m with
      literal := text.foldl Literal.push m.literal
      preceding := .operand
      column := m.column + text.length } := by
  -- the machine changes with every character, and so it is free in the induction
  induction text generalizing m with
  | nil => exact absurd rfl hnonempty
  | cons c text ih =>
    have hstep : m.step c = .ok { m.advanced with
        literal := m.literal.push c, preceding := .operand } := by
      rw [step_numeric m (hnumeric c List.mem_cons_self), gather, if_neg (by exact hm)]
      rfl
    rw [feed, hstep]
    cases text with
    | nil => rfl
    | cons d text =>
      simp only
      rw [ih (by simp) (fun e he => hnumeric e (List.mem_cons_of_mem c he)) _ (by simp)]
      simp [advanced, Nat.add_assoc, Nat.add_comm]

/-- A literal amounts to the value of its text. -/
theorem Ready.literal_yields (hm : m.Ready .primary) (hnonempty : text ≠ [])
    (hnumeric : ∀ c ∈ text, isNumeric c = true) :
    m.Yields .primary text (Literal.valueOf text)
      [⟨m.column + text.length + 1, .commit (Literal.valueOf text)⟩] := by
  obtain ⟨top, rest, hitems, hends, htop⟩ := hm.begins
  have hpreceding : m.preceding ≠ .closing := by
    intro h
    rw [h] at hends
    cases hends
  refine ⟨_, feed_numeric hnonempty hnumeric m hpreceding, ?_⟩
  intro op hop
  rw [hm.literal]
  refine ⟨_, ?_, step_of_follows hop (commitLiteral_eq ?_ ?_) rfl⟩
  · refine ⟨rfl, ?_, rfl, rfl, ?_⟩
    · exact congrArg m.operands.cover (Literal.value_foldl_push text)
    · simp [committed, withOperand, record, advanced, Literal.value_foldl_push]
  · exact Literal.isEmpty_foldl_push hnonempty
  · simp [advanced, hm.operandRoom]

/-- An opening parenthesis goes on the stack, and an expression may begin behind it. -/
theorem Ready.opening (hm : m.Ready .primary) :
    ∃ inner, m.step '(' = .ok inner ∧ inner.Ready .expression ∧
      inner.operators = m.operators.cover .opening ∧ inner.operands = m.operands ∧
      inner.column = m.column + 1 ∧
      inner.log = ⟨m.column + 1, .push .opening m.top⟩ :: m.log := by
  obtain ⟨top, rest, hitems, hends, htop⟩ := hm.begins
  have hroom : m.operators.room ≠ some 0 := by simp [hm.operatorRoom]
  have hlooser : top.binding? .opening = some .looser := by
    cases top <;> first | rfl | exact absurd rfl htop
  have hplace : m.advanced.checkPlace .opening = .ok () := by
    simp [checkPlace, advanced, hends]
  have hstep : m.step '(' = m.advanced.enter .opening := by
    rw [step_opening, accept_eq_of_commit hm.commitLiteral]
    simp only [interpret, bind, Except.bind, hplace]
    exact settle_of_not_tighter (by exact hitems) (by simp [hlooser])
  rw [hstep, enter_of_looser (m := m.advanced) hitems hlooser hroom]
  refine ⟨_, rfl, ⟨?_, hm.operandRoom, hm.literal, ?_⟩, rfl, rfl, rfl, ?_⟩
  · simp [withOperator, record, advanced, Stack.cover, hm.operatorRoom]
  · exact ⟨.opening, m.operators.items, rfl, .inr rfl, .inl rfl⟩
  · rw [top_eq hitems]
    rfl

/-- **A group amounts to a value**, whatever is on the stacks: its parentheses cancel out, and
the value is all that is left of it. -/
theorem Ready.group (behind : Nat → Operator → List (Record ν)) (hm : m.Ready .primary)
    (hbody : ∀ {inner : Machine ν}, inner.Ready .expression →
      inner.Yields .expression text value (behind inner.column inner.top)) :
    ∃ next, m.feed ('(' :: text ++ [')']) = .waiting next ∧
      m.Holds value ('(' :: text ++ [')']).length
        ([⟨m.column + 1, .push .opening m.top⟩] ++ behind (m.column + 1) .opening ++
          [⟨m.column + ('(' :: text ++ [')']).length, .close .closing .opening⟩]) next ∧
      next.preceding = .closing := by
  obtain ⟨inner, hopening, hinner, hoperators, hoperands, hcolumn, hlog⟩ := hm.opening
  have htop : inner.top = .opening := top_eq (by rw [hoperators, Stack.items_cover])
  obtain ⟨last, hfeed, hfollow⟩ := hbody hinner
  -- to a closing parenthesis the body is as good as its value
  obtain ⟨settled, hsettled, hstep⟩ := hfollow .closing trivial
  have hitems : settled.operators.items = .opening :: m.operators.items := by
    rw [hsettled.operators, hoperators, Stack.items_cover]
  -- by now the opening parenthesis is on top again
  obtain ⟨next, hclosing, hnext⟩ : ∃ next, last.step ')' = .ok next ∧
      next = { settled.record (.close .closing .opening) with
        operators := settled.operators.uncover, preceding := .closing } := by
    refine ⟨_, ?_, rfl⟩
    rw [← enter_closing hitems, ← settle_of_not_tighter hitems (by decide), ← hstep]
    rfl
  refine ⟨next, ?_, ?_, hnext ▸ rfl⟩
  · rw [List.cons_append, feed, hopening]
    simp only [feed_append, hfeed, feed, hclosing]
  · subst hnext
    have hlength : ('(' :: text ++ [')']).length = text.length + 2 := by simp
    have hend : settled.column = m.column + (text.length + 2) := by
      rw [hsettled.column, hcolumn]
      omega
    rw [hlength]
    refine ⟨?_, ?_, hsettled.literal, hend, ?_⟩
    · have hroom : m.operators.room ≠ some 0 := by simp [hm.operatorRoom]
      simp only [hsettled.operators, hoperators, Stack.uncover_cover hroom]
    · simp only [record, hsettled.operands, hoperands]
    · simp [record, hsettled.log, hlog, hcolumn, htop, hend]

/-- An expression may begin at the start, over the mark at the bottom of the operator stack. -/
theorem start_ready : ∃ first : Machine ν, start none = .ok first ∧ first.Ready .expression ∧
    first.operators.items = [.terminator] ∧ first.operands.items = [] :=
  ⟨_, rfl, ⟨rfl, rfl, rfl, .terminator, [], rfl, .inl rfl, .inr rfl⟩, rfl, rfl⟩

end Machine

/-! ### Every phrase -/

open Machine

variable {ν : Type} [Numbers ν]

/-- **Every phrase amounts to its value** wherever a phrase of its rank may begin, and is
recorded as `Phrase.records` says. -/
theorem Phrase.yields {r : Rank} (p : Phrase r) {m : Machine ν} (hm : m.Ready r) :
    m.Yields r p.text p.value (p.records m.column m.top) := by
  -- the operands of an operation are read by other machines, with more on their stacks
  induction p generalizing m with
  | literal text nonempty numeric => exact hm.literal_yields nonempty numeric
  | group body ih =>
    obtain ⟨next, hfeed, hholds, hpreceding⟩ := hm.group (body.records · ·) ih
    exact hholds.yields hfeed (hpreceding ▸ rfl)
  | factor p ih => exact (ih hm.primary_of_factor).mono (by decide)
  | sign op additive f ih =>
    obtain ⟨top, rest, hitems, hpreceding, htop⟩ := hm.begins
    have hsign := interpret_behind_operator (m := m.advanced) additive hpreceding
      (by simp [advanced, hm.operandRoom])
    exact hm.sign (f.records · ·) hsign rfl (Rank.factor_beginsBehind_sign op) (fun _ _ => rfl)
      (·.binding?_sign op) (by decide) ih
  | term f ih => exact (ih hm.factor_of_term).mono (by decide)
  | product t op scaling f iht ihf =>
    -- a term stands behind a sum or a sign at the start, and both bind looser
    have hlooser : ∀ top ∈ m.operators.items.head?,
        top.binding? (.binary op) = some .looser := by
      obtain ⟨top, rest, hitems, hpreceding, operation, rfl, hadditive⟩ := hm.begins
      simp [hitems, Operator.binding?, hadditive, scaling]
    exact hm.operation (f.records · ·) (iht hm) (Operator.binary_follows rfl op)
      (Rank.factor_beginsBehind_binary op) hlooser (by simp [scaling]) (by decide) ihf
  | leading p ih => exact (ih hm.primary_of_leading).mono (by decide)
  | leadingProduct t op scaling f iht ihf =>
    have hlooser := (hm.mono fun h => h : m.Ready .expression).looser_at_start op
    exact hm.operation (f.records · ·) (iht hm) (Operator.binary_follows rfl op)
      (Rank.factor_beginsBehind_binary op) hlooser (by simp [scaling]) (by decide) ihf
  | plain t ih => exact (ih (hm.mono fun h => h)).mono (by decide)
  | signed op additive t ih =>
    have hlooser := (hm.mono fun h => h : m.Ready .expression).looser_at_start op
    obtain ⟨top, rest, hitems, hpreceding, htop⟩ := hm.begins
    have hsign := interpret_at_start (m := m.advanced) additive hpreceding
      (by simp [advanced, hm.operandRoom])
    exact hm.sign (t.records · ·) hsign rfl (Rank.term_beginsBehind_binary additive) hlooser
      (·.binding?_binary fun _ => rfl) (by decide) ih
  | expression h ih => exact (ih (hm.mono fun h => h)).mono (by decide)
  | sum e op additive t ihe iht =>
    exact hm.operation (t.records · ·) (ihe hm) (fun _ => additive)
      (Rank.term_beginsBehind_binary additive) (hm.looser_at_start op) (fun _ => rfl) (by decide)
      iht

/-- **The text of an expression has its value**, and so it has with anything behind the
terminator. -/
theorem Phrase.evaluation_text (e : Phrase .expression) (rest : List Char) :
    (evaluation none (e.text ++ '=' :: rest) : Report ν).result = .ok e.value := by
  obtain ⟨first, hstart, hready, hbottom, hnone⟩ := start_ready (ν := ν)
  obtain ⟨next, hfeed, hfollow⟩ := e.yields hready
  obtain ⟨holding, hholds, hstep⟩ := hfollow .terminator trivial
  have hitems : holding.operators.items = [.terminator] := by
    rw [hholds.operators, hbottom]
  have hoperands : holding.operands.items = [e.value] := by
    rw [hholds.operands, Stack.items_cover, hnone]
  -- the two terminators meet over the single operand that is left
  have hend : next.step '=' = .error ⟨.ok e.value, (holding.record (.evaluated e.value)).log⟩ := by
    rw [← enter_terminator hitems hoperands, ← settle_of_not_tighter hitems (by decide), ← hstep]
    rfl
  rw [evaluation, hstart]
  simp only [feed_append, hfeed, feed, hend]
  rfl

end OperatorPrecedence
