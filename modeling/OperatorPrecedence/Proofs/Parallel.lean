import Mathlib.Data.List.Forall2
import OperatorPrecedence.Proofs.Consumption

/-!
# Evaluations side by side

What a machine does depends on the places of digits and operators and on nothing else.  Two
sources are *alike* if they differ only in digits and points, in the choice between plus and
minus, and in the choice between times and over.  Machines that read such sources side by
side, be it with different numbers, make the same moves: they push, apply and refuse in the
same places, and their logs differ in nothing but values and the choices above.

Each move is shown to keep machines alike, and moves that follow each other do so by
`Parallel.bind`.

## Main definitions

* `SameRole` — characters that may stand for each other in a source.
* `Operator.Alike`, `Record.Alike` — what may differ in operators and in a log on that account.
* `Machine.Alike`, `Report.Alike` — machines and outcomes that differ in nothing else.
* `Parallel` — moves that both go on, or both stop.

## Main results

* `Operator.Alike.binding?_eq` — the precedence table does not tell like operators apart.
* `Machine.Alike.step` — **machines that are alike stay alike**, whatever they read.
* `evaluations_alike` — **no move depends on a number**.
-/

namespace OperatorPrecedence

variable {ν μ α β γ δ ε ε' : Type}

/-! ### What may differ -/

/-- Characters that no machine tells apart: equal ones, digits and points, the two operations
that can be signs, and the two that cannot. -/
def SameRole (c d : Char) : Prop :=
  c = d ∨ (isNumeric c = true ∧ isNumeric d = true) ∨
    (c ∈ ['+', '-'] ∧ d ∈ ['+', '-']) ∨ (c ∈ ['*', '/'] ∧ d ∈ ['*', '/'])

instance (c d : Char) : Decidable (SameRole c d) := inferInstanceAs (Decidable (_ ∨ _))

/-- Operators that no machine tells apart. -/
inductive Operator.Alike : Operator → Operator → Prop
  | binary {op op' : Operation} (h : op.isAdditive = op'.isAdditive) :
      Alike (.binary op) (.binary op')
  | sign {op op' : Operation} (h : op.isAdditive = op'.isAdditive) :
      Alike (.sign op) (.sign op')
  | opening : Alike .opening .opening
  | closing : Alike .closing .closing
  | terminator : Alike .terminator .terminator

/-- Events of one kind, about like operators and any values. -/
inductive Event.Alike : Event ν → Event μ → Prop
  | commit (value : ν) (value' : μ) : Alike (.commit value) (.commit value')
  | push {op op' top top' : Operator} (operator : op.Alike op') (below : top.Alike top') :
      Alike (.push op top) (.push op' top')
  | close {op op' top top' : Operator} (operator : op.Alike op') (below : top.Alike top') :
      Alike (.close op top) (.close op' top')
  | fold {op op' : Operation} (h : op.isAdditive = op'.isAdditive) (left right result : ν)
      (left' right' result' : μ) :
      Alike (.fold left op right result) (.fold left' op' right' result')
  | evaluated (value : ν) (value' : μ) : Alike (.evaluated value) (.evaluated value')

/-- Records of like events at one column. -/
structure Record.Alike (r : Record ν) (r' : Record μ) : Prop where
  column : r.column = r'.column
  event : r.event.Alike r'.event

/-- Two values, whatever they are, or the same fault. -/
inductive SameOutcome : Except Fault ν → Except Fault μ → Prop
  | value (value : ν) (value' : μ) : SameOutcome (.ok value) (.ok value')
  | fault (fault : Fault) : SameOutcome (.error fault) (.error fault)

/-- Stacks of as many entries, related one by one, with as much room. -/
structure Stack.Alike (R : α → β → Prop) (s : Stack α) (t : Stack β) : Prop where
  items : List.Forall₂ R s.items t.items
  room : s.room = t.room

/-- The last words of machines that are alike. -/
structure Verdict.Alike (v : Verdict ν) (w : Verdict μ) : Prop where
  result : SameOutcome v.result w.result
  log : List.Forall₂ Record.Alike v.log w.log

/-- Machines that differ in values and in the choice of like operators only. -/
structure Machine.Alike (m : Machine ν) (n : Machine μ) : Prop where
  operators : m.operators.Alike Operator.Alike n.operators
  /-- There are as many operands. -/
  operands : m.operands.Alike (fun _ _ => True) n.operands
  literal : m.literal.isEmpty = n.literal.isEmpty
  preceding : m.preceding = n.preceding
  column : m.column = n.column
  log : List.Forall₂ Record.Alike m.log n.log

/-- Reports on evaluations that took the same way. -/
structure Report.Alike (r : Report ν) (r' : Report μ) : Prop where
  /-- Both have a value, or both have the same fault. -/
  result : SameOutcome r.result r'.result
  /-- There are as many records, and those in the same place tell of like events. -/
  log : List.Forall₂ Record.Alike r.log r'.log
  /-- As many characters were left unread. -/
  unread : r.unread.length = r'.unread.length
  exhausted : r.exhausted = r'.exhausted

/-! ### Like characters and operators -/

namespace Operator.Alike

variable {op op' top top' : Operator}

/-- The precedence table does not tell like operators apart. -/
theorem binding?_eq (htop : Operator.Alike top top') (hop : Operator.Alike op op') :
    top.binding? op = top'.binding? op' := by
  cases hop with
  | binary hadditive => cases htop <;> simp_all [Operator.binding?]
  | _ => cases htop <;> rfl

theorem ofOperator_eq (h : Operator.Alike op op') :
    Preceding.ofOperator op = Preceding.ofOperator op' := by
  cases h <;> rfl

theorem unplaceable_eq (h : Operator.Alike op op') :
    Machine.unplaceable op = Machine.unplaceable op' := by
  cases h <;> rfl

theorem eq_terminator_iff (h : Operator.Alike op op') : op = .terminator ↔ op' = .terminator := by
  cases h <;> simp

end Operator.Alike

/-- Characters of one role are the same, or parts of a literal, or operations that are alike. -/
theorem SameRole.cases {c d : Char} (h : SameRole c d) :
    c = d ∨ (isNumeric c = true ∧ isNumeric d = true) ∨
      ∃ op op' : Operation, op.isAdditive = op'.isAdditive ∧ c = op.symbol ∧ d = op'.symbol := by
  have hsign : ∀ e ∈ ['+', '-'], ∃ op : Operation, op.isAdditive = true ∧ e = op.symbol := by
    simpa using ⟨⟨.add, rfl, rfl⟩, ⟨.sub, rfl, rfl⟩⟩
  have hscale : ∀ e ∈ ['*', '/'], ∃ op : Operation, op.isAdditive = false ∧ e = op.symbol := by
    simpa using ⟨⟨.mul, rfl, rfl⟩, ⟨.div, rfl, rfl⟩⟩
  rcases h with heq | hnumeric | ⟨hc, hd⟩ | ⟨hc, hd⟩
  · exact .inl heq
  · exact .inr (.inl hnumeric)
  · obtain ⟨op, hop, rfl⟩ := hsign c hc
    obtain ⟨op', hop', rfl⟩ := hsign d hd
    exact .inr (.inr ⟨op, op', hop.trans hop'.symm, rfl, rfl⟩)
  · obtain ⟨op, hop, rfl⟩ := hscale c hc
    obtain ⟨op', hop', rfl⟩ := hscale d hd
    exact .inr (.inr ⟨op, op', hop.trans hop'.symm, rfl, rfl⟩)

/-! ### Moves side by side -/

/-- **Moves side by side**: both go on, with results that are related, or both stop. -/
inductive Parallel (E : ε → ε' → Prop) (R : α → β → Prop) : Except ε α → Except ε' β → Prop
  | onward {a : α} {b : β} (h : R a b) : Parallel E R (.ok a) (.ok b)
  | stopped {e : ε} {e' : ε'} (h : E e e') : Parallel E R (.error e) (.error e')

namespace Parallel

variable {E : ε → ε' → Prop} {R : α → β → Prop} {S : γ → δ → Prop}

/-- Moves that follow each other go side by side if each of them does. -/
theorem bind {x : Except ε α} {y : Except ε' β} {f : α → Except ε γ} {g : β → Except ε' δ}
    (h : Parallel E R x y) (hnext : ∀ a b, R a b → Parallel E S (f a) (g b)) :
    Parallel E S (x >>= f) (y >>= g) := by
  cases h with
  | onward h => exact hnext _ _ h
  | stopped h => exact .stopped h

/-- A move that is repeated for each entry of a list. -/
theorem foldlM {f : α → γ → Except ε α} {g : β → δ → Except ε' β} {l : List γ} {l' : List δ}
    (hlists : List.Forall₂ S l l') {a : α} {b : β} (h : R a b)
    (hmove : ∀ a b c d, R a b → S c d → Parallel E R (f a c) (g b d)) :
    Parallel E R (l.foldlM f a) (l'.foldlM g b) := by
  induction hlists generalizing a b with
  | nil => exact .onward h
  | cons hentry _ ih =>
    rw [List.foldlM_cons, List.foldlM_cons]
    exact (hmove _ _ _ _ h hentry).bind fun _ _ hnext => ih hnext

end Parallel

/-- Lists that are related entry by entry lose related beginnings to tests that agree. -/
theorem forall₂_takeWhile {R : α → β → Prop} {p : α → Bool} {q : β → Bool} {l : List α}
    {l' : List β} (h : List.Forall₂ R l l') (hsame : ∀ a b, R a b → p a = q b) :
    List.Forall₂ R (l.takeWhile p) (l'.takeWhile q) := by
  induction h with
  | nil => exact .nil
  | @cons a b l l' hentry _ ih =>
    rw [List.takeWhile_cons, List.takeWhile_cons, hsame a b hentry]
    cases q b with
    | true => exact .cons hentry ih
    | false => exact .nil

namespace Stack.Alike

variable {R : α → β → Prop} {s : Stack α} {t : Stack β}

theorem size_eq (h : s.Alike R t) : s.size = t.size := h.items.length_eq

theorem isEmpty_eq (h : s.Alike R t) : s.isEmpty = t.isEmpty := by
  obtain ⟨items, room⟩ := s
  obtain ⟨items', room'⟩ := t
  cases h.items <;> rfl

theorem push (h : s.Alike R t) {a : α} {b : β} (hentry : R a b) :
    Parallel (· = ·) (Stack.Alike R) (s.push a) (t.push b) := by
  have hsize := h.size_eq
  have hitems := List.Forall₂.cons hentry h.items
  unfold Stack.push
  rw [← h.room]
  cases s.room with
  | none => exact .onward ⟨hitems, rfl⟩
  | some room =>
    cases room with
    | zero => exact .stopped (by rw [hsize])
    | succ room => exact .onward ⟨hitems, rfl⟩

theorem pop (h : s.Alike R t) :
    Parallel (· = ·) (fun p q => R p.1 q.1 ∧ p.2.Alike R q.2) s.pop t.pop := by
  obtain ⟨items, room⟩ := s
  obtain ⟨items', room'⟩ := t
  obtain ⟨hitems, hroom⟩ := h
  cases hitems with
  | nil => exact .stopped rfl
  | cons hentry hrest => exact .onward ⟨hentry, hrest, congrArg (Option.map (· + 1)) hroom⟩

theorem peek (h : s.Alike R t) : Parallel (· = ·) R s.peek t.peek := by
  obtain ⟨items, room⟩ := s
  obtain ⟨items', room'⟩ := t
  cases h.items with
  | nil => exact .stopped rfl
  | cons hentry hrest => exact .onward hentry

end Stack.Alike

theorem Verdict.Alike.report {v : Verdict ν} {w : Verdict μ} (h : v.Alike w)
    {unread unread' : List Char} (hunread : unread.length = unread'.length) :
    (v.report unread).Alike (w.report unread') :=
  ⟨h.result, List.rel_reverse h.log, hunread, rfl⟩

namespace Machine.Alike

variable {m : Machine ν} {n : Machine μ} {R : α → β → Prop}

theorem fail (h : m.Alike n) (cause : Cause) :
    Parallel Verdict.Alike R (m.fail cause) (n.fail cause) := by
  refine .stopped ⟨?_, h.log⟩
  rw [h.column]
  exact .fault _

theorem endOfInput (h : m.Alike n) : m.endOfInput.Alike n.endOfInput := by
  refine ⟨?_, List.rel_reverse h.log, rfl, rfl⟩
  unfold Machine.endOfInput
  rw [h.column]
  exact .fault _

theorem record (h : m.Alike n) {event : Event ν} {event' : Event μ} (hevent : event.Alike event') :
    (m.record event).Alike (n.record event') :=
  { h with log := .cons ⟨h.column, hevent⟩ h.log }

theorem afterStack (h : m.Alike n) (stack : StackName) {x : Except Stack.Failure α}
    {y : Except Stack.Failure β} (hxy : Parallel (· = ·) R x y) :
    Parallel Verdict.Alike R (m.afterStack stack x) (n.afterStack stack y) := by
  cases hxy with
  | onward hentry => exact .onward hentry
  | stopped hfailure =>
    cases hfailure
    exact h.fail _

theorem putOperand (h : m.Alike n) (value : ν) (value' : μ) :
    Parallel Verdict.Alike Machine.Alike (m.putOperand value) (n.putOperand value') :=
  (h.afterStack .operand (h.operands.push trivial)).bind fun _ _ hoperands =>
    .onward { h with operands := hoperands }

theorem takeOperand (h : m.Alike n) :
    Parallel Verdict.Alike (fun p q => p.2.Alike q.2) m.takeOperand n.takeOperand :=
  (h.afterStack .operand h.operands.pop).bind fun _ _ hpopped =>
    .onward { h with operands := hpopped.2 }

theorem putOperator (h : m.Alike n) {op op' : Operator} (hop : op.Alike op') :
    Parallel Verdict.Alike Machine.Alike (m.putOperator op) (n.putOperator op') :=
  (h.afterStack .operator (h.operators.push hop)).bind fun _ _ hoperators =>
    .onward { h with operators := hoperators }

theorem takeOperator (h : m.Alike n) :
    Parallel Verdict.Alike (fun p q => p.1.Alike q.1 ∧ p.2.Alike q.2) m.takeOperator
      n.takeOperator :=
  (h.afterStack .operator h.operators.pop).bind fun _ _ hpopped =>
    .onward ⟨hpopped.1, { h with operators := hpopped.2 }⟩

/-- Only a parenthesis can be out of place. -/
theorem checkPlace (h : m.Alike n) {op op' : Operator} (hop : op.Alike op') :
    Parallel Verdict.Alike (fun _ _ => True) (m.checkPlace op) (n.checkPlace op') := by
  have hends : m.preceding.endsOperand = n.preceding.endsOperand := by rw [h.preceding]
  cases hop with
  | opening =>
    simp only [Machine.checkPlace, hends]
    split
    · exact h.fail _
    · exact .onward trivial
  | closing =>
    simp only [Machine.checkPlace, hends]
    split
    · exact .onward trivial
    · exact h.fail _
  | _ => exact .onward trivial

theorem deliver (h : m.Alike n) : Parallel Verdict.Alike R m.deliver n.deliver := by
  refine h.takeOperand.bind ?_
  rintro ⟨value, rest⟩ ⟨value', rest'⟩ hrest
  simp only [hrest.operands.isEmpty_eq]
  split
  · exact .stopped ⟨.value value value', (h.record (.evaluated value value')).log⟩
  · rw [h.operands.size_eq]
    exact h.fail _

theorem place (h : m.Alike n) {op op' : Operator} (hop : op.Alike op') :
    Parallel Verdict.Alike Machine.Alike (m.place op) (n.place op') := by
  refine (h.afterStack .operator h.operators.peek).bind ?_
  intro top top' htop
  rw [htop.binding?_eq hop]
  split
  · exact (h.record (.push hop htop)).putOperator hop
  · simp only [hop.eq_terminator_iff]
    split
    · exact h.deliver
    · exact (h.record (.close hop htop)).takeOperator.bind fun _ _ htaken => .onward htaken.2
  · rw [hop.unplaceable_eq]
    exact h.fail _

theorem gather [Numbers ν] [Numbers μ] (h : m.Alike n) (c d : Char) :
    Parallel Verdict.Alike Machine.Alike (m.gather c) (n.gather d) := by
  unfold Machine.gather
  rw [h.preceding]
  split
  · exact h.fail _
  · exact .onward { h with literal := rfl, preceding := rfl }

variable [Numbers ν] [Numbers μ]

theorem commitLiteral (h : m.Alike n) :
    Parallel Verdict.Alike Machine.Alike m.commitLiteral n.commitLiteral := by
  unfold Machine.commitLiteral Literal.take
  rw [h.literal]
  cases n.literal.isEmpty with
  | true => exact .onward h
  | false =>
    have hliteral : ({ m with literal := .empty } : Machine ν).Alike { n with literal := .empty } :=
      { h with literal := rfl }
    exact (hliteral.record (.commit _ _)).putOperand _ _

/-- Whether a plus or minus gets zero for its left operand is a matter of its place. -/
theorem interpret (h : m.Alike n) {op op' : Operator} (hop : op.Alike op') :
    Parallel Verdict.Alike (fun p q => p.1.Alike q.1 ∧ p.2.Alike q.2) (m.interpret op)
      (n.interpret op') := by
  cases hop with
  | @binary operation operation' hadditive =>
    simp only [Machine.interpret, hadditive, h.preceding]
    split
    · have hzero := h.putOperand (Numbers.zero : ν) (Numbers.zero : μ)
      split
      · exact .onward ⟨.binary hadditive, h⟩
      · exact .onward ⟨.binary hadditive, h⟩
      · exact hzero.bind fun _ _ hnext => .onward ⟨.binary hadditive, hnext⟩
      · exact hzero.bind fun _ _ hnext => .onward ⟨.binary hadditive, hnext⟩
      · exact hzero.bind fun _ _ hnext => .onward ⟨.sign hadditive, hnext⟩
    · exact .onward ⟨.binary hadditive, h⟩
  | sign hadditive => exact .onward ⟨.sign hadditive, h⟩
  | opening => exact .onward ⟨.opening, h⟩
  | closing => exact .onward ⟨.closing, h⟩
  | terminator => exact .onward ⟨.terminator, h⟩

/-- Operations take their operands from stacks of the same size. -/
theorem applyTop (h : m.Alike n) :
    Parallel Verdict.Alike Machine.Alike m.applyTop n.applyTop := by
  refine h.takeOperator.bind ?_
  rintro ⟨op, popped⟩ ⟨op', popped'⟩ ⟨hop, hpopped⟩
  refine hpopped.takeOperand.bind ?_
  rintro ⟨right, shorter⟩ ⟨right', shorter'⟩ hshorter
  refine hshorter.takeOperand.bind ?_
  rintro ⟨left, rest⟩ ⟨left', rest'⟩ hrest
  cases hop with
  | binary hadditive => exact (hrest.record (.fold hadditive ..)).putOperand _ _
  | sign hadditive => exact (hrest.record (.fold hadditive ..)).putOperand _ _
  | opening => exact hrest.fail (.notApplicable '(')
  | closing => exact hrest.fail (.notApplicable ')')
  | terminator => exact hrest.fail (.notApplicable '=')

theorem reduce (h : m.Alike n) {op op' : Operator} (hop : op.Alike op') :
    Parallel Verdict.Alike Machine.Alike (m.reduce op) (n.reduce op') := by
  -- how many operators are applied is decided before the first one is
  have htighter : List.Forall₂ Operator.Alike
      (m.operators.items.takeWhile (·.binding? op = some .tighter))
      (n.operators.items.takeWhile (·.binding? op' = some .tighter)) := by
    refine forall₂_takeWhile h.operators.items ?_
    intro top top' htop
    simp only [htop.binding?_eq hop]
  exact Parallel.foldlM htighter h fun _ _ _ _ hmachines _ => hmachines.applyTop

theorem accept (h : m.Alike n) {op op' : Operator} (hop : op.Alike op') :
    Parallel Verdict.Alike Machine.Alike (m.accept op) (n.accept op') := by
  refine h.commitLiteral.bind ?_
  intro committed committed' hcommitted
  refine (hcommitted.interpret hop).bind ?_
  rintro ⟨incoming, meant⟩ ⟨incoming', meant'⟩ ⟨hincoming, hmeant⟩
  refine (hmeant.checkPlace hincoming).bind ?_
  intro _ _ _
  refine (hmeant.reduce hincoming).bind ?_
  intro reduced reduced' hreduced
  refine (hreduced.place hincoming).bind ?_
  intro placed placed' hplaced
  exact .onward { hplaced with preceding := hincoming.ofOperator_eq }

/-- **Machines that are alike stay alike** when they read characters of the same role. -/
theorem step (h : m.Alike n) {c d : Char} (hrole : SameRole c d) :
    Parallel Verdict.Alike Machine.Alike (m.step c) (n.step d) := by
  have hadvanced : m.advanced.Alike n.advanced := { h with column := congrArg (· + 1) h.column }
  rcases hrole.cases with rfl | ⟨hc, hd⟩ | ⟨op, op', hadditive, rfl, rfl⟩
  · cases CharClass.of c with
    | numeric hc =>
      rw [step_numeric m hc, step_numeric n hc]
      exact hadvanced.gather c c
    | operation operation =>
      rw [step_symbol, step_symbol]
      exact hadvanced.accept (.binary rfl)
    | opening =>
      rw [step_opening, step_opening]
      exact hadvanced.accept .opening
    | closing =>
      rw [step_closing, step_closing]
      exact hadvanced.accept .closing
    | terminator =>
      rw [step_terminator, step_terminator]
      exact hadvanced.accept .terminator
    | foreign hc =>
      rw [step_foreign m hc, step_foreign n hc]
      exact hadvanced.fail _
  · rw [step_numeric m hc, step_numeric n hd]
    exact hadvanced.gather c d
  · rw [step_symbol, step_symbol]
    exact hadvanced.accept (.binary hadditive)

end Machine.Alike

variable [Numbers ν] [Numbers μ]

/-- Machines that are alike come to like outcomes with sources of the same roles. -/
theorem Machine.Alike.feed {m : Machine ν} {n : Machine μ} (h : m.Alike n)
    {source source' : List Char} (hroles : List.Forall₂ SameRole source source') :
    (m.feed source).report.Alike (n.feed source').report := by
  induction hroles generalizing m n with
  | nil => exact h.endOfInput
  | @cons c d rest rest' hrole hrest ih =>
    have hstep := h.step hrole
    rw [Machine.feed, Machine.feed]
    generalize m.step c = x at hstep ⊢
    generalize n.step d = y at hstep ⊢
    cases hstep with
    | onward hnext => exact ih hnext
    | stopped hverdict => exact hverdict.report hrest.length_eq

/-- Machines begin alike. -/
theorem Machine.start_alike (capacity : Option Nat) :
    Parallel Verdict.Alike Machine.Alike (start capacity : Except (Verdict ν) (Machine ν))
      (start capacity : Except (Verdict μ) (Machine μ)) := by
  have hfirst : Machine.Alike (ν := ν) (μ := μ)
      ⟨.empty capacity, .empty capacity, .empty, .nothing, 0, []⟩
      ⟨.empty capacity, .empty capacity, .empty, .nothing, 0, []⟩ :=
    ⟨⟨.nil, rfl⟩, ⟨.nil, rfl⟩, rfl, rfl, rfl, .nil⟩
  exact hfirst.putOperator .terminator

/-- **No move depends on a number.**  Two sources of the same roles, evaluated within the same
capacity, be it with different numbers, both have a value or both have the same fault at the same
column.  As many characters of both are consumed, and their logs tell of like events at the same
columns, one by one. -/
theorem evaluations_alike (capacity : Option Nat) {source source' : List Char}
    (h : List.Forall₂ SameRole source source') :
    (evaluation capacity source : Report ν).Alike (evaluation capacity source' : Report μ) ∧
    ((evaluation capacity source : Report ν).consumption source).pulled =
      ((evaluation capacity source' : Report μ).consumption source').pulled := by
  have halike : (evaluation capacity source : Report ν).Alike
      (evaluation capacity source' : Report μ) := by
    have hstart := Machine.start_alike (ν := ν) (μ := μ) capacity
    unfold evaluation
    generalize (Machine.start capacity : Except (Verdict ν) (Machine ν)) = x at hstart ⊢
    generalize (Machine.start capacity : Except (Verdict μ) (Machine μ)) = y at hstart ⊢
    cases hstart with
    | onward hfirst => exact hfirst.feed h
    | stopped hverdict => exact hverdict.report h.length_eq
  refine ⟨halike, ?_⟩
  show source.length - _ = source'.length - _
  rw [h.length_eq, halike.unread]

/-- A group that is no number takes the same way as one that is 28. -/
theorem evaluations_alike_of_group :
    List.Forall₂ SameRole ['2', '-', '(', '0', '/', '0', ')', '=']
      ['.', '+', '(', '4', '*', '7', ')', '='] ∧
    (evaluation (some 4) ['2', '-', '(', '0', '/', '0', ')', '='] : Report Float).Alike
      (evaluation (some 4) ['.', '+', '(', '4', '*', '7', ')', '='] : Report Float) := by
  have hroles : List.Forall₂ SameRole ['2', '-', '(', '0', '/', '0', ')', '=']
      ['.', '+', '(', '4', '*', '7', ')', '='] := by decide
  exact ⟨hroles, (evaluations_alike (some 4) hroles).1⟩

end OperatorPrecedence
