import OperatorPrecedence.Proofs.Parallel

/-!
# Evaluations at other columns

A machine counts columns and keeps a log, but it never looks at either.  Two machines in the same
state that have counted to different columns make the same moves from there: they record the same
events, and they come to the same value, or to faults of the same cause that lie as far apart as
the machines did.

So this is another comparison than that of sources side by side: there the values may differ and the
columns agree, and here it is the other way round.

## Main definitions

* `SameFinding` — the same value, or faults of the same cause a number of columns apart.
* `Machine.Displaced` — machines in the same state, a number of columns apart.

## Main results

* `Machine.Displaced.step`, `Machine.Displaced.feed` — **machines in the same state come to the
  same, whatever their columns**.
-/

namespace OperatorPrecedence

variable {ν α : Type} {k : Nat}

/-- The same value, or faults of the same cause; the first one lies `k` columns further on. -/
inductive SameFinding (k : Nat) : Except Fault ν → Except Fault ν → Prop
  | value (value : ν) : SameFinding k (.ok value) (.ok value)
  | fault (column : Nat) (cause : Cause) :
      SameFinding k (.error ⟨column + k, cause⟩) (.error ⟨column, cause⟩)

theorem SameFinding.refl (result : Except Fault ν) : SameFinding 0 result result := by
  cases result with
  | ok value => exact .value value
  | error fault => exact .fault fault.column fault.cause

/-- The last words of machines that are a number of columns apart. -/
structure Verdict.Displaced (k : Nat) (v w : Verdict ν) : Prop where
  result : SameFinding k v.result w.result
  events : v.log.map Record.event = w.log.map Record.event

/-- **Machines in the same state, a number of columns apart.**  They have recorded the same
events, at whatever columns. -/
structure Machine.Displaced (k : Nat) (m n : Machine ν) : Prop where
  operators : m.operators = n.operators
  operands : m.operands = n.operands
  literal : m.literal = n.literal
  preceding : m.preceding = n.preceding
  column : m.column = n.column + k
  events : m.log.map Record.event = n.log.map Record.event

/-- **Reports on evaluations that came to the same**, a number of columns apart.  The sources may
differ in what was left unread. -/
structure Report.Displaced (k : Nat) (r r' : Report ν) : Prop where
  result : SameFinding k r.result r'.result
  events : r.log.map Record.event = r'.log.map Record.event
  exhausted : r.exhausted = r'.exhausted

theorem Verdict.Displaced.report {v w : Verdict ν} (h : v.Displaced k w)
    (unread unread' : List Char) : (v.report unread).Displaced k (w.report unread') := by
  refine ⟨h.result, ?_, rfl⟩
  simp only [Verdict.report, List.map_reverse, h.events]

theorem Verdict.Displaced.refl (v : Verdict ν) : v.Displaced 0 v := ⟨.refl v.result, rfl⟩

namespace Machine.Displaced

variable {m n : Machine ν} {R : α → α → Prop}

theorem fail (h : m.Displaced k n) (cause : Cause) :
    Parallel (Verdict.Displaced k) R (m.fail cause) (n.fail cause) := by
  refine .stopped ⟨?_, h.events⟩
  rw [h.column]
  exact .fault _ _

theorem endOfInput (h : m.Displaced k n) : m.endOfInput.Displaced k n.endOfInput := by
  refine ⟨?_, ?_, rfl⟩
  · simp only [Machine.endOfInput, h.column, Nat.add_right_comm n.column k 1]
    exact .fault _ _
  · simp only [Machine.endOfInput, List.map_reverse, h.events]

theorem advanced (h : m.Displaced k n) : m.advanced.Displaced k n.advanced := by
  refine { h with column := ?_ }
  simp only [Machine.advanced, h.column, Nat.add_right_comm n.column k 1]

theorem record (h : m.Displaced k n) (event : Event ν) :
    (m.record event).Displaced k (n.record event) :=
  { h with events := congrArg (event :: ·) h.events }

theorem afterStack (h : m.Displaced k n) (stack : StackName) {x y : Except Stack.Failure α}
    (hxy : x = y) :
    Parallel (Verdict.Displaced k) (· = ·) (m.afterStack stack x) (n.afterStack stack y) := by
  cases hxy
  cases x with
  | ok a => exact .onward rfl
  | error failure => exact h.fail _

theorem putOperand (h : m.Displaced k n) (value : ν) :
    Parallel (Verdict.Displaced k) (Machine.Displaced k) (m.putOperand value)
      (n.putOperand value) :=
  (h.afterStack .operand (congrArg (·.push value) h.operands)).bind fun _ _ hoperands =>
    .onward { h with operands := hoperands }

theorem takeOperand (h : m.Displaced k n) :
    Parallel (Verdict.Displaced k) (fun p q => p.1 = q.1 ∧ p.2.Displaced k q.2) m.takeOperand
      n.takeOperand := by
  refine (h.afterStack .operand (congrArg Stack.pop h.operands)).bind ?_
  rintro popped _ rfl
  exact .onward ⟨rfl, { h with operands := rfl }⟩

theorem putOperator (h : m.Displaced k n) (op : Operator) :
    Parallel (Verdict.Displaced k) (Machine.Displaced k) (m.putOperator op) (n.putOperator op) :=
  (h.afterStack .operator (congrArg (·.push op) h.operators)).bind fun _ _ hoperators =>
    .onward { h with operators := hoperators }

theorem takeOperator (h : m.Displaced k n) :
    Parallel (Verdict.Displaced k) (fun p q => p.1 = q.1 ∧ p.2.Displaced k q.2) m.takeOperator
      n.takeOperator := by
  refine (h.afterStack .operator (congrArg Stack.pop h.operators)).bind ?_
  rintro popped _ rfl
  exact .onward ⟨rfl, { h with operators := rfl }⟩

theorem checkPlace (h : m.Displaced k n) (op : Operator) :
    Parallel (Verdict.Displaced k) (fun _ _ => True) (m.checkPlace op) (n.checkPlace op) := by
  cases op with
  | opening =>
    simp only [Machine.checkPlace, h.preceding]
    split
    · exact h.fail _
    · exact .onward trivial
  | closing =>
    simp only [Machine.checkPlace, h.preceding]
    split
    · exact .onward trivial
    · exact h.fail _
  | _ => exact .onward trivial

theorem deliver (h : m.Displaced k n) :
    Parallel (Verdict.Displaced k) R m.deliver n.deliver := by
  refine h.takeOperand.bind ?_
  rintro ⟨value, rest⟩ ⟨_, rest'⟩ ⟨rfl, hrest⟩
  have hoperands : rest.operands = rest'.operands := hrest.operands
  dsimp only
  rw [hoperands]
  split
  · exact .stopped ⟨.value value, (h.record (.evaluated value)).events⟩
  · rw [h.operands]
    exact h.fail _

theorem place (h : m.Displaced k n) (op : Operator) :
    Parallel (Verdict.Displaced k) (Machine.Displaced k) (m.place op) (n.place op) := by
  refine (h.afterStack .operator (congrArg Stack.peek h.operators)).bind ?_
  rintro top _ rfl
  split
  · exact (h.record (.push op top)).putOperator op
  · split
    · exact h.deliver
    · exact (h.record (.close op top)).takeOperator.bind fun _ _ htaken => .onward htaken.2
  · exact h.fail _

variable [Numbers ν]

theorem gather (h : m.Displaced k n) (c : Char) :
    Parallel (Verdict.Displaced k) (Machine.Displaced k) (m.gather c) (n.gather c) := by
  unfold Machine.gather
  rw [h.preceding, h.literal]
  split
  · exact h.fail _
  · exact .onward { h with literal := rfl, preceding := rfl }

theorem commitLiteral (h : m.Displaced k n) :
    Parallel (Verdict.Displaced k) (Machine.Displaced k) m.commitLiteral n.commitLiteral := by
  unfold Machine.commitLiteral
  rw [h.literal]
  split
  · exact .onward h
  · next value literal _ =>
    have hcommitted : ({ m with literal } : Machine ν).Displaced k { n with literal } :=
      { h with literal := rfl }
    exact (hcommitted.record (.commit value)).putOperand value

theorem interpret (h : m.Displaced k n) (op : Operator) :
    Parallel (Verdict.Displaced k) (fun p q => p.1 = q.1 ∧ p.2.Displaced k q.2) (m.interpret op)
      (n.interpret op) := by
  have hzero := h.putOperand Numbers.zero
  cases op with
  | binary operation =>
    simp only [Machine.interpret, h.preceding]
    split
    · split
      · exact .onward ⟨rfl, h⟩
      · exact .onward ⟨rfl, h⟩
      · exact hzero.bind fun _ _ hnext => .onward ⟨rfl, hnext⟩
      · exact hzero.bind fun _ _ hnext => .onward ⟨rfl, hnext⟩
      · exact hzero.bind fun _ _ hnext => .onward ⟨rfl, hnext⟩
    · exact .onward ⟨rfl, h⟩
  | _ => exact .onward ⟨rfl, h⟩

theorem applyTop (h : m.Displaced k n) :
    Parallel (Verdict.Displaced k) (Machine.Displaced k) m.applyTop n.applyTop := by
  refine h.takeOperator.bind ?_
  rintro ⟨op, popped⟩ ⟨_, popped'⟩ ⟨rfl, hpopped⟩
  refine hpopped.takeOperand.bind ?_
  rintro ⟨right, shorter⟩ ⟨_, shorter'⟩ ⟨rfl, hshorter⟩
  refine hshorter.takeOperand.bind ?_
  rintro ⟨left, rest⟩ ⟨_, rest'⟩ ⟨rfl, hrest⟩
  dsimp only
  split
  · exact hrest.fail _
  · next operation _ => exact (hrest.record (.fold left operation right _)).putOperand _

theorem reduce (h : m.Displaced k n) (op : Operator) :
    Parallel (Verdict.Displaced k) (Machine.Displaced k) (m.reduce op) (n.reduce op) := by
  unfold Machine.reduce
  rw [h.operators]
  exact Parallel.foldlM (List.forall₂_same.mpr fun _ _ => rfl) h
    fun _ _ _ _ hmachines (_ : _ = _) => hmachines.applyTop

/-- An operator is accepted alike once the literals have been committed. -/
theorem accept_of_commit (op : Operator)
    (h : Parallel (Verdict.Displaced k) (Machine.Displaced k) m.commitLiteral n.commitLiteral) :
    Parallel (Verdict.Displaced k) (Machine.Displaced k) (m.accept op) (n.accept op) := by
  refine h.bind ?_
  intro committed committed' hcommitted
  refine (hcommitted.interpret op).bind ?_
  rintro ⟨incoming, meant⟩ ⟨_, meant'⟩ ⟨rfl, hmeant⟩
  refine (hmeant.checkPlace incoming).bind ?_
  intro _ _ _
  refine (hmeant.reduce incoming).bind ?_
  intro reduced reduced' hreduced
  refine (hreduced.place incoming).bind ?_
  intro placed placed' hplaced
  exact .onward { hplaced with preceding := rfl }

/-- **A character is read alike** by machines in the same state. -/
theorem step (h : m.Displaced k n) (c : Char) :
    Parallel (Verdict.Displaced k) (Machine.Displaced k) (m.step c) (n.step c) := by
  rcases step_cases (ν := ν) c with hforeign | ⟨-, hnumeric⟩ | ⟨token, op, htoken, hop⟩
  · rw [hforeign, hforeign]
    exact h.advanced.fail _
  · rw [hnumeric, hnumeric]
    exact h.advanced.gather c
  · rw [step_of_token m htoken hop, step_of_token n htoken hop]
    exact accept_of_commit op h.advanced.commitLiteral

/-- A source is read alike if its first character is, and if the rest is by machines in the same
state. -/
theorem feed_cons {c : Char} {rest : List Char}
    (hstep : Parallel (Verdict.Displaced k) (Machine.Displaced k) (m.step c) (n.step c))
    (hrest : ∀ {m n : Machine ν}, m.Displaced k n →
      (m.feed rest).report.Displaced k (n.feed rest).report) :
    (m.feed (c :: rest)).report.Displaced k (n.feed (c :: rest)).report := by
  rw [Machine.feed, Machine.feed]
  generalize m.step c = x at hstep ⊢
  generalize n.step c = y at hstep ⊢
  cases hstep with
  | onward hnext => exact hrest hnext
  | stopped hverdict => exact hverdict.report rest rest

/-- **A source is read alike** by machines in the same state. -/
theorem feed (h : m.Displaced k n) (source : List Char) :
    (m.feed source).report.Displaced k (n.feed source).report := by
  induction source generalizing m n with
  | nil => exact h.endOfInput
  | cons c rest ih => exact feed_cons (h.step c) ih

end Machine.Displaced

end OperatorPrecedence
