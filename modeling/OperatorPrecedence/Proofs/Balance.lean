import OperatorPrecedence.Proofs.Moves

/-!
# Operators, operands and what is missing

Every operation that waits on the operator stack will take two operands and leave one.
So the operands of a text, read up to some place, number as many as the operations that
wait there, and one more if an operand has just ended; unless operands are missing
from the text, and then they are fewer by exactly as many as are missing.

The machine never looks at that number.  Applying the operators that bind tighter keeps it,
since every operation that goes takes one operand with it, and so operands run out only if
some are missing.

## Main definitions

* `Stacked` — the stacks of operators that precedence allows.
* `waiting` — how many operations wait on a stack.
* `Machine.Reduced` — a machine that has applied the tighter operators of another one.

## Main results

* `Stacked.waiting_lt` — there are more operators than operations.
* `Machine.reduce_spec` — what applying the tighter operators comes to: it keeps the
  balance, and it fails only if something is missing.
-/

namespace OperatorPrecedence

/-! ### Stacks of operators -/

/-- An operator may stand on top of another one that binds looser, and a sign on
an operation only. -/
def Operator.StandsOn (op top : Operator) : Prop :=
  top.binding? op = some .looser ∧
    ∀ operation, op = .sign operation → operation.isAdditive = true ∧ top.operation?.isSome = true

/-- The stacks of operators that precedence allows: at the bottom is a terminator, and every
other operator stands on one that binds looser. -/
inductive Stacked : List Operator → Prop
  /-- The terminator at the bottom. -/
  | bottom : Stacked [.terminator]
  /-- Another operator, on one that binds looser. -/
  | push {op top : Operator} {rest : List Operator} (below : Stacked (top :: rest))
      (stands : op.StandsOn top) : Stacked (op :: top :: rest)

namespace Stacked

variable {op top : Operator} {rest items : List Operator}

theorem exists_cons (h : Stacked items) : ∃ top rest, items = top :: rest := by
  cases h with
  | bottom => exact ⟨_, _, rfl⟩
  | push below stands => exact ⟨_, _, rfl⟩

/-- What is below an operator other than the terminator is a stack again. -/
theorem tail (h : Stacked (op :: rest)) (hop : op ≠ .terminator) : Stacked rest := by
  cases h with
  | bottom => exact absurd rfl hop
  | push below stands => exact below

/-- The terminator is at the bottom and nowhere else. -/
theorem eq_nil_of_terminator (h : Stacked (.terminator :: rest)) : rest = [] := by
  cases h with
  | bottom => rfl
  | @push _ top rest below stands =>
    -- nothing binds looser than a terminator
    have hlooser := stands.1
    cases top <;> simp [Operator.binding?] at hlooser

/-- No closing parenthesis is ever stacked. -/
theorem ne_closing (h : Stacked (op :: rest)) : op ≠ .closing := by
  rintro rfl
  cases h with
  | @push _ top rest below stands =>
    have hlooser := stands.1
    cases top <;> simp [Operator.binding?] at hlooser

/-- Whatever binds tighter than an operator being read is an operation. -/
theorem operation_of_tighter (h : Stacked (top :: rest)) (htop : top.binding? op = some .tighter) :
    ∃ operation, top.operation? = some operation := by
  cases top with
  | binary operation => exact ⟨operation, rfl⟩
  | sign operation => exact ⟨operation, rfl⟩
  | opening => cases op <;> simp [Operator.binding?] at htop
  | closing => exact absurd rfl h.ne_closing
  | terminator => cases op <;> simp [Operator.binding?] at htop

end Stacked

/-- The number of operations that wait on a stack of operators. -/
def waiting (items : List Operator) : Nat := items.countP fun op => op.operation?.isSome

@[simp] theorem waiting_cons (op : Operator) (items : List Operator) :
    waiting (op :: items) = waiting items + op.operation?.isSome.toNat := by
  unfold waiting
  rw [List.countP_cons]
  cases op.operation?.isSome <;> rfl

/-- There are more operators than operations, since the terminator is none. -/
theorem Stacked.waiting_lt {items : List Operator} (h : Stacked items) :
    waiting items < items.length := by
  induction h with
  | bottom => decide
  | @push op top rest below stands ih =>
    rw [waiting_cons, List.length_cons]
    have := Bool.toNat_le op.operation?.isSome
    omega

namespace Machine

variable {ν : Type}

/-! ### Applying the tighter operators -/

/-- What two machines have in common if one is left once the other has applied some
of its operators. -/
structure Reduced (op : Operator) (m next : Machine ν) : Prop where
  /-- The operators that are left are stacked properly. -/
  stacked : Stacked next.operators.items
  /-- Nothing on top binds tighter any more. -/
  settled : ∀ top ∈ next.operators.items.head?, top.binding? op ≠ some .tighter
  /-- No parenthesis has been closed. -/
  openings : next.operators.items.count .opening = m.operators.items.count .opening
  /-- Every operation that is gone has taken an operand with it. -/
  balance : next.operands.size + waiting m.operators.items =
    m.operands.size + waiting next.operators.items
  /-- The capacity of the operator stack is the same. -/
  operatorCapacity : next.operators.capacity = m.operators.capacity
  /-- The capacity of the operand stack is the same. -/
  operandCapacity : next.operands.capacity = m.operands.capacity
  /-- The literal is the same. -/
  literal : next.literal = m.literal
  /-- The column is the same. -/
  column : next.column = m.column

/-- A machine with nothing tighter on top is reduced as it is. -/
theorem Reduced.refl {op : Operator} {m : Machine ν} (hstacked : Stacked m.operators.items)
    (hsettled : ∀ top ∈ m.operators.items.head?, top.binding? op ≠ some .tighter) :
    Reduced op m m where
  stacked := hstacked
  settled := hsettled
  openings := rfl
  balance := rfl
  operatorCapacity := rfl
  operandCapacity := rfl
  literal := rfl
  column := rfl

variable [Numbers ν]

/-- Applying one operator more. -/
theorem Reduced.of_folded {op : Operator} {m next : Machine ν} {top : Operator}
    {rest : List Operator} {operation : Operation} {left right : ν} {below : List ν}
    (hitems : m.operators.items = top :: rest) (htop : top.operation? = some operation)
    (hoperands : m.operands.items = right :: left :: below)
    (h : Reduced op (m.folded left operation right) next) : Reduced op m next := by
  have hoperators : (m.folded left operation right).operators.items = rest := by
    simp [folded, record, withOperand, hitems]
  have hsize : (m.folded left operation right).operands.size + 1 = m.operands.size := by
    simp [folded, record, withOperand, Stack.size, hoperands]
  have hopening : top ≠ .opening := by
    rintro rfl
    cases htop
  refine ⟨h.stacked, h.settled, ?_, ?_, ?_, ?_, h.literal, h.column⟩
  · rw [h.openings, hoperators, hitems, List.count_cons_of_ne hopening]
  · have hbalance := h.balance
    rw [hoperators] at hbalance
    rw [hitems, waiting_cons, htop]
    simp only [Option.isSome_some, Bool.toNat_true]
    omega
  · rw [h.operatorCapacity]
    exact Stack.capacity_uncover hitems
  · rw [h.operandCapacity]
    have hleft : m.operands.uncover.items = left :: below := by simp [hoperands]
    calc (m.folded left operation right).operands.capacity
        = m.operands.uncover.uncover.capacity :=
          Stack.capacity_cover (Stack.room_uncover_ne_zero _) _
      _ = m.operands.uncover.capacity := Stack.capacity_uncover hleft
      _ = m.operands.capacity := Stack.capacity_uncover hoperands

/-- **Applying the tighter operators.**  Either they all find their operands, or the
operands run out, and then there are no more operands than operations waiting. -/
theorem reduce_spec {m : Machine ν} (hstacked : Stacked m.operators.items) (op : Operator) :
    (∃ next, m.reduce op = .ok next ∧ Reduced op m next) ∨
      (∃ verdict, m.reduce op = .error verdict ∧
        verdict.result = .error ⟨m.column, .stackUnderflow .operand⟩ ∧
        m.operands.size ≤ waiting m.operators.items) := by
  -- the induction is on the operators, since the machine changes with each of them
  generalize hitems : m.operators.items = items at hstacked
  induction items generalizing m with
  | nil => cases hstacked
  | cons top rest ih =>
    by_cases htop : top.binding? op = some .tighter
    · obtain ⟨operation, hoperation⟩ := hstacked.operation_of_tighter htop
      have hrest : Stacked rest := hstacked.tail (by rintro rfl; cases hoperation)
      have hwaiting : waiting (top :: rest) = waiting rest + 1 := by simp [hoperation]
      rw [reduce_of_tighter m hitems htop]
      rcases Nat.lt_or_ge m.operands.size 2 with hshort | hlong
      · -- the top operator lacks an operand
        rw [applyTop_of_short hitems hshort]
        exact .inr ⟨_, rfl, rfl, by omega⟩
      · obtain ⟨right, left, below, hoperands⟩ :
            ∃ right left below, m.operands.items = right :: left :: below := by
          match h : m.operands.items, hlong with
          | right :: left :: below, _ => exact ⟨right, left, below, rfl⟩
          | [_], hlong => simp [Stack.size, h] at hlong
          | [], hlong => simp [Stack.size, h] at hlong
        rw [applyTop_eq hitems hoperation hoperands]
        have hfolded : (m.folded left operation right).operators.items = rest := by
          simp [folded, record, withOperand, hitems]
        have hsize : (m.folded left operation right).operands.size + 1 = m.operands.size := by
          simp [folded, record, withOperand, Stack.size, hoperands]
        rcases ih hfolded hrest with ⟨next, hnext, hreduced⟩ | ⟨verdict, hverdict, hresult, hle⟩
        · exact .inl ⟨next, hnext, hreduced.of_folded hitems hoperation hoperands⟩
        · exact .inr ⟨verdict, hverdict, hresult, by omega⟩
    · refine .inl ⟨m, reduce_of_not_tighter m hitems htop, .refl (hitems ▸ hstacked) ?_⟩
      simpa [hitems] using htop

end Machine

end OperatorPrecedence
