import OperatorPrecedence.Proofs.Position

/-!
# The moves of the machine

What each move of the machine comes to, in the cases that its guards tell apart.  A
stack refuses an entry only if it is full, so a move that first takes entries away
can put one back, and what is left to say of a move is which machine it leads to.

Reading a character falls into three cases: a digit or a point is gathered, the
character of an operator is accepted as that operator, and anything else is refused.

## Main definitions

* `Stack.cover`, `Stack.uncover` — a stack with one entry more, or one less.
* `Machine.withOperand`, `Machine.withOperator` — a machine with one more of these.
* `Machine.committed` — the machine once its literal is an operand.
* `Machine.folded` — the machine once its top operator has been applied.
* `Machine.enter`, `Machine.settle` — what is left of accepting an operator, with the
  tighter ones applied already or still on the stack.

## Main results

* `Machine.applyTop_eq`, `Machine.applyTop_of_short` — applying an operator takes two
  operands, and fails only for want of these.
* `Machine.deliver_cases` — a machine delivers the one value that is left, or fails.
* `Machine.eq_of_commitLiteral`, `Machine.eq_folded_of_applyTop`, `Machine.eq_ite_of_interpret` —
  the machines that these moves can lead to.
* `Machine.settle_of_tighter`, `Machine.settle_of_not_tighter` — how an operator is settled.
* `Machine.step_numeric`, `Machine.step_symbol`, `Machine.step_foreign` — the cases of
  reading a character.
-/

namespace OperatorPrecedence

/-! ### Stacks with one entry more or less -/

namespace Stack

variable {α : Type}

/-- The stack with another entry on top. -/
def cover (s : Stack α) (a : α) : Stack α := ⟨a :: s.items, s.room.map (· - 1)⟩

/-- The stack without its top entry. -/
def uncover (s : Stack α) : Stack α := ⟨s.items.tail, s.room.map (· + 1)⟩

@[simp] theorem items_cover (s : Stack α) (a : α) : (s.cover a).items = a :: s.items := rfl

@[simp] theorem items_uncover (s : Stack α) : s.uncover.items = s.items.tail := rfl

@[simp] theorem size_cover (s : Stack α) (a : α) : (s.cover a).size = s.size + 1 := rfl

/-- A stack that took an entry is the same again without it. -/
theorem uncover_cover {s : Stack α} (h : s.room ≠ some 0) (a : α) :
    (s.cover a).uncover = s := by
  obtain ⟨items, room⟩ := s
  cases room with
  | none => rfl
  | some room =>
    have hpos : room ≠ 0 := by simpa using h
    simp only [cover, uncover, List.tail_cons, Option.map_some, mk.injEq, Option.some.injEq,
      true_and]
    omega

theorem push_eq_cover {s : Stack α} (h : s.room ≠ some 0) (a : α) : s.push a = .ok (s.cover a) := by
  unfold push cover
  split
  · next hroom => rw [hroom]; rfl
  · next hroom => exact absurd hroom h
  · next room hroom => rw [hroom]; rfl

theorem push_of_full {s : Stack α} (h : s.room = some 0) (a : α) :
    s.push a = .error (.overflow s.size) := by
  unfold push
  rw [h]

theorem pop_eq_uncover {s : Stack α} {a : α} {rest : List α} (h : s.items = a :: rest) :
    s.pop = .ok (a, s.uncover) := by
  unfold pop uncover
  rw [h]
  rfl

theorem pop_of_nil {s : Stack α} (h : s.items = []) : s.pop = .error .underflow := by
  unfold pop
  rw [h]

theorem capacity_cover {s : Stack α} (h : s.room ≠ some 0) (a : α) :
    (s.cover a).capacity = s.capacity := capacity_push (push_eq_cover h a)

theorem capacity_uncover {s : Stack α} {a : α} {rest : List α} (h : s.items = a :: rest) :
    s.uncover.capacity = s.capacity := capacity_pop (pop_eq_uncover h)

theorem room_uncover_ne_zero (s : Stack α) : s.uncover.room ≠ some 0 := by
  unfold uncover
  cases s.room <;> simp

theorem capacity_of_full {s : Stack α} (h : s.room = some 0) : s.capacity = some s.size := by
  unfold capacity
  rw [h]
  rfl

/-- A stack that holds fewer entries than another one of its capacity is not full. -/
theorem room_ne_zero_of_size_lt {β : Type} {s : Stack α} {t : Stack β}
    (hcapacity : s.capacity = t.capacity) (hsize : s.size < t.size) : s.room ≠ some 0 := by
  intro hroom
  have := size_le_capacity (hcapacity.symm.trans (capacity_of_full hroom))
  omega

end Stack

/-! ### Tokens by the class of a character -/

/-- Digits and the point stand for tokens that are no operators. -/
theorem Token.ofChar?_of_numeric {c : Char} (h : isNumeric c = true) :
    ∃ token, ofChar? c = some token ∧ token.operator? = none := by
  simp only [isNumeric, Bool.or_eq_true, beq_iff_eq] at h
  rcases h with h | rfl
  · refine ⟨.digit ⟨digitValue c, digitValue_lt h⟩, ?_, rfl⟩
    unfold ofChar?
    split <;> first | (simp [digit?, h]; done) | cases h
  · exact ⟨.point, rfl, rfl⟩

theorem Token.ofChar?_of_foreign {c : Char} (h : inAlphabet c = false) : ofChar? c = none := by
  have hdigit : c.isDigit = false := by
    simp only [inAlphabet, isNumeric, Bool.or_eq_false_iff] at h
    exact h.1.1.1.1.1
  unfold ofChar?
  split <;> first | (simp [digit?, hdigit]; done) | cases h

/-- Whether an operator is a sign where an operand is to begin. -/
def Operator.maySign : Operator → Bool
  | .binary operation => operation.isAdditive
  | .sign _ | .opening | .closing | .terminator => false

namespace Machine

variable {ν : Type}

/-! ### Machines with one entry more or less -/

/-- The machine with another operand on top. -/
def withOperand (m : Machine ν) (value : ν) : Machine ν :=
  { m with operands := m.operands.cover value }

/-- The machine with another operator on top. -/
def withOperator (m : Machine ν) (op : Operator) : Machine ν :=
  { m with operators := m.operators.cover op }

theorem putOperand_eq {m : Machine ν} (h : m.operands.room ≠ some 0) (value : ν) :
    m.putOperand value = .ok (m.withOperand value) := by
  unfold putOperand
  rw [Stack.push_eq_cover h]
  rfl

theorem putOperand_of_full {m : Machine ν} (h : m.operands.room = some 0) (value : ν) :
    m.putOperand value = m.fail (.stackOverflow .operand m.operands.size) := by
  unfold putOperand
  rw [Stack.push_of_full h]
  rfl

theorem putOperand_eq_ok_iff {m next : Machine ν} {value : ν} :
    m.putOperand value = .ok next ↔ m.operands.room ≠ some 0 ∧ next = m.withOperand value := by
  by_cases hroom : m.operands.room = some 0
  · rw [putOperand_of_full hroom]
    simp [fail, hroom]
  · rw [putOperand_eq hroom]
    simp [hroom, eq_comm]

theorem takeOperand_of_nil {m : Machine ν} (h : m.operands.items = []) :
    m.takeOperand = m.fail (.stackUnderflow .operand) := by
  unfold takeOperand
  rw [Stack.pop_of_nil h]
  rfl

theorem takeOperand_of_cons {m : Machine ν} {value : ν} {below : List ν}
    (h : m.operands.items = value :: below) :
    m.takeOperand = .ok (value, { m with operands := m.operands.uncover }) := by
  unfold takeOperand
  rw [Stack.pop_eq_uncover h]
  rfl

theorem takeOperator_of_cons {m : Machine ν} {op : Operator} {rest : List Operator}
    (h : m.operators.items = op :: rest) :
    m.takeOperator = .ok (op, { m with operators := m.operators.uncover }) := by
  unfold takeOperator
  rw [Stack.pop_eq_uncover h]
  rfl

/-! ### Placing an operator -/

/-- Places an operator, and remembers it as the character before. -/
def enter (m : Machine ν) (op : Operator) : Except (Verdict ν) (Machine ν) := do
  let m ← m.place op
  return { m with preceding := .ofOperator op }

/-- An operator that finds a looser one on top of the stack is put there. -/
theorem enter_of_looser {m : Machine ν} {op top : Operator} {rest : List Operator}
    (hitems : m.operators.items = top :: rest) (htop : top.binding? op = some .looser)
    (hroom : m.operators.room ≠ some 0) :
    m.enter op =
      .ok { (m.record (.push op top)).withOperator op with preceding := .ofOperator op } := by
  unfold enter place Stack.peek
  rw [hitems]
  simp only [afterStack, bind, Except.bind, htop]
  unfold putOperator
  rw [Stack.push_eq_cover (by exact hroom)]
  rfl

theorem enter_of_full {m : Machine ν} {op top : Operator} {rest : List Operator}
    (hitems : m.operators.items = top :: rest) (htop : top.binding? op = some .looser)
    (hroom : m.operators.room = some 0) :
    m.enter op = (m.record (.push op top)).fail (.stackOverflow .operator m.operators.size) := by
  unfold enter place Stack.peek
  rw [hitems]
  simp only [afterStack, bind, Except.bind, htop]
  unfold putOperator
  rw [Stack.push_of_full (by exact hroom)]
  rfl

/-- A closing parenthesis cancels out with the opening one. -/
theorem enter_closing {m : Machine ν} {rest : List Operator}
    (hitems : m.operators.items = .opening :: rest) :
    m.enter .closing = .ok { m.record (.close .closing .opening) with
      operators := m.operators.uncover, preceding := .closing } := by
  unfold enter place Stack.peek
  rw [hitems]
  simp only [afterStack, bind, Except.bind, Operator.binding?]
  rw [takeOperator_of_cons (m := m.record (.close .closing .opening)) (by exact hitems)]
  rfl

/-- Operators that no expression brings together do not stay together. -/
theorem enter_of_none {m : Machine ν} {op top : Operator} {rest : List Operator}
    (hitems : m.operators.items = top :: rest) (htop : top.binding? op = none) :
    m.enter op = m.fail (unplaceable op) := by
  unfold enter place Stack.peek
  rw [hitems]
  simp only [afterStack, bind, Except.bind, htop]
  rfl

/-- The terminator that meets the bottom of the stack ends the evaluation, with the single
operand there is. -/
theorem enter_terminator {m : Machine ν} {rest : List Operator} {value : ν}
    (hitems : m.operators.items = .terminator :: rest) (hoperands : m.operands.items = [value]) :
    m.enter .terminator = .error ⟨.ok value, (m.record (.evaluated value)).log⟩ := by
  unfold enter place Stack.peek
  rw [hitems]
  simp only [afterStack, bind, Except.bind, Operator.binding?, deliver]
  rw [takeOperand_of_cons hoperands]
  simp [Stack.isEmpty, hoperands]

theorem enter_terminator_of_nil {m : Machine ν} {rest : List Operator}
    (hitems : m.operators.items = .terminator :: rest) (hoperands : m.operands.items = []) :
    m.enter .terminator = m.fail (.stackUnderflow .operand) := by
  unfold enter place Stack.peek
  rw [hitems]
  simp only [afterStack, bind, Except.bind, Operator.binding?, deliver]
  rw [takeOperand_of_nil hoperands]
  rfl

/-- Delivering stops the machine, with the single operand there is or with a fault. -/
theorem deliver_cases (m : Machine ν) :
    (∃ value, m.operands.items = [value] ∧ ∀ α : Type, (m.deliver : Except (Verdict ν) α) =
      .error ⟨.ok value, (m.record (.evaluated value)).log⟩) ∨
    ∃ cause, ∀ α : Type, (m.deliver : Except (Verdict ν) α) = m.fail cause := by
  unfold deliver
  cases hoperands : m.operands.items with
  | nil =>
    rw [takeOperand_of_nil hoperands]
    exact .inr ⟨_, fun _ => rfl⟩
  | cons value below =>
    rw [takeOperand_of_cons hoperands]
    by_cases hempty : m.operands.uncover.isEmpty = true
    · have hbelow : below = [] := by
        simpa [Stack.isEmpty, hoperands] using hempty
      exact .inl ⟨value, by rw [hbelow], fun _ => if_pos hempty⟩
    · exact .inr ⟨_, fun _ => if_neg hempty⟩

/-- Delivering stops the machine one way or the other. -/
theorem exists_deliver (m : Machine ν) : ∃ verdict : Verdict ν, m.log <:+ verdict.log ∧
    ∀ α : Type, (m.deliver : Except (Verdict ν) α) = .error verdict := by
  rcases m.deliver_cases with ⟨value, -, hdeliver⟩ | ⟨cause, hdeliver⟩
  · exact ⟨_, List.suffix_cons _ _, hdeliver⟩
  · exact ⟨_, List.suffix_rfl, hdeliver⟩

theorem enter_terminator_eq_deliver {m : Machine ν} {rest : List Operator}
    (hitems : m.operators.items = .terminator :: rest) : m.enter .terminator = m.deliver := by
  obtain ⟨verdict, -, hverdict⟩ := m.exists_deliver
  unfold enter place Stack.peek
  rw [hitems]
  simp only [afterStack, bind, Except.bind, Operator.binding?]
  rw [hverdict]
  rfl

/-- Only a parenthesis can be out of place. -/
theorem checkPlace_cases (m : Machine ν) (op : Operator) :
    m.checkPlace op = .ok () ∨ ∃ cause, m.checkPlace op = m.fail cause := by
  unfold checkPlace
  cases op with
  | opening =>
    by_cases h : m.preceding.endsOperand = true
    · exact .inr ⟨.missingOperator, if_pos h⟩
    · exact .inl (if_neg h)
  | closing =>
    by_cases h : m.preceding.endsOperand = true
    · exact .inl (if_pos h)
    · exact .inr ⟨.missingOperand, if_neg h⟩
  | _ => exact .inl rfl

variable [Numbers ν]

/-! ### Committing a literal -/

/-- The machine once its literal has become an operand. -/
def committed (m : Machine ν) : Machine ν :=
  ({ m with literal := .empty }.record (.commit m.literal.value)).withOperand m.literal.value

theorem commitLiteral_of_isEmpty {m : Machine ν} (h : m.literal.isEmpty = true) :
    m.commitLiteral = .ok m := by
  unfold commitLiteral Literal.take
  rw [if_pos h]

theorem commitLiteral_eq {m : Machine ν} (h : m.literal.isEmpty = false)
    (hroom : m.operands.room ≠ some 0) : m.commitLiteral = .ok m.committed := by
  unfold commitLiteral Literal.take
  rw [if_neg (by simp [h])]
  exact putOperand_eq (by exact hroom) m.literal.value

/-- What committing a literal can lead to. -/
theorem eq_of_commitLiteral {m next : Machine ν} (h : m.commitLiteral = .ok next) :
    (m.literal.isEmpty = true ∧ next = m) ∨ (m.literal.isEmpty = false ∧ next = m.committed) := by
  unfold commitLiteral Literal.take at h
  cases hliteral : m.literal.isEmpty with
  | true =>
    rw [hliteral] at h
    cases h
    exact .inl ⟨rfl, rfl⟩
  | false =>
    rw [hliteral] at h
    exact .inr ⟨rfl, (putOperand_eq_ok_iff.mp h).2⟩

/-! ### Applying the top operator -/

/-- The machine once its top operator has been applied to its top operands. -/
def folded (m : Machine ν) (left : ν) (operation : Operation) (right : ν) : Machine ν :=
  let result := Numbers.apply operation left right
  ({ m with operators := m.operators.uncover, operands := m.operands.uncover.uncover }.record
    (.fold left operation right result)).withOperand result

/-- An operation takes its operands from the stack and leaves its result there.  There is
always room for the result, since the operands have gone. -/
theorem applyTop_eq {m : Machine ν} {op : Operator} {rest : List Operator}
    {operation : Operation} {left right : ν} {below : List ν}
    (hop : m.operators.items = op :: rest) (hoperation : op.operation? = some operation)
    (hoperands : m.operands.items = right :: left :: below) :
    m.applyTop = .ok (m.folded left operation right) := by
  have hleft : m.operands.uncover.items = left :: below := by
    rw [Stack.items_uncover, hoperands, List.tail_cons]
  unfold applyTop
  rw [takeOperator_of_cons hop]
  simp only [bind, Except.bind]
  rw [takeOperand_of_cons (by exact hoperands)]
  simp only
  rw [takeOperand_of_cons (by exact hleft)]
  simp only [hoperation]
  exact putOperand_eq (Stack.room_uncover_ne_zero _) _

/-- An operation lacks an operand exactly if the stack holds fewer than two. -/
theorem applyTop_of_short {m : Machine ν} {op : Operator} {rest : List Operator}
    (hop : m.operators.items = op :: rest) (hshort : m.operands.size < 2) :
    m.applyTop = m.fail (.stackUnderflow .operand) := by
  unfold applyTop
  rw [takeOperator_of_cons hop]
  simp only [bind, Except.bind]
  cases hoperands : m.operands.items with
  | nil =>
    rw [takeOperand_of_nil (by exact hoperands)]
    rfl
  | cons right below =>
    have hbelow : m.operands.uncover.items = [] := by
      rw [Stack.size, hoperands, List.length_cons] at hshort
      rw [Stack.items_uncover, hoperands, List.tail_cons]
      exact List.length_eq_zero_iff.mp (by omega)
    rw [takeOperand_of_cons (by exact hoperands)]
    simp only
    rw [takeOperand_of_nil (by exact hbelow)]
    rfl

/-- An operator that can be applied has an operation, and finds two operands. -/
theorem eq_folded_of_applyTop {m next : Machine ν} (h : m.applyTop = .ok next) :
    ∃ op rest operation right left below, m.operators.items = op :: rest ∧
      op.operation? = some operation ∧ m.operands.items = right :: left :: below ∧
      next = m.folded left operation right := by
  cases hop : m.operators.items with
  | nil =>
    unfold applyTop takeOperator at h
    rw [Stack.pop_of_nil hop] at h
    cases h
  | cons op rest =>
    match hoperands : m.operands.items with
    | [] | [_] =>
      rw [applyTop_of_short hop (by simp [Stack.size, hoperands])] at h
      cases h
    | right :: left :: below =>
      cases hoperation : op.operation? with
      | some operation =>
        rw [applyTop_eq hop hoperation hoperands] at h
        cases h
        exact ⟨op, rest, operation, right, left, below, rfl, hoperation, rfl, rfl⟩
      | none =>
        have hleft : m.operands.uncover.items = left :: below := by
          rw [Stack.items_uncover, hoperands, List.tail_cons]
        unfold applyTop at h
        rw [takeOperator_of_cons hop] at h
        simp only [bind, Except.bind] at h
        rw [takeOperand_of_cons (by exact hoperands)] at h
        simp only at h
        rw [takeOperand_of_cons (by exact hleft)] at h
        simp only [hoperation] at h
        cases h

/-! ### Settling what an operator means -/

/-- Behind an operand an operator is what it says. -/
theorem interpret_of_endsOperand {m : Machine ν} (h : m.preceding.endsOperand = true)
    (op : Operator) : m.interpret op = .ok (op, m) := by
  unfold interpret
  cases op with
  | binary operation =>
    simp only
    split
    · cases hpreceding : m.preceding <;> simp_all [Preceding.endsOperand]
    · rfl
  | _ => rfl

theorem interpret_of_not_additive (m : Machine ν) {operation : Operation}
    (h : operation.isAdditive = false) :
    m.interpret (.binary operation) = .ok (.binary operation, m) := by
  simp [interpret, h]

/-- At the start of an expression or a group, a plus or minus acts on zero. -/
theorem interpret_at_start {m : Machine ν} {operation : Operation}
    (hadditive : operation.isAdditive = true)
    (h : m.preceding = .nothing ∨ m.preceding = .opening) (hroom : m.operands.room ≠ some 0) :
    m.interpret (.binary operation) = .ok (.binary operation, m.withOperand Numbers.zero) := by
  unfold interpret
  rw [putOperand_eq hroom]
  simp only [hadditive]
  rcases h with h | h <;> rw [h] <;> rfl

/-- Behind another operator, a plus or minus is a sign. -/
theorem interpret_behind_operator {m : Machine ν} {operation : Operation}
    (hadditive : operation.isAdditive = true) (h : m.preceding = .operator)
    (hroom : m.operands.room ≠ some 0) :
    m.interpret (.binary operation) = .ok (.sign operation, m.withOperand Numbers.zero) := by
  unfold interpret
  rw [putOperand_eq hroom]
  simp only [hadditive, h]
  rfl

/-- Behind an operand, or with room for a zero, it can be told what an operator means. -/
theorem exists_interpret {m : Machine ν}
    (h : m.preceding.endsOperand = true ∨ m.operands.room ≠ some 0) (op : Operator) :
    ∃ incoming n, m.interpret op = .ok (incoming, n) := by
  rcases h with hends | hroom
  · exact ⟨_, _, interpret_of_endsOperand hends op⟩
  · cases op with
    | binary operation =>
      cases hadditive : operation.isAdditive with
      | false => exact ⟨_, _, interpret_of_not_additive m hadditive⟩
      | true =>
        cases hp : m.preceding with
        | operand | closing => exact ⟨_, _, interpret_of_endsOperand (by rw [hp]; rfl) _⟩
        | nothing => exact ⟨_, _, interpret_at_start hadditive (.inl hp) hroom⟩
        | opening => exact ⟨_, _, interpret_at_start hadditive (.inr hp) hroom⟩
        | operator => exact ⟨_, _, interpret_behind_operator hadditive hp hroom⟩
    | _ => exact ⟨_, _, rfl⟩

/-- A plus or minus that no operand precedes gets zero for its left operand, and nothing else
does. -/
theorem eq_ite_of_interpret {m next : Machine ν} {op incoming : Operator}
    (h : m.interpret op = .ok (incoming, next)) :
    next =
      if op.maySign && !m.preceding.endsOperand then m.withOperand Numbers.zero else m := by
  cases hends : m.preceding.endsOperand with
  | true =>
    rw [interpret_of_endsOperand hends] at h
    cases h
    simp
  | false =>
    cases op with
    | binary operation =>
      cases hadditive : operation.isAdditive with
      | false =>
        rw [interpret_of_not_additive m hadditive] at h
        cases h
        simp [Operator.maySign, hadditive]
      | true =>
        have hput : ∀ meaning : Operator,
            (do return (meaning, ← m.putOperand Numbers.zero)) = Except.ok (incoming, next) →
              next = m.withOperand Numbers.zero := by
          intro meaning hmeaning
          cases hnext : m.putOperand Numbers.zero with
          | error verdict => rw [hnext] at hmeaning; cases hmeaning
          | ok supplied =>
            rw [hnext] at hmeaning
            cases hmeaning
            exact (putOperand_eq_ok_iff.mp hnext).2
        simp only [Operator.maySign, hadditive, Bool.not_false, Bool.and_self, if_true]
        unfold interpret at h
        simp only [hadditive] at h
        cases hp : m.preceding with
        | operand | closing =>
          rw [hp] at hends
          cases hends
        | nothing | opening | operator =>
          rw [hp] at h
          exact hput _ h
    | _ =>
      cases h
      rfl

/-- What settling the meaning of an operator can lead to. -/
theorem eq_of_interpret {m next : Machine ν} {op incoming : Operator}
    (h : m.interpret op = .ok (incoming, next)) :
    next = m ∨ next = m.withOperand Numbers.zero := by
  have hnext := eq_ite_of_interpret h
  split at hnext
  · exact .inr hnext
  · exact .inl hnext

/-! ### Accepting an operator -/

/-- What is left of accepting an operator once it is known what it means where it
stands: operators that bind tighter are applied, and the new one is placed. -/
def settle (m : Machine ν) (op : Operator) : Except (Verdict ν) (Machine ν) := do
  let m ← m.reduce op
  m.enter op

theorem accept_eq_of_commit {m next : Machine ν} (h : m.commitLiteral = .ok next)
    (op : Operator) :
    m.accept op =
      next.interpret op >>= fun p => p.2.checkPlace p.1 >>= fun _ => p.2.settle p.1 := by
  unfold accept
  rw [h]
  rfl

/-- An operator with nothing tighter on top of the stack is placed at once. -/
theorem settle_of_not_tighter {m : Machine ν} {op top : Operator} {rest : List Operator}
    (hitems : m.operators.items = top :: rest) (htop : top.binding? op ≠ some .tighter) :
    m.settle op = m.enter op := by
  unfold settle
  rw [reduce_of_not_tighter m hitems htop]
  rfl

/-- An operator with a tighter one on top of the stack waits until that one has been
applied. -/
theorem settle_of_tighter {m : Machine ν} {op top : Operator} {rest : List Operator}
    (hitems : m.operators.items = top :: rest) (htop : top.binding? op = some .tighter) :
    m.settle op = m.applyTop >>= (·.settle op) := by
  unfold settle
  rw [reduce_of_tighter m hitems htop]
  cases m.applyTop <;> rfl

/-! ### Reading a character -/

/-- The machine that has counted one character more. -/
def advanced (m : Machine ν) : Machine ν := { m with column := m.column + 1 }

theorem step_numeric (m : Machine ν) {c : Char} (h : isNumeric c = true) :
    m.step c = m.advanced.gather c := by
  obtain ⟨token, htoken, hoperator⟩ := Token.ofChar?_of_numeric h
  simp only [step, htoken, hoperator]
  rfl

theorem step_of_token (m : Machine ν) {c : Char} {token : Token} {op : Operator}
    (htoken : Token.ofChar? c = some token) (hop : token.operator? = some op) :
    m.step c = m.advanced.accept op := by
  simp only [step, htoken, hop]
  rfl

/-- What reading a character is depends on the character only. -/
theorem step_cases (c : Char) :
    (∀ m : Machine ν, m.step c = m.advanced.fail (.invalidCharacter c)) ∨
      (isNumeric c = true ∧ ∀ m : Machine ν, m.step c = m.advanced.gather c) ∨
      ∃ token op, Token.ofChar? c = some token ∧ token.operator? = some op := by
  cases CharClass.of c with
  | numeric h => exact .inr (.inl ⟨h, fun m => step_numeric m h⟩)
  | operation operation => cases operation <;> exact .inr (.inr ⟨_, _, rfl, rfl⟩)
  | foreign h =>
    refine .inl fun m => ?_
    simp only [step, Token.ofChar?_of_foreign h]
    rfl
  | _ => exact .inr (.inr ⟨_, _, rfl, rfl⟩)

theorem step_symbol (m : Machine ν) (operation : Operation) :
    m.step operation.symbol = m.advanced.accept (.binary operation) := by
  cases operation <;> exact step_of_token m rfl rfl

theorem step_opening (m : Machine ν) : m.step '(' = m.advanced.accept .opening :=
  step_of_token m rfl rfl

theorem step_closing (m : Machine ν) : m.step ')' = m.advanced.accept .closing :=
  step_of_token m rfl rfl

theorem step_terminator (m : Machine ν) : m.step '=' = m.advanced.accept .terminator :=
  step_of_token m rfl rfl

theorem step_foreign (m : Machine ν) {c : Char} (h : inAlphabet c = false) :
    m.step c = m.advanced.fail (.invalidCharacter c) := by
  simp only [step, Token.ofChar?_of_foreign h]
  rfl

end Machine

end OperatorPrecedence
