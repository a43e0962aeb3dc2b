import OperatorPrecedence.Proofs.Reading

/-!
# The machine between two characters

What can be seen of a machine that has read a text and waits for more.  Its operators
come in layers, one for the expression and one for every parenthesis that is open, and in a
layer they bind ever tighter towards the top.  Its operands are as many as the operations that
wait for them and what is missing from the text allow.

## Main definitions

* `Layer` — the operators that wait in the expression or in one open parenthesis.
* `layered` — layers, from the bottom of the stack up.
* `unsupplied` — the number of multiplications and divisions without a left operand.

## Main results

* `Stacked.exists_layers` — operators that precedence allows come in layers.
* `missing_eq_unsupplied` — what is missing from a text without a terminator.
* `invariant_of_waiting` — **what holds of a machine between two characters**.
-/

namespace OperatorPrecedence

variable {ν : Type}

/-! ### Layers -/

/-- The operators that wait in the expression or in one open parenthesis: an addition or
subtraction at most, then a multiplication or division at most, then signs. -/
structure Layer where
  /-- The addition or subtraction. -/
  sum : Option Operation
  /-- The multiplication or division. -/
  product : Option Operation
  /-- The signs, from the bottom up. -/
  signs : List Operation
  sum_additive : ∀ operation ∈ sum, operation.isAdditive = true
  product_scaling : ∀ operation ∈ product, operation.isAdditive = false
  signs_additive : ∀ operation ∈ signs, operation.isAdditive = true
  /-- There are no signs without an operation of the layer below them. -/
  signs_supported : sum = none → product = none → signs = []

/-- The operators of a layer, from the bottom up. -/
def Layer.operators (g : Layer) : List Operator :=
  g.sum.toList.map .binary ++ g.product.toList.map .binary ++ g.signs.map .sign

/-- A stack of operators, from the bottom up: the terminator and the operators of a first
layer, and then those of other layers, each behind its opening parenthesis. -/
def layered (first : Layer) (inner : List Layer) : List Operator :=
  .terminator :: first.operators ++ inner.flatMap fun g => .opening :: g.operators

namespace Layer

/-- A layer in which nothing waits. -/
def empty : Layer := ⟨none, none, [], by simp, by simp, by simp, by simp⟩

@[simp] theorem operators_empty : empty.operators = [] := rfl

theorem operators_eq_nil_of_none {g : Layer} (hsum : g.sum = none) (hproduct : g.product = none) :
    g.operators = [] := by
  simp [operators, hsum, hproduct, g.signs_supported hsum hproduct]

theorem exists_push_sign {g : Layer} {operation : Operation}
    (hadditive : operation.isAdditive = true) (hne : g.operators ≠ []) :
    ∃ g' : Layer, g'.operators = g.operators ++ [.sign operation] := by
  refine ⟨{ g with
    signs := g.signs ++ [operation]
    signs_additive := ?_
    signs_supported := ?_ }, ?_⟩
  · intro other hother
    rcases List.mem_append.mp hother with h | h
    · exact g.signs_additive other h
    · rw [List.mem_singleton.mp h, hadditive]
  · intro hsum hproduct
    exact absurd (operators_eq_nil_of_none hsum hproduct) hne
  · simp [operators]

/-- An operation stands on an operation that binds looser, or opens its layer. -/
theorem exists_push_binary {g : Layer} {top : Operator} {operation : Operation}
    (hstands : (Operator.binary operation).StandsOn top)
    (htop : g.operators.getLast? = some top ∨ (g.operators = [] ∧ top.operation? = none)) :
    ∃ g' : Layer, g'.operators = g.operators ++ [.binary operation] := by
  have hlooser := hstands.1
  by_cases hnil : g.operators = []
  · -- the first operation of its layer
    rw [hnil]
    cases hadditive : operation.isAdditive with
    | true =>
      exact ⟨⟨some operation, none, [], by simp [hadditive], by simp, by simp, by simp⟩, rfl⟩
    | false =>
      exact ⟨⟨none, some operation, [], by simp, by simp [hadditive], by simp, by simp⟩, rfl⟩
  · have hlast : g.operators.getLast? = some top := by
      rcases htop with h | ⟨h, -⟩
      · exact h
      · exact absurd h hnil
    obtain ⟨sum, product, signs, hsum, hproduct, hsigns, hsupported⟩ := g
    rcases List.eq_nil_or_concat signs with rfl | ⟨signs, sign, rfl⟩
    · cases product with
      | some scaling =>
        -- nothing is looser than a multiplication or division but a sign
        have htop : top = .binary scaling := by simpa [operators, eq_comm] using hlast
        simp [htop, Operator.binding?, hproduct] at hlooser
      | none =>
        cases sum with
        | none => exact absurd rfl hnil
        | some additive =>
          have htop : top = .binary additive := by simpa [operators, eq_comm] using hlast
          have hscaling : operation.isAdditive = false := by
            simpa [htop, Operator.binding?, hsum] using hlooser
          exact
            ⟨⟨some additive, some operation, [], hsum, by simp [hscaling], by simp, by simp⟩, rfl⟩
    · have htop : top = .sign sign := by simpa [operators, eq_comm] using hlast
      simp [htop, Operator.binding?] at hlooser

end Layer

/-! ### Stacks come in layers -/

namespace Stacked

variable {op top : Operator} {rest items : List Operator}

/-- The last layer of a stack stands on a base that any other layer might stand on. -/
theorem exists_base (h : Stacked items) :
    ∃ (base : List Operator) (g : Layer), items.reverse = base ++ g.operators ∧
      (base.getLast? = some .terminator ∨ base.getLast? = some .opening) ∧
      ∀ g' : Layer, ∃ first inner, base ++ g'.operators = layered first inner := by
  induction h with
  | bottom =>
    refine ⟨[.terminator], .empty, rfl, .inl rfl, ?_⟩
    intro g'
    exact ⟨g', [], by simp [layered]⟩
  | @push op top rest below stands ih =>
    obtain ⟨base, g, hreverse, hbase, hground⟩ := ih
    have hpushed : (op :: top :: rest).reverse = base ++ g.operators ++ [op] := by
      rw [List.reverse_cons, hreverse]
    -- what the new operator stands on is the last of the layer, or what the layer stands on
    have htop : g.operators.getLast? = some top ∨ (g.operators = [] ∧ top.operation? = none) := by
      have hlast : (base ++ g.operators).getLast? = some top := by
        rw [← hreverse, List.getLast?_reverse, List.head?_cons]
      by_cases hnil : g.operators = []
      · rw [hnil, List.append_nil] at hlast
        rw [hlast] at hbase
        refine .inr ⟨hnil, ?_⟩
        rcases hbase with h | h <;> cases h <;> rfl
      · have hsome := List.getLast?_eq_some_getLast hnil
        rw [List.getLast?_append, hsome] at hlast
        exact .inl (hsome.trans hlast)
    cases op with
    | binary operation =>
      obtain ⟨g', hg'⟩ := Layer.exists_push_binary stands htop
      exact ⟨base, g', by rw [hpushed, hg', List.append_assoc], hbase, hground⟩
    | sign operation =>
      obtain ⟨hadditive, hoperation⟩ := stands.2 operation rfl
      have hne : g.operators ≠ [] := by
        intro hnil
        rcases htop with h | ⟨-, h⟩
        · simp [hnil] at h
        · simp [h] at hoperation
      obtain ⟨g', hg'⟩ := Layer.exists_push_sign hadditive hne
      exact ⟨base, g', by rw [hpushed, hg', List.append_assoc], hbase, hground⟩
    | opening =>
      refine ⟨base ++ g.operators ++ [.opening], .empty, by simp [hpushed], .inr (by simp), ?_⟩
      intro g'
      obtain ⟨first, inner, hstack⟩ := hground g
      exact ⟨first, inner ++ [g'], by simp [hstack, layered]⟩
    | closing => exact absurd rfl (below.push stands).ne_closing
    | terminator => cases (below.push stands).eq_nil_of_terminator

/-- **Operators that precedence allows come in layers.** -/
theorem exists_layers (h : Stacked items) :
    ∃ first inner, items.reverse = layered first inner := by
  obtain ⟨base, g, hreverse, -, hground⟩ := h.exists_base
  rw [hreverse]
  exact hground g

end Stacked

/-! ### Operands that are not supplied -/

/-- Whether a multiplication or division stands at a position where an operand is to begin. -/
def unsuppliedAt (text : List Char) (n : Nat) : Bool :=
  (text[n]? == some '*' || text[n]? == some '/') && awaitsOperand (text.take n)

/-- The number of multiplications and divisions that stand where an operand is to begin. -/
def unsupplied (text : List Char) : Nat := (List.range text.length).countP (unsuppliedAt text)

/-- Without a terminator, only multiplications and divisions can lack an operand. -/
theorem missing_eq_unsupplied {text : List Char} (h : '=' ∉ text) :
    missing text = unsupplied text := by
  unfold missing unsupplied
  refine List.countP_congr ?_
  intro n hn
  have hlt : n < text.length := List.mem_range.mp hn
  have hc : text[n]? = some text[n] := List.getElem?_eq_getElem hlt
  have hequals : text[n] ≠ '=' := by
    intro heq
    exact h (heq ▸ List.getElem_mem hlt)
  simp [lacksOperandAt, unsuppliedAt, lacksOperand, hc, hequals, and_comm]

/-! ### The invariant -/

variable [Numbers ν]

/-- **What holds of a machine between two characters**, whatever it has read and however much
its stacks can hold.  The operators on its stack come in layers.  The parentheses on it are
those that have been opened and not closed.  A literal is being read exactly behind an operand,
the top is an opening parenthesis behind an opening parenthesis, and an operation behind an
operation.  There is an operand for every operation that waits, and one more behind an operand
or a closing parenthesis, less those that are missing. -/
theorem invariant_of_waiting {capacity : Option Nat} {text : List Char} {first m : Machine ν}
    (hstart : Machine.start capacity = .ok first) (hfeed : first.feed text = .waiting m) :
    (∃ outer inner, m.operators.items.reverse = layered outer inner) ∧
    m.operators.items.count .opening + text.count ')' = text.count '(' ∧
    ((m.preceding = .operand ↔ m.literal.isEmpty = false) ∧
      (m.preceding = .opening → m.operators.items.head? = some .opening) ∧
      (m.preceding = .operator →
        ∃ top, m.operators.items.head? = some top ∧ top.operation?.isSome = true)) ∧
    m.operands.size + (!m.literal.isEmpty).toNat + unsupplied text =
      waiting m.operators.items + m.preceding.endsOperand.toNat := by
  have h := Machine.behind_of_feed hstart hfeed
  have htop := h.top
  refine ⟨h.stacked.exists_layers, h.depth, ⟨h.literal.symm, ?_, ?_⟩, ?_⟩
  · intro hpreceding
    rw [hpreceding] at htop
    obtain ⟨rest, hitems⟩ := htop
    rw [hitems, List.head?_cons]
  · intro hpreceding
    rw [hpreceding] at htop
    obtain ⟨top, rest, hitems, hoperation⟩ := htop
    exact ⟨top, by rw [hitems, List.head?_cons], hoperation⟩
  · rw [← missing_eq_unsupplied h.unterminated, h.endsOperand_preceding]
    exact h.balance

/-- A product in a group that lacks its left operand, and a sign, on stacks for eight entries. -/
theorem invariant_of_group_without_operand :
    ∃ first m : Machine Float, Machine.start (some 8) = .ok first ∧
      first.feed ['1', '+', '(', '*', '-', '2'] = .waiting m ∧
      m.operands.size + (!m.literal.isEmpty).toNat + unsupplied ['1', '+', '(', '*', '-', '2'] =
        waiting m.operators.items + m.preceding.endsOperand.toNat := by
  have hstart : (Machine.start (some 8) : Except (Verdict Float) (Machine Float)) = .ok _ := rfl
  exact ⟨_, _, hstart, rfl, (invariant_of_waiting hstart rfl).2.2.2⟩

end OperatorPrecedence
