import OperatorPrecedence.Proofs.Consumption
import OperatorPrecedence.Proofs.Turns

/-!
# What never happens

Some of the faults that a machine can stop with are there for completeness only: no
evaluation comes to them.  Operands are never left over, no parenthesis is ever to be
applied, the operator stack never runs out and the operand stack never runs over.

Most of this rests on what can be on top of the operator stack at the turns of accepting an
operator, as told in `OperatorPrecedence.Proofs.Turns`.

## Main results

* `Consumes.reportable` — what the evaluation of a stream can report.
* `internal_faults_unreachable` — **the faults of the machine itself never arise**.
-/

namespace OperatorPrecedence

open Stream' (Seq)

variable {ν : Type}

/-! ### Faults that never arise -/

/-- The character that a fault is reported for is the last one that was pulled, and it can
be refused for it. -/
theorem Consumes.reportable [Numbers ν] {capacity : Option Nat} {s : Seq Char}
    {outcome : Consumption ν} (h : Consumes capacity s outcome) {column : Nat} {cause : Cause}
    (hresult : outcome.result = .error ⟨column, cause⟩) :
    (capacity = some 0 ∧ column = 0 ∧ cause = .stackOverflow .operator 0) ∨
      cause = .unexpectedEnd ∨
      ∃ text c, column = text.length + 1 ∧ s.get? text.length = some c ∧
        Reportable capacity text c cause := by
  cases h.takes with
  | noRoom limited =>
    cases hresult
    exact .inl ⟨limited, rfl, rfl⟩
  | exhausted =>
    cases hresult
    exact .inr (.inl rfl)
  | @stopped text c m verdict begins char behind reads =>
    obtain ⟨hcolumn, hreportable⟩ := reads.reportable hresult
    exact .inr (.inr ⟨text, c, hcolumn, char, hreportable⟩)

variable [Numbers ν]

/-- **The faults of the machine itself never arise.**  Whatever the source, with or without an
end, and whatever the capacity, no operand is left over, no parenthesis is applied, the
operator stack does not run out and the operand stack does not run over.  An operator is
missing only in front of an opening parenthesis.  The operator stack runs over, unless it
cannot hold anything, at an operation or an opening parenthesis, and the operand stack runs out
at an operation, a closing parenthesis or the terminator.

At every turn there is an operator on top, and the mark at the bottom is in its place; only an
operation is applied, only an opening parenthesis cancels out, and only a closing parenthesis
and the terminator can fail to find a partner. -/
theorem internal_faults_unreachable (capacity : Option Nat) :
    (∀ (s : Seq Char) (outcome : Consumption ν), Consumes capacity s outcome →
      ∀ column cause, outcome.result = .error ⟨column, cause⟩ →
        (∀ count, cause ≠ .danglingOperands count) ∧
        (∀ symbol, cause ≠ .notApplicable symbol) ∧
        (cause = .missingOperator → ∃ n, column = n + 1 ∧ s.get? n = some '(') ∧
        (∀ stack limit, cause = .stackOverflow stack limit →
          stack = .operator ∧ capacity = some limit ∧
            (1 ≤ limit → ∃ n, column = n + 1 ∧
              ∃ c ∈ ['+', '-', '*', '/', '('], s.get? n = some c)) ∧
        (∀ stack, cause = .stackUnderflow stack →
          stack = .operand ∧ ∃ n, column = n + 1 ∧
            ∃ c ∈ ['+', '-', '*', '/', ')', '='], s.get? n = some c)) ∧
    (∀ (text : List Char) (first m : Machine ν), Machine.start capacity = .ok first →
      first.feed text = .waiting m → ∀ c token op, Token.ofChar? c = some token →
      token.operator? = some op → ∀ incoming n, m.advanced.Turn op incoming n →
        m.step c = n.settle incoming ∧
        n.operators.items.getLast? = some .terminator ∧
        ∃ top rest, n.operators.items = top :: rest ∧
          (top.binding? incoming = some .tighter → top.operation?.isSome = true) ∧
          (top.binding? incoming = some .paired →
            (incoming = .closing ∧ top = .opening) ∨ (incoming = .terminator ∧ rest = [])) ∧
          (top.binding? incoming = none → incoming = .closing ∨ incoming = .terminator)) := by
  refine ⟨?_, ?_⟩
  · intro s outcome h column cause hresult
    have hoperation : ∀ c, isOperation c = true → c ∈ ['+', '-', '*', '/'] := by
      intro c hc
      simpa [isOperation, or_assoc] using hc
    rcases h.reportable hresult with ⟨rfl, rfl, rfl⟩ | rfl | ⟨text, c, rfl, hchar, hreportable⟩
    · simp
    · simp
    · cases hreportable with
      | missingOperator opening ends =>
        refine ⟨by simp, by simp, fun _ => ⟨text.length, rfl, opening ▸ hchar⟩, by simp, by simp⟩
      | stackOverflow limited operator =>
        refine ⟨by simp, by simp, by simp, ?_, by simp⟩
        rintro stack limit ⟨⟩
        refine ⟨rfl, limited, fun _ => ⟨text.length, rfl, c, ?_, hchar⟩⟩
        rcases operator with hc | rfl
        · exact List.mem_append_left ['('] (hoperation c hc)
        · simp
      | stackUnderflow operator =>
        refine ⟨by simp, by simp, by simp, by simp, ?_⟩
        rintro stack ⟨⟩
        refine ⟨rfl, text.length, rfl, c, ?_, hchar⟩
        rcases operator with hc | rfl | rfl
        · exact List.mem_append_left [')', '='] (hoperation c hc)
        · simp
        · simp
      | _ => simp
  · intro text first m hstart hfeed c token op htoken hop incoming n hturn
    have hstacked := hturn.stacked (Machine.behind_of_feed hstart hfeed).stacked
    obtain ⟨top, rest, hitems⟩ := hstacked.exists_cons
    exact ⟨(Machine.step_of_token m htoken hop).trans hturn.accept_eq, hstacked.getLast?_eq,
      top, rest, hitems, (hitems ▸ hstacked).top_cases incoming⟩

/-- Two groups do not fit on a stack for two operators, since the mark at the bottom is one; and
when the terminator is read behind `1+2`, that mark is still below the addition. -/
theorem operator_stack_overflow_of_groups :
    (∃ outcome : Consumption Float, Consumes (some 2) (Seq.ofList ['(', '(']) outcome ∧
      outcome.result = .error ⟨2, .stackOverflow .operator 2⟩ ∧
      ∃ n, 2 = n + 1 ∧
        ∃ c ∈ ['+', '-', '*', '/', '('], (Seq.ofList ['(', '(']).get? n = some c) ∧
    (∃ first m n : Machine Float, Machine.start (some 2) = .ok first ∧
      first.feed ['1', '+', '2'] = .waiting m ∧ m.advanced.Turn .terminator .terminator n ∧
      m.step '=' = n.settle .terminator ∧ n.operators.items.getLast? = some .terminator) := by
  have h := internal_faults_unreachable (ν := Float) (some 2)
  have hconsumes := consumes_ofList (ν := Float) (some 2) ['(', '(']
  have hfull := (h.1 _ _ hconsumes 2 (.stackOverflow .operator 2) rfl).2.2.2.1 _ _ rfl
  refine ⟨⟨_, hconsumes, rfl, hfull.2.2 (by decide)⟩, ?_⟩
  have hlast := h.2 ['1', '+', '2'] _ _ rfl rfl '=' .equals .terminator rfl rfl .terminator _
    (.first rfl rfl rfl)
  exact ⟨_, _, _, rfl, rfl, .first rfl rfl rfl, hlast.1, hlast.2.1⟩

end OperatorPrecedence
