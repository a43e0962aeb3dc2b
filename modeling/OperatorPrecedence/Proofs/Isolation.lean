import OperatorPrecedence.Proofs.PostOrder
import OperatorPrecedence.Proofs.Turns

/-!
# Groups in isolation

A well-formed group does not touch what is around it.  Wherever an operand is to begin, whatever
lies on the stacks and however malformed the text in front of it is, the group is read to its end
and leaves its value behind.  Nothing that is applied inside of it reaches below its opening
parenthesis.

What a group needs to begin is known of every machine: behind a text the literal has the value of
the characters that were gathered, and so where none have been there is no literal at all.

## Main definitions

* `Machine.Valued` — a machine with the literal that its characters amount to.

## Main results

* `Machine.valued_of_feed` — behind every text the literal has the value of its characters.
* `Machine.Behind.ready` — where an operand is to begin, a literal or a group may.
* `Phrase.group_isolated` — **a well-formed group is isolated from its context**.
-/

namespace OperatorPrecedence

variable {ν : Type} [Numbers ν]

/-! ### The literal of a machine -/

/-- A literal without characters that has the value of its characters is the empty one. -/
theorem Literal.eq_empty {l : Literal ν} (hvalue : l.value = valueOf l.text)
    (hempty : l.isEmpty = true) : l = .empty := by
  have htext := (isEmpty_iff_text l).mp hempty
  obtain ⟨reversed, value⟩ := l
  obtain rfl : reversed = [] := List.reverse_eq_nil_iff.mp htext
  obtain rfl : value = valueOf [] := hvalue
  rfl

namespace Machine

/-- **A machine with the literal that its characters amount to.** -/
def Valued (m : Machine ν) : Prop := m.literal.value = Literal.valueOf m.literal.text

variable {m n next : Machine ν}

theorem Turn.valued {op incoming : Operator} (h : Turn m op incoming n) (hm : m.Valued) :
    n.Valued :=
  h.preserves hm (fun _ => rfl) (fun _ hk => hk) (fun _ _ _ _ _ _ _ _ hk => hk)

/-- A character is gathered, or it leaves the literal as it is at the last turn. -/
theorem GoesOn.valued {c : Char} (h : m.GoesOn c next) (hm : m.Valued) : next.Valued := by
  have hadvanced : m.advanced.Valued := hm
  cases h with
  | gathered numeric apart => exact Literal.value_push hm c
  | pushed stands operator turn items looser room => exact turn.valued hadvanced
  | closed stands operator turn items => exact turn.valued hadvanced

/-- Behind every text the literal has the value of the characters that were gathered. -/
theorem valued_of_feed {capacity : Option Nat} {text : List Char} {first : Machine ν}
    (hstart : start capacity = .ok first) (hfeed : first.feed text = .waiting m) :
    m.Valued := by
  have hfirst : first.Valued := by
    rw [eq_of_start hstart]
    rfl
  exact (behind_of_start hstart).feed_induction (P := fun _ m => m.Valued)
    (fun _ hm hgoes => hgoes.valued hm) hfirst hfeed

/-! ### Where a group may begin -/

/-- **Where an operand is to begin, a literal or a group may**, on stacks without a limit. -/
theorem Behind.ready {text : List Char} (h : Behind none text m) (hm : m.Valued)
    (hends : m.preceding.endsOperand = false) : m.Ready .primary := by
  obtain ⟨top, rest, hitems⟩ := h.stacked.exists_cons
  have hliteral : m.literal.isEmpty = true := by
    cases hbegun : m.literal.isEmpty with
    | true => rfl
    | false =>
      rw [h.literal.mp hbegun] at hends
      cases hends
  have htop : top ≠ .closing := Stacked.ne_closing (hitems ▸ h.stacked)
  exact ⟨Option.map_eq_none_iff.mp h.operatorCapacity, Option.map_eq_none_iff.mp h.operandCapacity,
    Literal.eq_empty hm hliteral, top, rest, hitems, hends, htop⟩

end Machine

/-! ### A group in its context -/

/-- **A well-formed group is isolated from its context.**  On stacks without a limit, behind any
text behind which an operand is to begin, the group is read without a fault.  Then the operators
are those there were, the value of the group is on top of the operands there were, no literal has
begun, and what has been recorded is recorded of the group. -/
theorem Phrase.group_isolated (e : Phrase .expression) {text : List Char} {first m : Machine ν}
    (hstart : Machine.start none = .ok first) (hfeed : first.feed text = .waiting m)
    (hpreceding : m.preceding = .nothing ∨ m.preceding = .opening ∨ m.preceding = .operator) :
    m.feed ('(' :: e.text ++ [')']) = .waiting
      { operators := m.operators
        operands := ⟨e.value :: m.operands.items, none⟩
        literal := .empty
        preceding := .closing
        column := m.column + ('(' :: e.text ++ [')']).length
        log := ((group e).records m.column m.top).reverse ++ m.log } := by
  have hends : m.preceding.endsOperand = false := by
    rcases hpreceding with h | h | h <;> rw [h] <;> rfl
  have hready := (Machine.behind_of_feed hstart hfeed).ready
    (Machine.valued_of_feed hstart hfeed) hends
  obtain ⟨next, hnext, hholds, hclosing⟩ := hready.group (e.records · ·) e.yields
  have hoperands : next.operands = ⟨e.value :: m.operands.items, none⟩ := by
    rw [hholds.operands, Stack.cover, hready.operandRoom]
    rfl
  have hlog : next.log = ((group e).records m.column m.top).reverse ++ m.log := hholds.log
  rw [hnext, ← hoperands, ← hholds.operators, ← hholds.literal, ← hclosing, ← hholds.column,
    ← hlog]

/-- A group behind a multiplication that lacks its left operand, which is noticed later only. -/
theorem group_behind_missing_operand :
    ∃ first m next : Machine Float, Machine.start none = .ok first ∧
      first.feed ['1', '+', '(', '*'] = .waiting m ∧ m.preceding = .operator ∧
      m.feed ['(', '-', '1', '*', '-', '2', ')'] = .waiting next ∧
      next.operators = m.operators ∧
      next.operands.items = Phrase.productWithSigns.value :: m.operands.items ∧
      next.literal = .empty ∧ next.preceding = .closing ∧ next.column = m.column + 7 := by
  obtain ⟨first, m, hstart, hfeed, hpreceding⟩ : ∃ first m : Machine Float,
      Machine.start none = .ok first ∧ first.feed ['1', '+', '(', '*'] = .waiting m ∧
      m.preceding = .operator := ⟨_, _, rfl, rfl, rfl⟩
  have hgroup := Phrase.productWithSigns.group_isolated hstart hfeed (.inr (.inr hpreceding))
  exact ⟨first, m, _, hstart, hfeed, hpreceding, hgroup, rfl, rfl, rfl, rfl, rfl⟩

end OperatorPrecedence
