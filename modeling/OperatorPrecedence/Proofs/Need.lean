import OperatorPrecedence.Proofs.Capacity
import OperatorPrecedence.Proofs.PostOrder

/-!
# The capacity that an expression needs

A log tells how many operators are on the stack, and how many have been there at most.  For an
expression without a limit this is the need of its derivation tree, counted from the mark at the
bottom.  A smaller capacity stops the evaluation, and with a larger one nothing is different.

## Main definitions

* `held`, `mostHeld` — how many operators a log leaves on the stack, and the most there have been.
* `Machine.Counted` — a machine with as many operators as its log tells of.

## Main results

* `Phrase.held_records`, `Phrase.mostHeld_records` — what the records of a phrase hold.
* `Machine.Turn.counted`, `Machine.GoesOn.counted` — the moves of the machine are counted.
* `Pushed.size_le_mostHeld` — no push makes the stack longer than the log tells.
* `Phrase.evaluation_ok_iff_need_le` — **the capacity that an expression needs**.
-/

namespace OperatorPrecedence

variable {ν : Type}

/-! ### What a log tells of the operator stack -/

/-- How many operators there are behind an event, if there are `n` in front of it. -/
def Event.operatorsAfter (n : Nat) : Event ν → Nat
  | .push _ _ => n + 1
  | .close _ _ | .fold _ _ _ _ => n - 1
  | .commit _ | .evaluated _ => n

/-- How many operators a log leaves on the stack, the latest record first: the mark at the bottom
is there from the start. -/
def held : List (Record ν) → Nat
  | [] => 1
  | r :: log => r.event.operatorsAfter (held log)

/-- The most operators that a log tells of at a time, the latest record first. -/
def mostHeld : List (Record ν) → Nat
  | [] => 1
  | r :: log => max (mostHeld log) (held (r :: log))

theorem held_le_mostHeld (log : List (Record ν)) : held log ≤ mostHeld log := by
  cases log with
  | nil => exact Nat.le_refl 1
  | cons r log => exact Nat.le_max_right _ _

/-- What a log holds is never more than a longer log tells of. -/
theorem held_le_of_suffix {log later : List (Record ν)} (h : log <:+ later) :
    held log ≤ mostHeld later := by
  obtain ⟨before, rfl⟩ := h
  induction before with
  | nil => exact held_le_mostHeld log
  | cons r before ih => exact Nat.le_trans ih (Nat.le_max_left _ _)

namespace Phrase

variable {r : Rank}

/-- What is held when a phrase begins is needed for it. -/
theorem le_need (p : Phrase r) (base : Nat) : base ≤ p.need base := by
  induction p generalizing base with
  | literal text nonempty numeric => exact Nat.le_refl base
  | factor p ih | term p ih | leading p ih | plain p ih | expression p ih => exact ih base
  | group e ih | sign op additive e ih | signed op additive e ih =>
    exact Nat.le_of_succ_le (ih (base + 1))
  | product t op kind f iht ihf | leadingProduct t op kind f iht ihf | sum t op kind f iht ihf =>
    exact Nat.le_trans (iht base) (Nat.le_max_left _ _)

variable [Numbers ν]

/-- The records of a phrase leave as many operators as there were. -/
theorem held_records (p : Phrase r) (n : Nat) (top : Operator) (log : List (Record ν)) :
    held ((p.records n top).reverse ++ log) = held log := by
  induction p generalizing n top log with
  | literal text nonempty numeric => rfl
  | factor p ih | term p ih | leading p ih | plain p ih | expression p ih => exact ih n top log
  | group e ih | sign op additive e ih | signed op additive e ih =>
    simp [records, foldEvent, held, Event.operatorsAfter, ih]
  | product t op kind f iht ihf | leadingProduct t op kind f iht ihf | sum t op kind f iht ihf =>
    simp [records, foldEvent, held, Event.operatorsAfter, iht, ihf]

/-- **The most that the records of a phrase hold is its need**, counted from what is held when it
begins. -/
theorem mostHeld_records (p : Phrase r) (n : Nat) (top : Operator) (log : List (Record ν)) :
    mostHeld ((p.records n top).reverse ++ log) = max (mostHeld log) (p.need (held log)) := by
  induction p generalizing n top log with
  | literal text nonempty numeric => rfl
  | factor p ih | term p ih | leading p ih | plain p ih | expression p ih => exact ih n top log
  | group e ih | sign op additive e ih | signed op additive e ih =>
    have hneed := e.le_need (held log + 1)
    simp [records, foldEvent, need, mostHeld, held, Event.operatorsAfter, held_records, ih]
    omega
  | product t op kind f iht ihf | leadingProduct t op kind f iht ihf | sum t op kind f iht ihf =>
    have hleft := t.le_need (held log)
    have hright := f.le_need (held log + 1)
    simp [records, foldEvent, need, mostHeld, held, Event.operatorsAfter, held_records, iht, ihf]
    omega

/-- The most that is held during the evaluation of an expression is its need, counted from the
mark at the bottom. -/
theorem mostHeld_evaluation (e : Phrase .expression) (rest : List Char) :
    mostHeld (evaluation none (e.text ++ '=' :: rest) : Report ν).log.reverse = e.need 1 := by
  have hneed := e.le_need 1
  have hheld := e.held_records (ν := ν) 0 .terminator []
  have hmost := e.mostHeld_records (ν := ν) 0 .terminator []
  rw [List.append_nil] at hheld hmost
  rw [evaluation_eq, List.reverse_append, List.reverse_singleton, List.singleton_append, mostHeld,
    held, Event.operatorsAfter, hheld, hmost]
  simp only [mostHeld, held]
  omega

end Phrase

/-! ### What a machine holds -/

namespace Machine

/-- **A machine with as many operators as its log tells of**, which never had more than its
capacity allows. -/
structure Counted (m : Machine ν) : Prop where
  /-- There are as many operators as the log leaves. -/
  held : held m.log = m.operators.size
  /-- There were never more than the stack can hold. -/
  within : ∀ c, m.operators.capacity = some c → mostHeld m.log ≤ c

/-- What is recorded of a change to the operators is how it is counted. -/
theorem Counted.recorded {m next : Machine ν} (h : m.Counted) {column : Nat} {event : Event ν}
    (hlog : next.log = ⟨column, event⟩ :: m.log)
    (hcapacity : next.operators.capacity = m.operators.capacity)
    (hsize : next.operators.size = event.operatorsAfter m.operators.size) : next.Counted := by
  have hheld : OperatorPrecedence.held next.log = next.operators.size := by
    rw [hlog, hsize, ← h.held]
    rfl
  refine ⟨hheld, ?_⟩
  intro c hc
  have hbefore := h.within c (hcapacity.symm.trans hc)
  have hfits := Stack.size_le_capacity hc
  rw [← hheld, hlog] at hfits
  rw [hlog]
  exact Nat.max_le.mpr ⟨hbefore, hfits⟩

variable [Numbers ν]

/-- At every turn the operators are counted. -/
theorem Turn.counted {m n : Machine ν} {op incoming : Operator} (h : Turn m op incoming n)
    (hm : m.Counted) : n.Counted := by
  refine h.preserves hm ?_ ?_ ?_
  · intro _
    exact hm.recorded rfl rfl rfl
  · intro k hk
    exact ⟨hk.held, hk.within⟩
  · intro k top rest operation left right hitems hoperation hk
    refine hk.recorded rfl (Stack.capacity_uncover hitems) ?_
    show k.operators.items.tail.length = k.operators.items.length - 1
    exact List.length_tail

/-- Every character by which a machine goes on is counted. -/
theorem GoesOn.counted {m next : Machine ν} {c : Char} (h : m.GoesOn c next) (hm : m.Counted) :
    next.Counted := by
  have hadvanced : m.advanced.Counted := ⟨hm.held, hm.within⟩
  cases h with
  | gathered numeric apart => exact ⟨hm.held, hm.within⟩
  | pushed stands operator turn items looser room =>
    exact (turn.counted hadvanced).recorded rfl (Stack.capacity_cover room _) rfl
  | @closed n token op rest stands operator turn items =>
    refine (turn.counted hadvanced).recorded rfl (Stack.capacity_uncover items) ?_
    show n.operators.items.tail.length = n.operators.items.length - 1
    exact List.length_tail

/-- At the start there is the mark at the bottom. -/
theorem counted_of_start {capacity : Option Nat} {first : Machine ν}
    (hstart : start capacity = .ok first) : first.Counted := by
  obtain rfl := eq_of_start hstart
  refine ⟨rfl, ?_⟩
  intro c hc
  exact Stack.size_le_capacity hc

/-- The operators of a machine that has read a text are counted. -/
theorem counted_of_feed {capacity : Option Nat} {text : List Char} {first m : Machine ν}
    (hstart : start capacity = .ok first) (hfeed : first.feed text = .waiting m) : m.Counted :=
  (behind_of_start hstart).feed_induction (P := fun _ m => m.Counted)
    (fun _ hm hgoes => hgoes.counted hm) (counted_of_start hstart) hfeed

end Machine

/-! ### The capacity that an expression needs -/

variable [Numbers ν]

/-- No push makes the operator stack longer than the log of the evaluation tells. -/
theorem Pushed.size_le_mostHeld {source : List Char} {column : Nat} {op top : Operator}
    {n : Machine ν} (h : Pushed source column op top n) :
    (n.withPush op top).operators.size ≤
      mostHeld (evaluation none source : Report ν).log.reverse := by
  have hbegins := h.log_begins
  rw [← h.column_eq] at hbegins
  obtain ⟨text, rest, c, first, hsource, hcolumn, hstart, hnext⟩ := h.exists_reading
  rw [← (Machine.counted_of_feed hstart hnext).held]
  refine held_le_of_suffix (List.reverse_prefix.mp ?_)
  rw [List.reverse_reverse]
  show (⟨n.column, .push op top⟩ :: n.log).reverse <+: _
  rw [List.reverse_cons]
  exact hbegins

/-- An evaluation within a capacity that arrives at a value tells of no more operators than the
capacity allows. -/
theorem mostHeld_le_of_ok {c : Nat} {source : List Char} {value : ν}
    (h : (evaluation (some c) source : Report ν).result = .ok value) :
    mostHeld (evaluation (some c) source : Report ν).log.reverse ≤ c := by
  rcases Machine.start_spec (ν := ν) (some c) with
    ⟨first, hstart, -⟩ | ⟨-, verdict, hstart, hresult, -⟩
  · rw [evaluation_of_start hstart] at h ⊢
    cases hfeed : first.feed source with
    | waiting last => rw [hfeed] at h; cases h
    | stopped verdict unread =>
      rw [hfeed] at h
      obtain ⟨read, d, last, hsource, hlast, hstop⟩ := Machine.exists_of_feed_stopped hfeed
      have hbehind := Machine.behind_of_feed hstart hlast
      obtain ⟨op, n, rest, turn, -, -, hlog⟩ := hbehind.arrives hstop h
      have hlast := Machine.counted_of_feed hstart hlast
      have hcounted : (n.record (.evaluated value)).Counted :=
        (turn.counted ⟨hlast.held, hlast.within⟩).recorded rfl rfl rfl
      show mostHeld verdict.log.reverse.reverse ≤ c
      rw [List.reverse_reverse, hlog]
      exact hcounted.within c (turn.operatorCapacity.trans hbehind.operatorCapacity)
  · rw [evaluation, hstart] at h
    cases hresult.symm.trans h

/-- **The capacity that an expression needs.**  Its text has a value within a capacity if and only
if that is no less than the need of the expression, counted from the mark at the bottom of the
operator stack.  Then the evaluation is the one without a limit; otherwise there is no room for
some operator. -/
theorem Phrase.evaluation_ok_iff_need_le (e : Phrase .expression) (c : Nat) (rest : List Char) :
    let source := e.text ++ '=' :: rest
    let report : Report ν := evaluation (some c) source
    ((∃ value, report.result = .ok value) ↔ e.need 1 ≤ c) ∧
    (e.need 1 ≤ c → report = evaluation none source ∧ report.result = .ok e.value) ∧
    (c < e.need 1 → ∃ column, report.result = .error ⟨column, .stackOverflow .operator c⟩) := by
  intro source report
  have hunlimited : (evaluation none source : Report ν).result = .ok e.value := by
    rw [e.evaluation_eq rest]
  have hmost : mostHeld (evaluation none source : Report ν).log.reverse = e.need 1 :=
    e.mostHeld_evaluation rest
  have henough : e.need 1 ≤ c → report = evaluation none source := by
    intro hneed
    have hc : 1 ≤ c := Nat.le_trans (e.le_need 1) hneed
    rcases evaluation_within (ν := ν) hc source with ⟨hsame, -⟩ | ⟨column, op, top, n, h, -⟩
    · exact hsame
    · have hsize := h.pushed.size_le_mostHeld
      have hbeyond := h.beyond
      omega
  have hshort : c < e.need 1 →
      ∃ column, report.result = .error ⟨column, .stackOverflow .operator c⟩ := by
    intro hneed
    rcases Nat.eq_zero_or_pos c with rfl | hc
    · exact ⟨0, rfl⟩
    · rcases evaluation_within (ν := ν) hc source with ⟨hsame, -⟩ | ⟨column, op, top, n, -, h⟩
      · have hfits := mostHeld_le_of_ok ((congrArg Report.result hsame).trans hunlimited)
        rw [hsame] at hfits
        omega
      · exact ⟨column, congrArg Report.result h⟩
  refine ⟨⟨?_, ?_⟩, ?_, hshort⟩
  · rintro ⟨value, hvalue⟩
    by_contra hneed
    obtain ⟨column, hcolumn⟩ := hshort (by omega)
    cases hvalue.symm.trans hcolumn
  · intro hneed
    exact ⟨e.value, by rw [henough hneed, hunlimited]⟩
  · intro hneed
    exact ⟨henough hneed, by rw [henough hneed, hunlimited]⟩

/-- In `-1*-2` the product waits on the sign at the start, and the sign of the factor on the
product, so that with the mark at the bottom there are four operators. -/
theorem evaluation_of_product_with_signs_within :
    let source := ['-', '1', '*', '-', '2', '=']
    (evaluation (some 4) source : Report Float) = evaluation none source ∧
    ∃ column, (evaluation (some 3) source : Report Float).result =
      .error ⟨column, .stackOverflow .operator 3⟩ := by
  refine ⟨?_, ?_⟩
  · exact ((Phrase.evaluation_ok_iff_need_le .productWithSigns 4 []).2.1 (by decide)).1
  · exact (Phrase.evaluation_ok_iff_need_le .productWithSigns 3 []).2.2 (by decide)

end OperatorPrecedence
