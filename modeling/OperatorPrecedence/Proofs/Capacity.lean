import OperatorPrecedence.Proofs.Turns

/-!
# Evaluating within a capacity

A capacity changes nothing but the end.  A machine on limited stacks does what one on stacks
without a limit does, move by move, up to the first operator for which it has no room; that
push it still records, and there it stops.

## Main definitions

* `Machine.unlimited` — the machine on the same stacks without a limit.
* `Machine.Pushes` — a machine comes to push an operator when it reads a character.
* `Pushed` — an operator that an evaluation without a limit pushes.
* `FirstBeyond` — the first such push for which a capacity has no room.

## Main results

* `Machine.Behind.step_unlimited` — reading a character is the same without a limit, or there
  is no room for an operator.
* `evaluation_limited` — **an evaluation within a capacity is the one without a limit, cut off
  at the first operator for which there is no room**.
-/

namespace OperatorPrecedence

variable {ν : Type}

/-! ### Lifting the limit -/

namespace Stack

variable {α : Type}

/-- The stack with the same entries and no limit. -/
def unlimited (s : Stack α) : Stack α := ⟨s.items, none⟩

theorem room_unlimited (s : Stack α) : s.unlimited.room ≠ some 0 := by
  show none ≠ some 0
  simp

theorem room_ne_zero_of_capacity {s : Stack α} (h : s.capacity = none) : s.room ≠ some 0 := by
  intro hroom
  cases h.symm.trans (capacity_of_full hroom)

end Stack

namespace Machine

/-- The machine on the same stacks without a limit. -/
def unlimited (m : Machine ν) : Machine ν :=
  { m with operators := m.operators.unlimited, operands := m.operands.unlimited }

theorem checkPlace_unlimited (m : Machine ν) (op : Operator) :
    m.unlimited.checkPlace op = m.checkPlace op := rfl

theorem deliver_unlimited (m : Machine ν) {α : Type} :
    (m.unlimited.deliver : Except (Verdict ν) α) = m.deliver := by
  unfold deliver
  cases hoperands : m.operands.items with
  | nil =>
    rw [takeOperand_of_nil hoperands, takeOperand_of_nil (m := m.unlimited) hoperands]
    rfl
  | cons value below =>
    rw [takeOperand_of_cons hoperands, takeOperand_of_cons (m := m.unlimited) hoperands]
    rfl

variable [Numbers ν]

theorem commitLiteral_unlimited {m next : Machine ν} (h : m.commitLiteral = .ok next) :
    m.unlimited.commitLiteral = .ok next.unlimited := by
  rcases eq_of_commitLiteral h with ⟨hempty, rfl⟩ | ⟨hliteral, rfl⟩
  · exact commitLiteral_of_isEmpty hempty
  · exact commitLiteral_eq hliteral m.operands.room_unlimited

theorem interpret_unlimited {m next : Machine ν} {op incoming : Operator}
    (h : m.interpret op = .ok (incoming, next)) :
    m.unlimited.interpret op = .ok (incoming, next.unlimited) := by
  have hput : ∀ meaning : Operator,
      (do return (meaning, ← m.putOperand Numbers.zero)) = Except.ok (incoming, next) →
        (do return (meaning, ← m.unlimited.putOperand Numbers.zero)) =
          Except.ok (incoming, next.unlimited) := by
    intro meaning hmeaning
    cases hnext : m.putOperand Numbers.zero with
    | error verdict => rw [hnext] at hmeaning; cases hmeaning
    | ok supplied =>
      rw [hnext] at hmeaning
      cases hmeaning
      obtain ⟨-, rfl⟩ := putOperand_eq_ok_iff.mp hnext
      rw [putOperand_eq m.operands.room_unlimited]
      rfl
  cases op with
  | binary operation =>
    cases hadditive : operation.isAdditive with
    | false =>
      rw [interpret_of_not_additive m hadditive] at h
      cases h
      exact interpret_of_not_additive _ hadditive
    | true =>
      have hunlimited : m.unlimited.preceding = m.preceding := rfl
      unfold interpret at h ⊢
      rw [hunlimited]
      simp only [hadditive] at h ⊢
      cases hp : m.preceding with
      | operand | closing =>
        rw [hp] at h
        cases h
        rfl
      | nothing | opening | operator =>
        rw [hp] at h
        exact hput _ h
  | _ =>
    cases h
    rfl

theorem applyTop_unlimited {m next : Machine ν} (h : m.applyTop = .ok next) :
    m.unlimited.applyTop = .ok next.unlimited := by
  obtain ⟨op, rest, operation, right, left, below, hitems, hoperation, hoperands, rfl⟩ :=
    eq_folded_of_applyTop h
  exact applyTop_eq hitems hoperation hoperands

/-- The turns are the same without a limit. -/
theorem Turn.unlimited {m n : Machine ν} {op incoming : Operator} (h : Turn m op incoming n) :
    Turn m.unlimited op incoming n.unlimited := by
  induction h with
  | first commit meaning placed =>
    exact .first (commitLiteral_unlimited commit) (interpret_unlimited meaning) placed
  | again turn items tighter apply ih => exact .again ih items tighter (applyTop_unlimited apply)

/-- Accepting an operator comes to the same without a limit, unless there is no room for it. -/
theorem Accepts.unlimited {m : Machine ν} {op : Operator}
    {outcome : Except (Verdict ν) (Machine ν)} (h : Accepts m op outcome) :
    m.unlimited.accept op = outcome.map Machine.unlimited ∨
      ∃ incoming n top rest, Turn m op incoming n ∧ n.operators.items = top :: rest ∧
        top.binding? incoming = some .looser ∧ n.operators.room = some 0 := by
  cases h with
  | @refused committed n incoming cause commit meaning misplaced =>
    left
    rw [accept_eq_of_commit (commitLiteral_unlimited commit), interpret_unlimited meaning]
    show (n.unlimited.checkPlace incoming >>= fun _ => n.unlimited.settle incoming) = _
    rw [checkPlace_unlimited, misplaced]
    rfl
  | @starved n incoming top rest turn items tighter short =>
    left
    rw [turn.unlimited.accept_eq, settle_of_tighter (m := n.unlimited) items tighter,
      applyTop_of_short (m := n.unlimited) items short]
    rfl
  | @pushed n incoming top rest turn items looser room =>
    left
    rw [turn.unlimited.accept_eq, settle_of_not_tighter (m := n.unlimited) items (by simp [looser]),
      enter_of_looser (m := n.unlimited) items looser n.operators.room_unlimited]
    rfl
  | @full n incoming top rest turn items looser room =>
    exact .inr ⟨incoming, n, top, rest, turn, items, looser, room⟩
  | @closed n rest turn items =>
    left
    rw [turn.unlimited.accept_eq, settle_of_not_tighter (m := n.unlimited) items (by decide),
      enter_closing (m := n.unlimited) items]
    rfl
  | @delivered n rest turn items =>
    left
    rw [turn.unlimited.accept_eq, settle_of_not_tighter (m := n.unlimited) items (by decide),
      enter_terminator_eq_deliver (m := n.unlimited) items, deliver_unlimited]
    obtain ⟨verdict, -, hverdict⟩ := n.exists_deliver
    rw [hverdict]
    rfl
  | @unplaceable n incoming top rest turn items unrelated =>
    left
    rw [turn.unlimited.accept_eq,
      settle_of_not_tighter (m := n.unlimited) items (by simp [unrelated]),
      enter_of_none (m := n.unlimited) items unrelated]
    rfl

/-! ### Pushes -/

/-- **A machine comes to push an operator** when it reads a character: this is what the
character means, and at the machine `n`, once the tighter ones have been applied, a looser one
is on top. -/
inductive Pushes (m : Machine ν) (c : Char) (op top : Operator) (n : Machine ν) : Prop
  | intro {token : Token} {read : Operator} {rest : List Operator}
      (stands : Token.ofChar? c = some token) (operator : token.operator? = some read)
      (turn : Turn m.advanced read op n) (items : n.operators.items = top :: rest)
      (looser : top.binding? op = some .looser) : Pushes m c op top n

namespace Pushes

variable {m n : Machine ν} {c : Char} {op top : Operator}

theorem unlimited (h : Pushes m c op top n) : Pushes m.unlimited c op top n.unlimited := by
  obtain ⟨stands, operator, turn, items, looser⟩ := h
  exact ⟨stands, operator, turn.unlimited, items, looser⟩

theorem column_eq (h : Pushes m c op top n) : n.column = m.column + 1 := by
  obtain ⟨-, -, turn, -, -⟩ := h
  exact turn.column_eq

theorem operatorCapacity (h : Pushes m c op top n) :
    n.operators.capacity = m.operators.capacity := by
  obtain ⟨-, -, turn, -, -⟩ := h
  exact turn.operatorCapacity

theorem step_eq (h : Pushes m c op top n) : m.step c = n.enter op := by
  obtain ⟨stands, operator, turn, items, looser⟩ := h
  rw [step_of_token m stands operator, turn.accept_eq]
  exact settle_of_not_tighter items (by simp [looser])

theorem step_of_room (h : Pushes m c op top n) (hroom : n.operators.room ≠ some 0) :
    m.step c = .ok (n.withPush op top) := by
  rw [h.step_eq]
  obtain ⟨-, -, -, items, looser⟩ := h
  exact enter_of_looser items looser hroom

theorem step_of_full (h : Pushes m c op top n) (hroom : n.operators.room = some 0) :
    m.step c =
      (n.record (.push op top)).fail (.stackOverflow .operator n.operators.size) := by
  rw [h.step_eq]
  obtain ⟨-, -, -, items, looser⟩ := h
  exact enter_of_full items looser hroom

end Pushes

/-! ### Reading without a limit -/

namespace Behind

variable {capacity : Option Nat} {text : List Char} {m : Machine ν}

/-- **Reading a character comes to the same without a limit**, unless an operator is to be
pushed for which there is no room. -/
theorem step_unlimited (h : Behind capacity text m) (c : Char) :
    m.unlimited.step c = (m.step c).map unlimited ∨
      ∃ op top n, m.Pushes c op top n ∧ n.operators.room = some 0 := by
  rcases step_cases (ν := ν) c with hforeign | ⟨-, hnumeric⟩ | ⟨token, op, htoken, hoperator⟩
  · left
    rw [hforeign, hforeign]
    rfl
  · left
    rw [hnumeric, hnumeric]
    unfold gather
    by_cases hclosing : m.preceding = .closing
    · rw [if_pos (by exact hclosing), if_pos (by exact hclosing)]
      rfl
    · rw [if_neg (by exact hclosing), if_neg (by exact hclosing)]
      rfl
  · rcases (h.accepts op).unlimited with
      hsame | ⟨incoming, n, top, rest, turn, items, looser, hroom⟩
    · left
      rw [step_of_token m htoken hoperator, step_of_token m.unlimited htoken hoperator]
      exact hsame
    · exact .inr ⟨incoming, top, n, ⟨htoken, hoperator, turn, items, looser⟩, hroom⟩

/-- Without a limit a machine has no less to read. -/
theorem feed_unlimited (h : Behind capacity text m) {read : List Char} {next : Machine ν}
    (hfeed : m.feed read = .waiting next) : m.unlimited.feed read = .waiting next.unlimited := by
  induction read generalizing m text with
  | nil =>
    cases hfeed
    rfl
  | cons c read ih =>
    have hreads := h.step c
    rw [feed] at hfeed
    cases hstep : m.step c with
    | error verdict => rw [hstep] at hfeed; cases hfeed
    | ok onward =>
      rw [hstep] at hfeed hreads
      rcases h.step_unlimited c with hsame | ⟨op, top, n, hpushes, hroom⟩
      · rw [hstep] at hsame
        rw [feed, hsame]
        cases hreads with
        | onward behind => exact ih behind hfeed
      · rw [hpushes.step_of_full hroom] at hstep
        cases hstep

end Behind

/-! ### Pieces of a reading -/

theorem feed_singleton (m : Machine ν) {c : Char} {next : Machine ν} (h : m.step c = .ok next) :
    m.feed [c] = .waiting next := by
  rw [feed, h]
  rfl

theorem feed_of_append {m mid : Machine ν} {p : List Char} (h : m.feed p = .waiting mid)
    (q : List Char) : m.feed (p ++ q) = mid.feed q := by
  rw [feed_append, h]

/-- A machine that waits for more has waited for each of the characters it was fed. -/
theorem exists_waiting_of_begins {m last : Machine ν} {p text : List Char} (hbegins : p <+: text)
    (h : m.feed text = .waiting last) : ∃ mid, m.feed p = .waiting mid := by
  obtain ⟨q, rfl⟩ := hbegins
  rw [feed_append] at h
  cases hp : m.feed p with
  | waiting mid => exact ⟨mid, rfl⟩
  | stopped verdict unread => rw [hp] at h; cases h

end Machine

/-! ### Evaluations within a capacity -/

variable [Numbers ν]

/-- **A push of the evaluation of a source without a limit**: the column of the character that
gives rise to it, the operator, the top that it goes on, and the machine that pushes it. -/
inductive Pushed (source : List Char) : Nat → Operator → Operator → Machine ν → Prop
  | intro {text rest : List Char} {c : Char} {first m n : Machine ν} {op top : Operator}
      (source_eq : source = text ++ c :: rest) (start : Machine.start none = .ok first)
      (feed : first.feed text = .waiting m) (pushes : m.Pushes c op top n) :
      Pushed source (text.length + 1) op top n

/-- A stack that holds one entry can hold the mark at its bottom. -/
theorem Machine.exists_start_unlimited {c : Nat} (h : 1 ≤ c) :
    ∃ first : Machine ν, start (some c) = .ok first ∧ start none = .ok first.unlimited := by
  cases c with
  | zero => omega
  | succ c => exact ⟨_, rfl, rfl⟩

namespace Pushed

variable {source : List Char} {column : Nat} {op top : Operator} {n : Machine ν}

/-- What is pushed is on the stack of a machine that goes on, and at the end of its log. -/
theorem exists_reading (h : Pushed source column op top n) :
    ∃ text rest c, ∃ first : Machine ν, source = text ++ c :: rest ∧ column = text.length + 1 ∧
      Machine.start none = .ok first ∧ first.feed (text ++ [c]) = .waiting (n.withPush op top) := by
  obtain ⟨source_eq, start, feed, pushes⟩ := h
  refine ⟨_, _, _, _, source_eq, rfl, start, ?_⟩
  have hbehind := Machine.behind_of_feed start feed
  have hcapacity := pushes.operatorCapacity.trans hbehind.operatorCapacity
  rw [Machine.feed_of_append feed]
  exact Machine.feed_singleton _ (pushes.step_of_room (Stack.room_ne_zero_of_capacity hcapacity))

theorem column_le (h : Pushed source column op top n) : column ≤ source.length := by
  obtain ⟨text, rest, c, first, rfl, rfl, -, -⟩ := h.exists_reading
  simp only [List.length_append, List.length_cons]
  omega

theorem column_eq (h : Pushed source column op top n) : n.column = column := by
  obtain ⟨-, start, feed, pushes⟩ := h
  rw [pushes.column_eq, (Machine.behind_of_feed start feed).column]

/-- The log of the evaluation tells of what is pushed. -/
theorem log_begins (h : Pushed source column op top n) :
    n.log.reverse ++ [⟨column, .push op top⟩] <+: (evaluation none source : Report ν).log := by
  obtain ⟨text, rest, c, first, hsource, -, hstart, hnext⟩ := h.exists_reading
  have hgrows := (Machine.behind_of_feed hstart hnext).log_begins rest
  rw [← Machine.feed_of_append hnext, ← evaluation_of_start hstart, ← List.append_cons, ← hsource]
    at hgrows
  rw [← h.column_eq, ← List.reverse_cons]
  exact hgrows

/-- As long as the machine within a capacity waits for more, what is pushed without a limit has
room within it. -/
theorem size_le_of_waiting (h : Pushed source column op top n) {c : Nat} {first last : Machine ν}
    (hstart : Machine.start (some c) = .ok first)
    (hunlimited : Machine.start none = .ok first.unlimited) {read rest : List Char}
    (hsource : source = read ++ rest) (hfeed : first.feed read = .waiting last)
    (hcolumn : column ≤ read.length) : (n.withPush op top).operators.size ≤ c := by
  obtain ⟨text, after, d, begun, hsplit, rfl, hbegun, hnext⟩ := h.exists_reading
  cases hunlimited.symm.trans hbegun
  have hbegins : text ++ [d] <+: read := by
    have htext : text ++ [d] <+: source := ⟨after, by simp [hsplit]⟩
    refine List.prefix_of_prefix_length_le htext ⟨rest, hsource.symm⟩ ?_
    simpa using hcolumn
  obtain ⟨mid, hmid⟩ := Machine.exists_waiting_of_begins hbegins hfeed
  have hbehind := Machine.behind_of_feed hstart hmid
  have hsame : mid.unlimited = n.withPush op top := by
    have hboth := (Machine.behind_of_start hstart).feed_unlimited hmid
    exact Progress.waiting.inj (hboth.symm.trans hnext)
  rw [← hsame]
  show mid.operators.size ≤ c
  exact Stack.size_le_capacity hbehind.operatorCapacity

end Pushed

/-- **The first push for which a capacity has no room**, in the evaluation without a limit. -/
structure FirstBeyond (c : Nat) (source : List Char) (column : Nat) (op top : Operator)
    (n : Machine ν) : Prop where
  pushed : Pushed source column op top n
  /-- The push makes the operator stack longer than the capacity. -/
  beyond : c < (n.withPush op top).operators.size
  /-- No push of an earlier column does. -/
  first : ∀ earlier op' top' (n' : Machine ν), Pushed source earlier op' top' n' →
    earlier < column → (n'.withPush op' top').operators.size ≤ c

/-- Within a capacity an evaluation either has room for everything that is pushed without a
limit, and is the same, or it stops at the first push for which it has none. -/
theorem evaluation_within {c : Nat} (hc : 1 ≤ c) (source : List Char) :
    ((evaluation (some c) source : Report ν) = evaluation none source ∧
      ∀ column op top (n : Machine ν), Pushed source column op top n →
        (n.withPush op top).operators.size ≤ c) ∨
    ∃ column op top, ∃ n : Machine ν, FirstBeyond c source column op top n ∧
      evaluation (some c) source =
        ⟨.error ⟨column, .stackOverflow .operator c⟩, n.log.reverse ++ [⟨column, .push op top⟩],
          source.drop column, false⟩ := by
  obtain ⟨first, hstart, hunlimited⟩ := Machine.exists_start_unlimited (ν := ν) hc
  have hfirst := Machine.behind_of_start hstart
  cases hfeed : first.feed source with
  | waiting last =>
    left
    rw [evaluation_of_start hstart, evaluation_of_start hunlimited, hfeed,
      hfirst.feed_unlimited hfeed]
    refine ⟨rfl, ?_⟩
    intro column op top n h
    exact h.size_le_of_waiting hstart hunlimited (List.append_nil source).symm hfeed h.column_le
  | stopped verdict unread =>
    obtain ⟨read, d, last, hsource, hlast, hstop⟩ := Machine.exists_of_feed_stopped hfeed
    have hread := hfirst.feed_unlimited hlast
    have hbehind := Machine.behind_of_feed hstart hlast
    rcases hbehind.step_unlimited d with hsame | ⟨op, top, n, hpushes, hroom⟩
    · left
      rw [hstop] at hsame
      have hstopped : ∀ rest, first.unlimited.feed (read ++ d :: rest) = .stopped verdict rest := by
        intro rest
        rw [Machine.feed_of_append hread, Machine.feed, hsame]
        rfl
      rw [evaluation_of_start hstart, evaluation_of_start hunlimited, hfeed, hsource, hstopped]
      refine ⟨rfl, ?_⟩
      intro column op top n h
      refine h.size_le_of_waiting hstart hunlimited rfl hlast ?_
      -- behind the character that stops the machine there are no pushes
      rcases Nat.lt_or_ge read.length column with hlt | hle
      · obtain ⟨text, after, e, begun, hsplit, rfl, hbegun, hnext⟩ := h.exists_reading
        cases hunlimited.symm.trans hbegun
        have hbegins : read ++ [d] <+: text ++ [e] := by
          have hread : read ++ [d] <+: read ++ d :: unread := ⟨unread, by simp⟩
          refine List.prefix_of_prefix_length_le hread ⟨after, by simp [hsplit]⟩ ?_
          simpa using Nat.lt_succ_iff.mp hlt
        obtain ⟨mid, hmid⟩ := Machine.exists_waiting_of_begins hbegins hnext
        cases hmid.symm.trans (hstopped [])
      · exact hle
    · right
      have hpushed : Pushed source (read.length + 1) op top n.unlimited :=
        .intro hsource hunlimited hread hpushes.unlimited
      have hcolumn : n.column = read.length + 1 := by rw [hpushes.column_eq, hbehind.column]
      have hsize : n.operators.size = c := by
        have hcapacity := hpushes.operatorCapacity.trans hbehind.operatorCapacity
        rw [Stack.capacity_of_full hroom] at hcapacity
        exact Option.some.inj hcapacity
      refine ⟨read.length + 1, op, top, n.unlimited, ⟨hpushed, ?_, ?_⟩, ?_⟩
      · show c < n.operators.size + 1
        omega
      · intro earlier op' top' n' h hlt
        exact h.size_le_of_waiting hstart hunlimited hsource hlast (Nat.lt_succ_iff.mp hlt)
      · rw [hpushes.step_of_full hroom] at hstop
        cases hstop
        rw [evaluation_of_start hstart, hfeed]
        show Report.mk (.error ⟨n.column, .stackOverflow .operator n.operators.size⟩)
          (⟨n.column, .push op top⟩ :: n.log).reverse unread false = _
        rw [hsize, hcolumn, List.reverse_cons, hsource]
        simp [Machine.unlimited]

/-- **An evaluation within a capacity is the one without a limit, cut off at the first operator
for which there is no room.**  With no capacity at all not even the mark at the bottom of the
operator stack has room.  Otherwise, if nothing that is pushed without a limit makes the operator
stack longer than the capacity, the report is the same; and if something does, the evaluation stops
at the first such push, with the log up to and including it.  So a larger capacity changes nothing
but a stack overflow. -/
theorem evaluation_limited (c : Nat) (source : List Char) :
    (c = 0 → (evaluation (some c) source : Report ν) =
      ⟨.error ⟨0, .stackOverflow .operator c⟩, [], source, false⟩) ∧
    (1 ≤ c →
      (∀ column op top (n : Machine ν), Pushed source column op top n →
        (n.withPush op top).operators.size ≤ c) →
      (evaluation (some c) source : Report ν) = evaluation none source) ∧
    (1 ≤ c →
      (∃ column op top, ∃ n : Machine ν, Pushed source column op top n ∧
        c < (n.withPush op top).operators.size) →
      ∃ column op top, ∃ n : Machine ν, FirstBeyond c source column op top n ∧
        evaluation (some c) source =
          ⟨.error ⟨column, .stackOverflow .operator c⟩, n.log.reverse ++ [⟨column, .push op top⟩],
            source.drop column, false⟩ ∧
        n.log.reverse ++ [⟨column, .push op top⟩] <+: (evaluation none source : Report ν).log) ∧
    (∀ larger : Option Nat, (∀ limit ∈ larger, c ≤ limit) →
      (∀ column limit, (evaluation (some c) source : Report ν).result ≠
        .error ⟨column, .stackOverflow .operator limit⟩) →
      (evaluation larger source : Report ν) = evaluation (some c) source) := by
  refine ⟨?_, ?_, ?_, ?_⟩
  · rintro rfl
    rfl
  · intro hc hroom
    rcases evaluation_within (ν := ν) hc source with ⟨hsame, -⟩ | ⟨column, op, top, n, hbeyond, -⟩
    · exact hsame
    · exact absurd (hroom column op top n hbeyond.pushed) (Nat.not_le_of_lt hbeyond.beyond)
  · rintro hc ⟨column, op, top, n, hpushed, hbeyond⟩
    rcases evaluation_within (ν := ν) hc source with ⟨-, hroom⟩ | ⟨column, op, top, n, h, hreport⟩
    · exact absurd (hroom column op top n hpushed) (Nat.not_le_of_lt hbeyond)
    · exact ⟨column, op, top, n, h, hreport, h.pushed.log_begins⟩
  · intro larger hlarger hresult
    rcases Nat.eq_zero_or_pos c with rfl | hc
    · exact absurd rfl (hresult 0 0)
    · rcases evaluation_within (ν := ν) hc source with
        ⟨hsame, hroom⟩ | ⟨column, op, top, n, -, hreport⟩
      · rw [hsame]
        cases larger with
        | none => rfl
        | some limit =>
          have hle : c ≤ limit := hlarger limit rfl
          rcases evaluation_within (ν := ν) (Nat.le_trans hc hle) source with
            ⟨hwider, -⟩ | ⟨column, op, top, n, h, -⟩
          · exact hwider
          · have hfits := hroom column op top n h.pushed
            exact absurd (Nat.le_trans hfits hle) (Nat.not_le_of_lt h.beyond)
      · rw [hreport] at hresult
        exact absurd rfl (hresult column c)

/-- The two operators of `1+2*3` and the mark below them fit on a stack for three, where the
evaluation is the one without a limit, but not on a stack for two, where it stops at the second. -/
theorem evaluation_limited_of_product_in_sum :
    (evaluation (some 0) ['1', '+', '2', '*', '3'] : Report Float).result =
      .error ⟨0, .stackOverflow .operator 0⟩ ∧
    (evaluation (some 3) ['1', '+', '2', '*', '3'] : Report Float) =
      evaluation none ['1', '+', '2', '*', '3'] ∧
    (evaluation (some 4) ['1', '+', '2', '*', '3'] : Report Float) =
      evaluation (some 3) ['1', '+', '2', '*', '3'] ∧
    ∃ column op top, ∃ n : Machine Float,
      FirstBeyond 2 ['1', '+', '2', '*', '3'] column op top n ∧
      (evaluation (some 2) ['1', '+', '2', '*', '3'] : Report Float).result =
        .error ⟨column, .stackOverflow .operator 2⟩ := by
  have hpushed : ∃ column op top, ∃ n : Machine Float,
      Pushed ['1', '+', '2', '*', '3'] column op top n ∧
        2 < (n.withPush op top).operators.size :=
    ⟨_, _, _, _, .intro (show _ = ['1', '+', '2'] ++ '*' :: ['3'] from rfl) rfl rfl
      ⟨rfl, rfl, .first rfl rfl rfl, rfl, rfl⟩, by decide⟩
  refine ⟨?_, ?_, ?_, ?_⟩
  · rw [(evaluation_limited 0 _).1 rfl]
  · refine (evaluation_limited 3 _).2.1 (by decide) ?_
    intro column op top n h
    exact h.size_le_of_waiting rfl rfl (List.append_nil _).symm rfl h.column_le
  · exact (evaluation_limited 3 _).2.2.2 (some 4) (by simp) (by intro column limit h; cases h)
  · obtain ⟨column, op, top, n, hfirst, hreport, -⟩ :=
      (evaluation_limited 2 ['1', '+', '2', '*', '3']).2.2.1 (by decide) hpushed
    exact ⟨column, op, top, n, hfirst, by rw [hreport]⟩

end OperatorPrecedence
