import OperatorPrecedence.Proofs.Reading

/-!
# Accepting an operator, turn by turn

While an operator is accepted the machine looks at the top of its operator stack again and
again, each time that a tighter operator has been applied.  Every such look is a *turn*, and
what can be on top at a turn is a matter of the precedence table and of how operators are
stacked.  At the last turn the operator finds its place, or none.

## Main definitions

* `Machine.Turn` — a machine that is about to look at the top of its operator stack.
* `Machine.withPush` — a machine once it has pushed an operator.
* `Machine.Accepts` — what accepting an operator can come to, move by move.
* `Machine.GoesOn` — how a machine goes on behind a character.

## Main results

* `Stacked.top_cases` — what can be on top, by what the precedence table says of it.
* `Machine.Turn.accept_eq` — each turn is a stage of accepting the operator.
* `Machine.Turn.preserves` — what the moves preserve holds at every turn.
* `Machine.Behind.accepts` — **accepting an operator behind a text**, case by case.
* `Machine.Behind.feed_induction` — what every character preserves holds behind every text.
* `Machine.Behind.log_begins` — the log only grows.
-/

namespace OperatorPrecedence

variable {ν : Type}

/-! ### What is on top of the stack -/

namespace Operator

variable {top incoming : Operator}

theorem binding?_eq_paired_iff : top.binding? incoming = some .paired ↔
    (incoming = .closing ∧ top = .opening) ∨ (incoming = .terminator ∧ top = .terminator) := by
  cases incoming with
  | binary operation =>
    cases top <;> simp [binding?]
    split <;> simp
  | _ => cases top <;> simp [binding?]

theorem binding?_eq_none_iff : top.binding? incoming = none ↔
    (incoming = .opening ∧ top = .closing) ∨ (incoming = .closing ∧ top = .terminator) ∨
      (incoming = .terminator ∧ top = .opening) := by
  cases incoming with
  | binary operation => cases top <;> simp [binding?]
  | _ => cases top <;> simp [binding?]

end Operator

namespace Stacked

variable {top incoming : Operator} {rest items : List Operator}

theorem getLast?_eq (h : Stacked items) : items.getLast? = some .terminator := by
  induction h with
  | bottom => rfl
  | push below stands ih => rwa [List.getLast?_cons_cons]

/-- Whatever the table says of the top, it is not the mark at the bottom that is taken away,
and only a closing parenthesis and the terminator can find no partner. -/
theorem top_cases (h : Stacked (top :: rest)) (incoming : Operator) :
    (top.binding? incoming = some .tighter → top.operation?.isSome = true) ∧
    (top.binding? incoming = some .paired →
      (incoming = .closing ∧ top = .opening) ∨ (incoming = .terminator ∧ rest = [])) ∧
    (top.binding? incoming = none → incoming = .closing ∨ incoming = .terminator) := by
  refine ⟨?_, ?_, ?_⟩
  · intro htighter
    obtain ⟨operation, hoperation⟩ := h.operation_of_tighter htighter
    rw [hoperation, Option.isSome_some]
  · intro hpaired
    rcases Operator.binding?_eq_paired_iff.mp hpaired with hclosing | ⟨hterminator, rfl⟩
    · exact .inl hclosing
    · exact .inr ⟨hterminator, h.eq_nil_of_terminator⟩
  · intro hnone
    rcases Operator.binding?_eq_none_iff.mp hnone with ⟨-, htop⟩ | ⟨hclosing, -⟩ | ⟨hterminator, -⟩
    · exact absurd htop h.ne_closing
    · exact .inl hclosing
    · exact .inr hterminator

end Stacked

namespace Machine

variable [Numbers ν]

/-! ### Turns -/

/-- **A turn of a machine that accepts an operator**: the literal has been committed, it is
settled what the operator means, and some of the tighter operators have been applied. -/
inductive Turn (m : Machine ν) (op : Operator) : Operator → Machine ν → Prop
  /-- No operator has been applied yet. -/
  | first {committed n : Machine ν} {incoming : Operator}
      (commit : m.commitLiteral = .ok committed)
      (meaning : committed.interpret op = .ok (incoming, n))
      (placed : n.checkPlace incoming = .ok ()) : Turn m op incoming n
  /-- The top operator bound tighter and has been applied. -/
  | again {n next : Machine ν} {incoming top : Operator} {rest : List Operator}
      (turn : Turn m op incoming n) (items : n.operators.items = top :: rest)
      (tighter : top.binding? incoming = some .tighter)
      (apply : n.applyTop = .ok next) : Turn m op incoming next

/-- What survives a commit and the zero of a sign holds once it is settled what an operator
means. -/
theorem interpret_preserves {P : Machine ν → Prop} {m committed n : Machine ν}
    {op incoming : Operator} (hcommit : m.commitLiteral = .ok committed)
    (meaning : committed.interpret op = .ok (incoming, n)) (hm : P m)
    (commit : m.literal.isEmpty = false → P m.committed)
    (zero : ∀ k : Machine ν, P k → P (k.withOperand Numbers.zero)) : P n := by
  have hcommitted : P committed := by
    rcases eq_of_commitLiteral hcommit with ⟨-, rfl⟩ | ⟨hliteral, rfl⟩
    · exact hm
    · exact commit hliteral
  rcases eq_of_interpret meaning with rfl | rfl
  · exact hcommitted
  · exact zero _ hcommitted

namespace Turn

variable {m n : Machine ν} {op incoming : Operator}

/-- Each turn is a stage of accepting the operator, with `Machine.settle` still to come. -/
theorem accept_eq (h : Turn m op incoming n) : m.accept op = n.settle incoming := by
  induction h with
  | @first committed n incoming commit meaning placed =>
    rw [accept_eq_of_commit commit, meaning]
    show (n.checkPlace incoming >>= fun _ => n.settle incoming) = n.settle incoming
    rw [placed]
    rfl
  | again turn items tighter apply ih =>
    rw [ih, settle_of_tighter items tighter, apply]
    rfl

/-- What holds of the machine and survives a commit, the zero of a sign and the applying of an
operator holds at every turn. -/
theorem preserves {P : Machine ν → Prop} (h : Turn m op incoming n) (hm : P m)
    (commit : m.literal.isEmpty = false → P m.committed)
    (zero : ∀ k : Machine ν, P k → P (k.withOperand Numbers.zero))
    (fold : ∀ (k : Machine ν) (top : Operator) (rest : List Operator) (operation : Operation)
      (left right : ν), k.operators.items = top :: rest → top.operation? = some operation →
      P k → P (k.folded left operation right)) : P n := by
  induction h with
  | first hcommit meaning placed => exact interpret_preserves hcommit meaning hm commit zero
  | again turn items tighter apply ih =>
    obtain ⟨top, rest, operation, right, left, below, hitems, hoperation, -, rfl⟩ :=
      eq_folded_of_applyTop apply
    exact fold _ top rest operation left right hitems hoperation ih

/-- Nothing but operations is missing from the stack at a turn. -/
theorem stacked (h : Turn m op incoming n) (hstacked : Stacked m.operators.items) :
    Stacked n.operators.items := by
  refine h.preserves (P := fun k => Stacked k.operators.items) hstacked (fun _ => hstacked)
    (fun k hk => hk) ?_
  intro k top rest operation left right hitems hoperation hk
  rw [hitems] at hk
  show Stacked k.operators.items.tail
  rw [hitems]
  exact hk.tail (by rintro rfl; cases hoperation)

theorem column_eq (h : Turn m op incoming n) : n.column = m.column :=
  h.preserves (P := fun k => k.column = m.column) rfl (fun _ => rfl) (fun _ hk => hk)
    (fun _ _ _ _ _ _ _ _ hk => hk)

theorem operatorCapacity (h : Turn m op incoming n) :
    n.operators.capacity = m.operators.capacity := by
  refine h.preserves (P := fun k => k.operators.capacity = m.operators.capacity) rfl
    (fun _ => rfl) (fun _ hk => hk) ?_
  intro k top rest operation left right hitems hoperation hk
  exact (Stack.capacity_uncover hitems).trans hk

/-- The log only grows from turn to turn. -/
theorem log_suffix (h : Turn m op incoming n) : m.log <:+ n.log := by
  refine h.preserves (P := fun k => m.log <:+ k.log) List.suffix_rfl ?_ (fun _ hk => hk) ?_
  · exact fun _ => List.suffix_cons _ _
  · intro k top rest operation left right hitems hoperation hk
    exact hk.trans (List.suffix_cons _ _)

/-- There is a last turn: nothing on top binds tighter any more, or what does lacks an
operand. -/
theorem exists_last (h : Turn m op incoming n) (hstacked : Stacked n.operators.items) :
    ∃ last top rest, Turn m op incoming last ∧ last.operators.items = top :: rest ∧
      (top.binding? incoming = some .tighter → last.operands.size < 2) := by
  -- the induction is on the operators, since the machine changes with each of them
  generalize hitems : n.operators.items = items at hstacked
  induction items generalizing n with
  | nil => cases hstacked
  | cons top rest ih =>
    by_cases htop : top.binding? incoming = some .tighter
    · obtain ⟨operation, hoperation⟩ := hstacked.operation_of_tighter htop
      have hrest : Stacked rest := hstacked.tail (by rintro rfl; cases hoperation)
      match hoperands : n.operands.items with
      | [] | [_] => exact ⟨n, top, rest, h, hitems, fun _ => by simp [Stack.size, hoperands]⟩
      | right :: left :: below =>
        have happly := applyTop_eq hitems hoperation hoperands
        refine ih (h.again hitems htop happly) ?_ hrest
        rw [items_applyTop happly, hitems, List.tail_cons]
    · exact ⟨n, top, rest, h, hitems, fun htighter => absurd htighter htop⟩

end Turn

/-! ### What accepting an operator comes to -/

/-- The machine once it has pushed an operator on the top there was. -/
def withPush (m : Machine ν) (op top : Operator) : Machine ν :=
  { (m.record (.push op top)).withOperator op with preceding := .ofOperator op }

/-- **What accepting an operator can come to.**  A machine that has read a text has room for its
literal and for the zero of a sign, so only the placing of the operator is left to fail. -/
inductive Accepts (m : Machine ν) (op : Operator) : Except (Verdict ν) (Machine ν) → Prop
  /-- A parenthesis is out of place. -/
  | refused {committed n : Machine ν} {incoming : Operator} {cause : Cause}
      (commit : m.commitLiteral = .ok committed)
      (meaning : committed.interpret op = .ok (incoming, n))
      (misplaced : n.checkPlace incoming = n.fail cause) : Accepts m op (n.fail cause)
  /-- A tighter operator lacks an operand. -/
  | starved {n : Machine ν} {incoming top : Operator} {rest : List Operator}
      (turn : Turn m op incoming n) (items : n.operators.items = top :: rest)
      (tighter : top.binding? incoming = some .tighter) (short : n.operands.size < 2) :
      Accepts m op (n.fail (.stackUnderflow .operand))
  /-- The operator goes on top of a looser one. -/
  | pushed {n : Machine ν} {incoming top : Operator} {rest : List Operator}
      (turn : Turn m op incoming n) (items : n.operators.items = top :: rest)
      (looser : top.binding? incoming = some .looser) (room : n.operators.room ≠ some 0) :
      Accepts m op (.ok (n.withPush incoming top))
  /-- The operator would go on top of a looser one, but there is no room. -/
  | full {n : Machine ν} {incoming top : Operator} {rest : List Operator}
      (turn : Turn m op incoming n) (items : n.operators.items = top :: rest)
      (looser : top.binding? incoming = some .looser) (room : n.operators.room = some 0) :
      Accepts m op
        ((n.record (.push incoming top)).fail (.stackOverflow .operator n.operators.size))
  /-- A closing parenthesis cancels out with the opening one. -/
  | closed {n : Machine ν} {rest : List Operator} (turn : Turn m op .closing n)
      (items : n.operators.items = .opening :: rest) :
      Accepts m op (.ok { n.record (.close .closing .opening) with
        operators := n.operators.uncover, preceding := .closing })
  /-- The terminator has come to the bottom of the stack. -/
  | delivered {n : Machine ν} {rest : List Operator} (turn : Turn m op .terminator n)
      (items : n.operators.items = .terminator :: rest) : Accepts m op n.deliver
  /-- The operator finds no partner. -/
  | unplaceable {n : Machine ν} {incoming top : Operator} {rest : List Operator}
      (turn : Turn m op incoming n) (items : n.operators.items = top :: rest)
      (unrelated : top.binding? incoming = none) :
      Accepts m op (n.fail (unplaceable incoming))

/-- From the last turn on, the precedence table decides. -/
theorem Turn.accepts {m n : Machine ν} {op incoming : Operator} (h : Turn m op incoming n)
    (hstacked : Stacked m.operators.items) : Accepts m op (m.accept op) := by
  obtain ⟨last, top, rest, hlast, hitems, hshort⟩ := h.exists_last (h.stacked hstacked)
  rw [hlast.accept_eq]
  cases htop : top.binding? incoming with
  | none =>
    rw [settle_of_not_tighter hitems (by simp [htop]), enter_of_none hitems htop]
    exact .unplaceable hlast hitems htop
  | some binding =>
    cases binding with
    | tighter =>
      rw [settle_of_tighter hitems htop, applyTop_of_short hitems (hshort htop)]
      exact .starved hlast hitems htop (hshort htop)
    | looser =>
      rw [settle_of_not_tighter hitems (by simp [htop])]
      by_cases hroom : last.operators.room = some 0
      · rw [enter_of_full hitems htop hroom]
        exact .full hlast hitems htop hroom
      · rw [enter_of_looser hitems htop hroom]
        exact .pushed hlast hitems htop hroom
    | paired =>
      rw [settle_of_not_tighter hitems (by simp [htop])]
      rcases Operator.binding?_eq_paired_iff.mp htop with ⟨rfl, rfl⟩ | ⟨rfl, rfl⟩
      · rw [enter_closing hitems]
        exact .closed hlast hitems
      · rw [enter_terminator_eq_deliver hitems]
        exact .delivered hlast hitems

/-- **Accepting an operator behind a text.**  Whatever the operator, one of the cases of
`Machine.Accepts` is what happens. -/
theorem Behind.accepts {capacity : Option Nat} {text : List Char} {m : Machine ν}
    (h : Behind capacity text m) (op : Operator) :
    Accepts m.advanced op (m.advanced.accept op) := by
  obtain ⟨committed, hcommit, hprimed, hpreceding, -⟩ := h.commitLiteral
  have hroom : committed.preceding.endsOperand = true ∨ committed.operands.room ≠ some 0 := by
    rw [hpreceding, h.endsOperand_preceding]
    cases hends : endsOperand text with
    | true => exact .inl rfl
    | false =>
      rw [hends] at hprimed
      exact .inr hprimed.room_ne_zero
  obtain ⟨incoming, n, hmeaning⟩ := exists_interpret hroom op
  rcases n.checkPlace_cases incoming with hplaced | ⟨cause, hmisplaced⟩
  · exact (Turn.first hcommit hmeaning hplaced).accepts h.stacked
  · rw [accept_eq_of_commit hcommit, hmeaning]
    show Accepts m.advanced op (n.checkPlace incoming >>= fun _ => n.settle incoming)
    rw [hmisplaced]
    exact .refused hcommit hmeaning hmisplaced

/-! ### How a machine goes on -/

/-- **How a machine goes on behind a character**: it has gathered it, or pushed it as an operator,
or closed a group. -/
inductive GoesOn (m : Machine ν) (c : Char) : Machine ν → Prop
  /-- A digit or a point belongs to a literal. -/
  | gathered (numeric : isNumeric c = true) (apart : m.preceding ≠ .closing) :
      GoesOn m c { m.advanced with literal := m.literal.push c, preceding := .operand }
  /-- An operator goes on top of a looser one. -/
  | pushed {n : Machine ν} {token : Token} {op incoming top : Operator} {rest : List Operator}
      (stands : Token.ofChar? c = some token) (operator : token.operator? = some op)
      (turn : Turn m.advanced op incoming n) (items : n.operators.items = top :: rest)
      (looser : top.binding? incoming = some .looser) (room : n.operators.room ≠ some 0) :
      GoesOn m c (n.withPush incoming top)
  /-- A closing parenthesis cancels out with the opening one. -/
  | closed {n : Machine ν} {token : Token} {op : Operator} {rest : List Operator}
      (stands : Token.ofChar? c = some token) (operator : token.operator? = some op)
      (turn : Turn m.advanced op .closing n) (items : n.operators.items = .opening :: rest) :
      GoesOn m c { n.record (.close .closing .opening) with
        operators := n.operators.uncover, preceding := .closing }

namespace Behind

variable {capacity : Option Nat} {text : List Char} {m next : Machine ν}

/-- A machine that goes on does so in one of these ways. -/
theorem goesOn (h : Behind capacity text m) {c : Char} (hstep : m.step c = .ok next) :
    m.GoesOn c next := by
  rcases step_cases (ν := ν) c with hforeign | ⟨hc, hnumeric⟩ | ⟨token, op, htoken, hop⟩
  · rw [hforeign] at hstep
    cases hstep
  · rw [hnumeric, gather] at hstep
    by_cases hclosing : m.preceding = .closing
    · rw [if_pos (by exact hclosing)] at hstep
      cases hstep
    · rw [if_neg (by exact hclosing)] at hstep
      cases hstep
      exact .gathered hc hclosing
  · rw [step_of_token m htoken hop] at hstep
    have haccepts := h.accepts op
    rw [hstep] at haccepts
    generalize houtcome : (Except.ok next : Except (Verdict ν) (Machine ν)) = outcome at haccepts
    cases haccepts with
    | refused commit meaning misplaced => cases houtcome
    | starved turn items tighter short => cases houtcome
    | full turn items looser room => cases houtcome
    | unplaceable turn items unrelated => cases houtcome
    | @delivered n rest turn items =>
      obtain ⟨verdict, -, hverdict⟩ := n.exists_deliver
      cases houtcome.trans (hverdict _)
    | pushed turn items looser room =>
      cases houtcome
      exact .pushed htoken hop turn items looser room
    | closed turn items =>
      cases houtcome
      exact .closed htoken hop turn items

/-- A machine that stops with a value has applied everything back to the mark at the bottom, and
delivers the one operand that is left. -/
theorem arrives (h : Behind capacity text m) {c : Char} {verdict : Verdict ν} {value : ν}
    (hstep : m.step c = .error verdict) (hresult : verdict.result = .ok value) :
    ∃ op n rest, Turn m.advanced op .terminator n ∧ n.operators.items = .terminator :: rest ∧
      n.operands.items = [value] ∧ verdict.log = (n.record (.evaluated value)).log := by
  rcases step_cases (ν := ν) c with hforeign | ⟨-, hnumeric⟩ | ⟨token, op, htoken, hop⟩
  · rw [hforeign] at hstep
    cases hstep
    cases hresult
  · rw [hnumeric, gather] at hstep
    by_cases hclosing : m.preceding = .closing
    · rw [if_pos (by exact hclosing)] at hstep
      cases hstep
      cases hresult
    · rw [if_neg (by exact hclosing)] at hstep
      cases hstep
  · rw [step_of_token m htoken hop] at hstep
    have haccepts := h.accepts op
    rw [hstep] at haccepts
    generalize houtcome : (Except.error verdict : Except (Verdict ν) (Machine ν)) = outcome
      at haccepts
    cases haccepts with
    | refused commit meaning misplaced => cases houtcome; cases hresult
    | starved turn items tighter short => cases houtcome; cases hresult
    | full turn items looser room => cases houtcome; cases hresult
    | unplaceable turn items unrelated => cases houtcome; cases hresult
    | pushed turn items looser room => cases houtcome
    | closed turn items => cases houtcome
    | @delivered n rest turn items =>
      rcases n.deliver_cases with ⟨delivered, hoperands, hdeliver⟩ | ⟨cause, hdeliver⟩
      · cases houtcome.trans (hdeliver _)
        cases hresult
        exact ⟨op, n, rest, turn, items, hoperands, rfl⟩
      · cases houtcome.trans (hdeliver _)
        cases hresult

/-- **What every character preserves holds behind every text**, as long as the machine waits for
more. -/
theorem feed_induction {P : List Char → Machine ν → Prop}
    (step : ∀ {text : List Char} {m next : Machine ν} {c : Char}, Behind capacity text m →
      P text m → m.GoesOn c next → P (text ++ [c]) next)
    (h : Behind capacity text m) (hm : P text m) {read : List Char}
    (hfeed : m.feed read = .waiting next) : P (text ++ read) next := by
  induction read generalizing m text with
  | nil =>
    cases hfeed
    simpa using hm
  | cons c read ih =>
    have hreads := h.step c
    rw [feed] at hfeed
    cases hstep : m.step c with
    | error verdict => rw [hstep] at hfeed; cases hfeed
    | ok onward =>
      rw [hstep] at hfeed hreads
      rw [List.append_cons]
      cases hreads with
      | onward behind => exact ih behind (step h hm (h.goesOn hstep)) hfeed

end Behind

/-! ### The log only grows -/

/-- What is in a log stays there, however a move goes. -/
def Keeps (log : List (Record ν)) : Except (Verdict ν) (Machine ν) → Prop
  | .ok next => log <:+ next.log
  | .error verdict => log <:+ verdict.log

theorem Accepts.keeps {m : Machine ν} {op : Operator} {outcome : Except (Verdict ν) (Machine ν)}
    (h : Accepts m op outcome) : Keeps m.log outcome := by
  cases h with
  | refused commit meaning misplaced =>
    exact interpret_preserves (P := fun k => m.log <:+ k.log) commit meaning List.suffix_rfl
      (fun _ => List.suffix_cons _ _) (fun _ hk => hk)
  | starved turn items tighter short => exact turn.log_suffix
  | pushed turn items looser room => exact turn.log_suffix.trans (List.suffix_cons _ _)
  | full turn items looser room => exact turn.log_suffix.trans (List.suffix_cons _ _)
  | closed turn items => exact turn.log_suffix.trans (List.suffix_cons _ _)
  | @delivered n rest turn items =>
    obtain ⟨verdict, hlog, hverdict⟩ := n.exists_deliver
    rw [hverdict]
    exact turn.log_suffix.trans hlog
  | unplaceable turn items unrelated => exact turn.log_suffix

namespace Behind

variable {capacity : Option Nat} {text : List Char} {m : Machine ν}

theorem step_keeps (h : Behind capacity text m) (c : Char) : Keeps m.log (m.step c) := by
  rcases step_cases (ν := ν) c with hforeign | ⟨-, hnumeric⟩ | ⟨token, op, htoken, hoperator⟩
  · rw [hforeign]
    exact List.suffix_rfl
  · rw [hnumeric]
    unfold gather
    split
    · exact List.suffix_rfl
    · exact List.suffix_rfl
  · rw [step_of_token m htoken hoperator]
    exact (h.accepts op).keeps

/-- The log of a machine begins the log of what is reported in the end. -/
theorem log_begins (h : Behind capacity text m) (source : List Char) :
    m.log.reverse <+: (m.feed source).report.log := by
  induction source generalizing m text with
  | nil => exact List.prefix_rfl
  | cons c rest ih =>
    have hkeeps := h.step_keeps c
    have hreads := h.step c
    rw [feed]
    cases hstep : m.step c with
    | error verdict =>
      rw [hstep] at hkeeps
      exact List.reverse_prefix.mpr hkeeps
    | ok next =>
      rw [hstep] at hkeeps hreads
      cases hreads with
      | onward behind => exact (List.reverse_prefix.mpr hkeeps).trans (ih behind)

end Behind

end Machine

end OperatorPrecedence
