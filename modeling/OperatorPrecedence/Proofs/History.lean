import OperatorPrecedence.Proofs.Consumption
import OperatorPrecedence.Proofs.Turns

/-!
# The log as a history

A log tells enough to rebuild both stacks.  A reader who goes through the records, with the
source at hand for the signs, keeps a stack of symbols and a stack of values: a commit brings a
value, a push a symbol, a close takes a symbol away and a fold a symbol and two values, for which
it leaves its result.  The zero that a sign acts on is not recorded and is known from the source.

A record is told before the move it tells of is made, so it may be the last one and the move
fail.  What the reader rebuilds is never contradicted by what comes next: the tops that records
name are the tops there are.

## Main definitions

* `isSign`, `isSignAt`, `signs` — the signs of a source.
* `Event.Kind`, `tally` — the kinds of events, and how many records of a kind there are.
* `Record.Precedes` — the order in which records come.
* `Replica` — the two stacks as a reader of the log knows them.
* `Replica.Admits`, `Replica.after` — what a record may tell of, and what it leads to.
* `Replays` — reading a log up to a column of the source.

## Main results

* `Replays.unique` — a log can be read in one way only.
* `Replays.symbols_balance`, `Replays.values_balance` — what a log leaves on the stacks.
* `Machine.Turn.writing` — every turn of the machine is one that its log has told of.
* `log_faithful` — **the log is a faithful history of the evaluation**.
-/

namespace OperatorPrecedence

variable {ν : Type}

/-! ### Signs -/

/-- Whether a character that stands behind a text is a sign: a plus or minus where an operand is
to begin. -/
def isSign (before : List Char) (c : Char) : Bool :=
  awaitsOperand before && (c == '+' || c == '-')

/-- Whether a sign stands at a position. -/
def isSignAt (source : List Char) (n : Nat) : Bool := source[n]?.any (isSign (source.take n))

/-- The number of signs among the first characters of a source. -/
def signs (source : List Char) (n : Nat) : Nat := (List.range n).countP (isSignAt source)

theorem isSignAt_append_cons (before : List Char) (c : Char) (rest : List Char) :
    isSignAt (before ++ c :: rest) before.length = isSign before c := by
  unfold isSignAt
  simp

theorem isSign_of_numeric {c : Char} (h : isNumeric c = true) (before : List Char) :
    isSign before c = false := by
  have hplus : c ≠ '+' := ne_of_isNumeric h (by decide)
  have hminus : c ≠ '-' := ne_of_isNumeric h (by decide)
  simp [isSign, hplus, hminus]

/-- A character is a sign if its operator may be one and stands where an operand is to begin. -/
theorem isSign_of_token {c : Char} {token : Token} {op : Operator}
    (htoken : Token.ofChar? c = some token) (hop : token.operator? = some op)
    (before : List Char) : isSign before c = (awaitsOperand before && op.maySign) := by
  unfold isSign
  cases CharClass.of c with
  | numeric h =>
    obtain ⟨other, hother, hnone⟩ := Token.ofChar?_of_numeric h
    cases hother.symm.trans htoken
    cases hnone.symm.trans hop
  | operation operation =>
    cases operation <;> cases htoken <;> cases hop <;> rfl
  | foreign h => cases (Token.ofChar?_of_foreign h).symm.trans htoken
  | _ =>
    cases htoken
    cases hop
    rfl

theorem signs_succ (source : List Char) (n : Nat) :
    signs source (n + 1) = signs source n + (isSignAt source n).toNat := by
  unfold signs
  rw [List.range_succ, List.countP_append, List.countP_singleton]
  cases isSignAt source n <;> rfl

/-! ### The order of records -/

/-- The kinds of events. -/
inductive Event.Kind where
  | commit
  | push
  | close
  | fold
  | evaluated
  deriving DecidableEq

/-- The kind of an event. -/
def Event.kind : Event ν → Event.Kind
  | .commit _ => .commit
  | .push _ _ => .push
  | .close _ _ => .close
  | .fold _ _ _ _ => .fold
  | .evaluated _ => .evaluated

/-- What may come before what while a character is read: a commit comes before all other events,
and folds come before the one event that ends the reading. -/
def Event.Kind.Precedes (kind later : Event.Kind) : Prop :=
  (kind = commit ∨ kind = fold) ∧ later ≠ commit

/-- **The order in which records come**: by column, and in a column by kind. -/
def Record.Precedes (r later : Record ν) : Prop :=
  r.column < later.column ∨ (r.column = later.column ∧ r.event.kind.Precedes later.event.kind)

/-- The number of records of a kind. -/
def tally (kind : Event.Kind) (log : List (Record ν)) : Nat :=
  log.countP fun r => r.event.kind = kind

@[simp] theorem tally_nil (kind : Event.Kind) : tally kind ([] : List (Record ν)) = 0 := rfl

@[simp] theorem tally_cons (kind : Event.Kind) (r : Record ν) (log : List (Record ν)) :
    tally kind (r :: log) = tally kind log + if r.event.kind = kind then 1 else 0 := by
  simp [tally, List.countP_cons]

@[simp] theorem tally_reverse (kind : Event.Kind) (log : List (Record ν)) :
    tally kind log.reverse = tally kind log := List.countP_reverse

/-! ### Reading a log -/

/-- The two stacks as a reader of the log knows them, the top entries first. -/
structure Replica (ν : Type) where
  symbols : List Char
  /-- The values that have not been consumed, the latest one first. -/
  values : List ν

namespace Replica

/-- The mark at the bottom, and no value. -/
def start : Replica ν := ⟨['='], []⟩

/-- What the reader knows once a record has been read. -/
def after (r : Replica ν) : Event ν → Replica ν
  | .commit value => { r with values := value :: r.values }
  | .push op _ => { r with symbols := op.symbol :: r.symbols }
  | .close _ _ => { r with symbols := r.symbols.tail }
  | .fold _ _ _ result => ⟨r.symbols.tail, result :: r.values.drop 2⟩
  | .evaluated _ => r

variable [Numbers ν]

/-- **What a record may tell of.**  What is pushed goes on top of the symbol there is; a closing
parenthesis closes an opening one on top; a fold applies the operation on top to the two latest
values; and the value of the expression is all that is left. -/
def Admits (r : Replica ν) : Event ν → Prop
  | .commit _ => True
  | .push _ top => r.symbols.head? = some top.symbol
  | .close op top => op.symbol = ')' ∧ top.symbol = '(' ∧ r.symbols.head? = some '('
  | .fold left operation right result =>
    r.symbols.head? = some operation.symbol ∧ r.values.take 2 = [right, left] ∧
      result = Numbers.apply operation left right
  | .evaluated value => r = ⟨['='], [value]⟩

/-- What the reader knows once a character of the source has been passed: a sign brings a zero. -/
def passed (r : Replica ν) (sign : Bool) : Replica ν :=
  if sign then { r with values := Numbers.zero :: r.values } else r

end Replica

section Replays

variable [Numbers ν]

/-- **Reading a log**, the latest record first, up to a column of the source. -/
inductive Replays (source : List Char) : Nat → List (Record ν) → Replica ν → Prop
  /-- Nothing has been read. -/
  | start : Replays source 0 [] .start
  /-- The next column begins. -/
  | column {n : Nat} {log : List (Record ν)} {r : Replica ν} (before : Replays source n log r) :
      Replays source (n + 1) log (r.passed (isSignAt source n))
  /-- Another record of the same column. -/
  | record {n : Nat} {log : List (Record ν)} {r : Replica ν} {event : Event ν}
      (before : Replays source n log r) (admits : r.Admits event) :
      Replays source n (⟨n, event⟩ :: log) (r.after event)

namespace Replays

variable {source : List Char} {n : Nat} {log : List (Record ν)} {r r' : Replica ν}

theorem column_le (h : Replays source n log r) : ∀ record ∈ log, record.column ≤ n := by
  induction h with
  | start => simp
  | column before ih => exact fun record hrecord => Nat.le_succ_of_le (ih record hrecord)
  | record before admits ih => simpa using ih

/-- A log can be read in one way only. -/
theorem unique (h : Replays source n log r) (h' : Replays source n log r') : r = r' := by
  induction h generalizing r' with
  | start =>
    cases h'
    rfl
  | column before ih =>
    cases h' with
    | column before' => rw [ih before']
    | record => exact absurd (before.column_le _ (List.mem_cons_self ..)) (Nat.not_succ_le_self _)
  | record before admits ih =>
    cases h' with
    | column before' =>
      exact absurd (before'.column_le _ (List.mem_cons_self ..)) (Nat.not_succ_le_self _)
    | record before' admits' => rw [ih before']

/-- Every symbol but the mark at the bottom has been pushed, and has not been taken away. -/
theorem symbols_balance (h : Replays source n log r) :
    r.symbols.length + tally .fold log + tally .close log = tally .push log + 1 := by
  induction h with
  | start => rfl
  | @column n log r before ih =>
    unfold Replica.passed
    split <;> exact ih
  | @record n log r event before admits ih =>
    cases event with
    | commit value => simpa [Replica.after, Event.kind] using ih
    | push op top =>
      simp [Replica.after, Event.kind]
      omega
    | close op top =>
      -- the symbol that is taken away is there: the record names it
      obtain ⟨-, -, htop⟩ := admits
      obtain ⟨rest, hrest⟩ := List.head?_eq_some_iff.mp htop
      simp [Replica.after, Event.kind, hrest] at ih ⊢
      omega
    | fold left operation right result =>
      obtain ⟨htop, -, -⟩ := admits
      obtain ⟨rest, hrest⟩ := List.head?_eq_some_iff.mp htop
      simp [Replica.after, Event.kind, hrest] at ih ⊢
      omega
    | evaluated value => simpa [Replica.after, Event.kind] using ih

/-- Every value has been committed or supplied to a sign, but one for each fold. -/
theorem values_balance (h : Replays source n log r) :
    r.values.length + tally .fold log = tally .commit log + signs source n := by
  induction h with
  | start => rfl
  | @column n log r before ih =>
    rw [signs_succ]
    cases isSignAt source n <;> simp [Replica.passed] <;> omega
  | @record n log r event before admits ih =>
    cases event with
    | commit value =>
      simp [Replica.after, Event.kind]
      omega
    | fold left operation right result =>
      obtain ⟨-, hvalues, -⟩ := admits
      have hlength := congrArg List.length hvalues
      simp [Replica.after, Event.kind] at hlength ⊢
      omega
    | _ => simpa [Replica.after, Event.kind] using ih

end Replays

/-- **A log that has been kept up to a column**: it can be read, and its records are in order. -/
structure Chronicle (source : List Char) (n : Nat) (log : List (Record ν)) (r : Replica ν) :
    Prop where
  replays : Replays source n log r
  ordered : log.Pairwise fun later earlier => earlier.Precedes later
  column_pos : ∀ record ∈ log, 1 ≤ record.column

namespace Chronicle

variable {source : List Char} {n : Nat} {log : List (Record ν)} {r : Replica ν}

theorem nil : Chronicle source 0 [] (.start : Replica ν) := ⟨.start, .nil, by simp⟩

theorem column (h : Chronicle source n log r) :
    Chronicle source (n + 1) log (r.passed (isSignAt source n)) :=
  { h with replays := h.replays.column }

theorem record (h : Chronicle source n log r) (hn : 1 ≤ n) {event : Event ν}
    (hprecedes : ∀ record ∈ log, record.Precedes ⟨n, event⟩) (hadmits : r.Admits event) :
    Chronicle source n (⟨n, event⟩ :: log) (r.after event) where
  replays := h.replays.record hadmits
  ordered := List.pairwise_cons.mpr ⟨hprecedes, h.ordered⟩
  column_pos := List.forall_mem_cons.mpr ⟨hn, h.column_pos⟩

end Chronicle

/-- **What the last words of a machine can be.**  Either there is a fault, and no record tells of a
value; or there is a value, the last record tells of it, and nothing else is left. -/
inductive Concluded (source : List Char) (n : Nat) : Except Fault ν → List (Record ν) → Prop
  | fault {fault : Fault} {log : List (Record ν)} {r : Replica ν}
      (chronicle : Chronicle source n log r) (pending : ∀ r ∈ log, r.event.kind ≠ .evaluated) :
      Concluded source n (.error fault) log
  | value {value : ν} {log : List (Record ν)}
      (chronicle : Chronicle source n (⟨n, .evaluated value⟩ :: log) ⟨['='], [value]⟩)
      (pending : ∀ r ∈ log, r.event.kind ≠ .evaluated) :
      Concluded source n (.ok value) (⟨n, .evaluated value⟩ :: log)

end Replays

namespace Machine

/-- The stacks of a machine, as a reader of its log is to know them. -/
def replica (m : Machine ν) : Replica ν := ⟨m.operators.items.map Operator.symbol, m.operands.items⟩

variable [Numbers ν]

/-- **A machine that its log tells of**, between two characters. -/
structure Told (source : List Char) (m : Machine ν) : Prop where
  chronicle : Chronicle source m.column m.log m.replica
  pending : ∀ r ∈ m.log, r.event.kind ≠ .evaluated

/-- **A machine that its log tells of**, while it accepts an operator: in the column of the operator
nothing but a commit and folds have been recorded. -/
structure Writing (source : List Char) (m : Machine ν) : Prop extends Told source m where
  begun : 1 ≤ m.column
  ongoing : ∀ r ∈ m.log, r.column < m.column ∨
    (r.column = m.column ∧ (r.event.kind = .commit ∨ r.event.kind = .fold))

namespace Writing

variable {source : List Char} {m : Machine ν}

/-- All that has been recorded comes before anything but a commit. -/
theorem precedes (h : Writing source m) {event : Event ν} (hevent : event.kind ≠ .commit) :
    ∀ r ∈ m.log, r.Precedes ⟨m.column, event⟩ := by
  intro r hr
  rcases h.ongoing r hr with hlt | ⟨hcolumn, hkind⟩
  · exact .inl hlt
  · exact .inr ⟨hcolumn, hkind, hevent⟩

/-- Another record, and the move that it tells of. -/
theorem recorded (h : Writing source m) {event : Event ν} (hevent : event.kind ≠ .commit)
    (hadmits : m.replica.Admits event) :
    Chronicle source m.column (⟨m.column, event⟩ :: m.log) (m.replica.after event) :=
  h.chronicle.record h.begun (h.precedes hevent) hadmits

/-- Applying the top operator is told of by a fold. -/
theorem folded (h : Writing source m) {top : Operator} {rest : List Operator}
    {operation : Operation} {left right : ν} {below : List ν}
    (hitems : m.operators.items = top :: rest) (htop : top.operation? = some operation)
    (hoperands : m.operands.items = right :: left :: below) :
    Writing source (m.folded left operation right) := by
  have hsymbol : top.symbol = operation.symbol := by
    cases top <;> cases htop <;> rfl
  have hadmits : m.replica.Admits
      (.fold left operation right (Numbers.apply operation left right)) := by
    refine ⟨?_, ?_, rfl⟩
    · simp [replica, hitems, hsymbol]
    · simp [replica, hoperands]
  have hreplica : (m.folded left operation right).replica =
      m.replica.after (.fold left operation right (Numbers.apply operation left right)) := by
    simp [replica, Replica.after, Machine.folded, Machine.record, withOperand, hoperands]
  refine ⟨⟨?_, List.forall_mem_cons.mpr ⟨by simp [Event.kind], h.pending⟩⟩, h.begun,
    List.forall_mem_cons.mpr ⟨.inr ⟨rfl, .inr rfl⟩, h.ongoing⟩⟩
  rw [hreplica]
  exact h.recorded (by simp [Event.kind]) hadmits

end Writing

/-! ### The log of an operator -/

variable {capacity : Option Nat} {text rest : List Char} {c : Char} {m : Machine ν}

/-- What has been recorded belongs to the characters that have been read. -/
theorem Told.column_lt {source : List Char} (h : Told source m) :
    ∀ r ∈ m.log, r.column < m.column + 1 := by
  intro r hr
  exact Nat.lt_succ_of_le (h.chronicle.replays.column_le r hr)

/-- Another character has been passed. -/
theorem Told.passed (h : Told (text ++ c :: rest) m) (hcolumn : m.column = text.length) :
    Chronicle (text ++ c :: rest) (m.column + 1) m.log (m.replica.passed (isSign text c)) := by
  have hpassed := h.chronicle.column
  rw [hcolumn, isSignAt_append_cons, ← hcolumn] at hpassed
  exact hpassed

/-- Behind no literal nothing has been recorded yet for a character, and the zero of a sign is
known from the source. -/
theorem Told.supplied (h : Told (text ++ c :: rest) m) (hcolumn : m.column = text.length) :
    Writing (text ++ c :: rest)
      (if isSign text c then m.advanced.withOperand Numbers.zero else m.advanced) := by
  have hpassed := h.passed hcolumn
  have hongoing : ∀ r ∈ m.log, r.column < m.column + 1 ∨
      (r.column = m.column + 1 ∧ (r.event.kind = .commit ∨ r.event.kind = .fold)) :=
    fun r hr => .inl (h.column_lt r hr)
  split
  · next hsign =>
    rw [hsign] at hpassed
    exact ⟨⟨hpassed, h.pending⟩, Nat.succ_pos _, hongoing⟩
  · next hsign =>
    rw [Bool.not_eq_true] at hsign
    rw [hsign] at hpassed
    exact ⟨⟨hpassed, h.pending⟩, Nat.succ_pos _, hongoing⟩

/-- The literal in front of a character that is no sign is told of by a commit. -/
theorem Told.committed (h : Told (text ++ c :: rest) m) (hcolumn : m.column = text.length)
    (hsign : isSign text c = false) : Writing (text ++ c :: rest) m.advanced.committed := by
  have hpassed := h.passed hcolumn
  rw [hsign] at hpassed
  refine ⟨⟨?_, List.forall_mem_cons.mpr ⟨by simp [Event.kind], h.pending⟩⟩, Nat.succ_pos _,
    List.forall_mem_cons.mpr ⟨.inr ⟨rfl, .inl rfl⟩, fun r hr => .inl (h.column_lt r hr)⟩⟩
  exact hpassed.record (Nat.succ_pos _) (fun r hr => .inl (h.column_lt r hr)) trivial

/-- Once it is settled what an operator means, all that has happened is told of. -/
theorem Behind.writing (h : Behind capacity text m) (htold : Told (text ++ c :: rest) m)
    {token : Token} {op incoming : Operator} (htoken : Token.ofChar? c = some token)
    (hop : token.operator? = some op) {committed n : Machine ν}
    (commit : m.advanced.commitLiteral = .ok committed)
    (meaning : committed.interpret op = .ok (incoming, n)) : Writing (text ++ c :: rest) n := by
  have hsign : isSign text c = (op.maySign && !m.preceding.endsOperand) := by
    rw [isSign_of_token htoken hop, h.awaitsOperand_eq, h.endsOperand_preceding, Bool.and_comm]
  have hn := eq_ite_of_interpret meaning
  rcases eq_of_commitLiteral commit with ⟨-, rfl⟩ | ⟨hliteral, rfl⟩
  · rw [show m.advanced.preceding = m.preceding from rfl, ← hsign] at hn
    rw [hn]
    exact htold.supplied h.column
  · -- behind a literal there is no sign
    have hends : m.preceding.endsOperand = true := by
      rw [h.literal.mp hliteral]
      rfl
    rw [hends, Bool.not_true, Bool.and_false] at hsign
    rw [show m.advanced.committed.preceding = m.preceding from rfl, hends, Bool.not_true,
      Bool.and_false, if_neg Bool.false_ne_true] at hn
    rw [hn]
    exact htold.committed h.column hsign

/-- **Every turn is one that the log has told of.** -/
theorem Turn.writing {op incoming : Operator} {n : Machine ν}
    (hturn : Turn m.advanced op incoming n) (h : Behind capacity text m)
    (htold : Told (text ++ c :: rest) m)
    {token : Token} (htoken : Token.ofChar? c = some token) (hop : token.operator? = some op) :
    Writing (text ++ c :: rest) n := by
  induction hturn with
  | first commit meaning placed => exact h.writing htold htoken hop commit meaning
  | again turn items tighter apply ih =>
    obtain ⟨top, rest, operation, right, left, below, hitems, hoperation, hoperands, rfl⟩ :=
      eq_folded_of_applyTop apply
    exact ih.folded hitems hoperation hoperands

/-! ### The log of an evaluation -/

/-- At the start there is nothing to tell of. -/
theorem told_of_start {first : Machine ν} (hstart : start capacity = .ok first)
    (source : List Char) : Told source first := by
  obtain rfl := eq_of_start hstart
  exact ⟨.nil, by simp⟩

/-- What the log tells of once a character has been read. -/
def Tells (source : List Char) (n : Nat) : Except (Verdict ν) (Machine ν) → Prop
  | .ok next => Told source next
  | .error verdict => Concluded source n verdict.result verdict.log

/-- What a machine has told of when it fails. -/
theorem Writing.fail {source : List Char} (h : Writing source m) (cause : Cause) :
    Tells source m.column (m.fail cause) :=
  .fault h.chronicle h.pending

/-- A push names the operator that it goes on. -/
theorem Writing.pushed {source : List Char} (h : Writing source m) (op : Operator)
    {top : Operator} {rest : List Operator} (hitems : m.operators.items = top :: rest) :
    Told source (m.withPush op top) := by
  have hadmits : m.replica.Admits (.push op top) := by
    show (m.operators.items.map Operator.symbol).head? = some top.symbol
    rw [hitems]
    rfl
  exact ⟨h.recorded (by simp [Event.kind]) hadmits,
    List.forall_mem_cons.mpr ⟨by simp [Event.kind], h.pending⟩⟩

/-- A closing parenthesis takes the opening one away. -/
theorem Writing.closed {source : List Char} (h : Writing source m) {rest : List Operator}
    (hitems : m.operators.items = .opening :: rest) :
    Told source { m.record (.close .closing .opening) with
      operators := m.operators.uncover, preceding := .closing } := by
  have hadmits : m.replica.Admits (.close .closing .opening) := by
    refine ⟨rfl, rfl, ?_⟩
    show (m.operators.items.map Operator.symbol).head? = some '('
    rw [hitems]
    rfl
  have hrecorded := h.recorded (by simp [Event.kind]) hadmits
  refine ⟨?_, List.forall_mem_cons.mpr ⟨by simp [Event.kind], h.pending⟩⟩
  have hreplica : m.replica.after (.close .closing .opening) =
      ⟨m.operators.items.tail.map Operator.symbol, m.operands.items⟩ := by
    simp [replica, Replica.after]
  rw [hreplica] at hrecorded
  exact hrecorded

/-- The value that is delivered is all that is left. -/
theorem Writing.deliver {source : List Char} (h : Writing source m)
    (hstacked : Stacked m.operators.items) {rest : List Operator}
    (hitems : m.operators.items = .terminator :: rest) :
    Tells source m.column m.deliver := by
  rcases m.deliver_cases with ⟨value, hoperands, hdeliver⟩ | ⟨cause, hdeliver⟩
  · have hreplica : m.replica = ⟨['='], [value]⟩ := by
      obtain rfl := (hitems ▸ hstacked).eq_nil_of_terminator
      simp [replica, hitems, hoperands, Operator.symbol]
    have hadmits : m.replica.Admits (.evaluated value) := hreplica
    have hrecorded := h.recorded (by simp [Event.kind]) hadmits
    rw [show m.replica.after (.evaluated value) = m.replica from rfl, hreplica] at hrecorded
    rw [hdeliver]
    exact .value hrecorded h.pending
  · rw [hdeliver]
    exact h.fail cause

/-- **Accepting an operator is told of**, however it ends. -/
theorem Accepts.tells {op : Operator} {outcome : Except (Verdict ν) (Machine ν)}
    (haccepts : Accepts m.advanced op outcome) (h : Behind capacity text m)
    (htold : Told (text ++ c :: rest) m) {token : Token} (htoken : Token.ofChar? c = some token)
    (hop : token.operator? = some op) :
    Tells (text ++ c :: rest) (m.column + 1) outcome := by
  have hwriting : ∀ {incoming : Operator} {n : Machine ν}, Turn m.advanced op incoming n →
      Writing (text ++ c :: rest) n :=
    fun turn => turn.writing h htold htoken hop
  have hcolumn : ∀ {incoming : Operator} {n : Machine ν}, Turn m.advanced op incoming n →
      n.column = m.column + 1 := fun turn => turn.column_eq
  cases haccepts with
  | @refused committed n incoming cause commit meaning misplaced =>
    have hcolumn : n.column = m.column + 1 :=
      interpret_preserves (P := fun k => k.column = m.column + 1) commit meaning rfl
        (fun _ => rfl) (fun _ hk => hk)
    rw [← hcolumn]
    exact (h.writing htold htoken hop commit meaning).fail cause
  | starved turn items tighter short =>
    rw [← hcolumn turn]
    exact (hwriting turn).fail _
  | pushed turn items looser room => exact (hwriting turn).pushed _ items
  | @full n incoming top below turn items looser room =>
    have hpushed := (hwriting turn).pushed incoming items
    rw [← hcolumn turn]
    exact .fault hpushed.chronicle hpushed.pending
  | closed turn items => exact (hwriting turn).closed items
  | delivered turn items =>
    rw [← hcolumn turn]
    exact (hwriting turn).deliver (turn.stacked h.stacked) items
  | unplaceable turn items unrelated =>
    rw [← hcolumn turn]
    exact (hwriting turn).fail _

/-- **Reading a character is told of**, whatever it is. -/
theorem Told.step (htold : Told (text ++ c :: rest) m) (h : Behind capacity text m) :
    Tells (text ++ c :: rest) (m.column + 1) (m.step c) := by
  have hpassed := htold.passed h.column
  rcases step_cases (ν := ν) c with hforeign | ⟨hnumeric, hgather⟩ | ⟨token, op, htoken, hop⟩
  · rw [hforeign]
    exact .fault hpassed htold.pending
  · rw [hgather]
    unfold gather
    split
    · exact .fault hpassed htold.pending
    · rw [isSign_of_numeric hnumeric] at hpassed
      exact ⟨hpassed, htold.pending⟩
  · rw [step_of_token m htoken hop]
    exact (h.accepts op).tells h htold htoken hop

/-- Reading the rest of a source is told of up to where it ends. -/
theorem Told.feed (htold : Told (text ++ rest) m) (h : Behind capacity text m) :
    Concluded (text ++ rest) ((m.feed rest).report.consumption (text ++ rest)).pulled
      (m.feed rest).report.result (m.feed rest).report.log.reverse := by
  induction rest generalizing m text with
  | nil =>
    have hpulled : (text ++ []).length - ([] : List Char).length = m.column := by
      simp [h.column]
    show Concluded _ ((text ++ []).length - ([] : List Char).length) _ m.log.reverse.reverse
    rw [hpulled, List.reverse_reverse]
    exact .fault htold.chronicle htold.pending
  | cons c rest ih =>
    have htells := htold.step h
    have hreads := h.step c
    rw [feed]
    cases hstep : m.step c with
    | error verdict =>
      rw [hstep] at htells
      have hpulled : (text ++ c :: rest).length - rest.length = m.column + 1 := by
        simp only [List.length_append, List.length_cons, h.column]
        omega
      show Concluded _ ((text ++ c :: rest).length - rest.length) _ verdict.log.reverse.reverse
      rw [hpulled, List.reverse_reverse]
      exact htells
    | ok next =>
      rw [hstep] at htells hreads
      cases hreads with
      | onward behind =>
        rw [List.append_cons] at htells ⊢
        exact ih htells behind

end Machine

/-- How the log of an evaluation tells of its end. -/
theorem evaluation_concluded [Numbers ν] (capacity : Option Nat) (source : List Char) :
    Concluded source ((evaluation capacity source : Report ν).consumption source).pulled
      (evaluation capacity source : Report ν).result
      (evaluation capacity source : Report ν).log.reverse := by
  rcases Machine.start_spec (ν := ν) capacity with
    ⟨m, hstart, hbehind⟩ | ⟨-, verdict, hstart, hresult, hlog⟩
  · rw [evaluation_of_start hstart]
    have htold : m.Told ([] ++ source) := Machine.told_of_start hstart source
    exact htold.feed hbehind
  · unfold evaluation
    rw [hstart]
    show Concluded source (source.length - source.length) verdict.result
      verdict.log.reverse.reverse
    rw [hresult, hlog, Nat.sub_self]
    exact .fault .nil (by simp)

namespace Concluded

variable [Numbers ν] {source : List Char} {n : Nat} {result : Except Fault ν}
  {log : List (Record ν)}

theorem exists_chronicle (h : Concluded source n result log) : ∃ r, Chronicle source n log r := by
  cases h with
  | fault chronicle pending => exact ⟨_, chronicle⟩
  | value chronicle pending => exact ⟨_, chronicle⟩

/-- A record of a value is the latest one, and there is that value. -/
theorem of_evaluated (h : Concluded source n result log) {r : Record ν} (hr : r ∈ log) {value : ν}
    (hevent : r.event = .evaluated value) :
    result = .ok value ∧ r.column = n ∧ log.head? = some r := by
  have hkind : r.event.kind = .evaluated := by rw [hevent]; rfl
  cases h with
  | fault chronicle pending => exact absurd hkind (pending r hr)
  | value chronicle pending =>
    rcases List.mem_cons.mp hr with rfl | hr
    · cases hevent
      exact ⟨rfl, rfl, rfl⟩
    · exact absurd hkind (pending r hr)

/-- A value has been recorded, and is all that is left. -/
theorem of_ok {value : ν} (h : Concluded source n (.ok value) log) :
    log.head? = some ⟨n, .evaluated value⟩ ∧ Replays source n log ⟨['='], [value]⟩ := by
  cases h with
  | value chronicle pending => exact ⟨rfl, chronicle.replays⟩

end Concluded

/-- **The log is a faithful history of the evaluation.**  Its records come in order, and belong to
the characters that were pulled.  Together with the signs of the source it can be read, and in one
way only: every record tells of what is on top of the two stacks when its turn comes, as
`Replica.Admits` has it.  There is a record of a value if and only if there is a value; it is the
last one, and then nothing but that value and the mark at the bottom is left.  So everything pushed
has been folded or closed, and all values but one have been consumed. -/
theorem log_faithful [Numbers ν] (capacity : Option Nat) (source : List Char) :
    let report : Report ν := evaluation capacity source
    let pulled := (report.consumption source).pulled
    report.log.Pairwise Record.Precedes ∧
    (∀ r ∈ report.log, 1 ≤ r.column ∧ r.column ≤ pulled) ∧
    (∃! replica, Replays source pulled report.log.reverse replica) ∧
    (∀ r ∈ report.log, ∀ value, r.event = .evaluated value →
      report.result = .ok value ∧ r.column = pulled ∧ report.log.getLast? = some r) ∧
    (∀ value, report.result = .ok value →
      report.log.getLast? = some ⟨pulled, .evaluated value⟩ ∧
      Replays source pulled report.log.reverse ⟨['='], [value]⟩ ∧
      tally .push report.log = tally .fold report.log + tally .close report.log ∧
      tally .commit report.log + signs source pulled = tally .fold report.log + 1) := by
  intro report pulled
  have hconcluded : Concluded source pulled report.result report.log.reverse :=
    evaluation_concluded capacity source
  obtain ⟨replica, hchronicle⟩ := hconcluded.exists_chronicle
  have hreplays := hchronicle.replays
  refine ⟨List.pairwise_reverse.mp hchronicle.ordered, ?_, ?_, ?_, ?_⟩
  · intro r hr
    have hreverse : r ∈ report.log.reverse := List.mem_reverse.mpr hr
    exact ⟨hchronicle.column_pos r hreverse, hreplays.column_le r hreverse⟩
  · exact ⟨replica, hreplays, fun other hother => hother.unique hreplays⟩
  · intro r hr value hevent
    have h := hconcluded.of_evaluated (List.mem_reverse.mpr hr) hevent
    rwa [List.head?_reverse] at h
  · intro value hresult
    rw [hresult] at hconcluded
    obtain ⟨hhead, hleft⟩ := hconcluded.of_ok
    have hsymbols := hleft.symbols_balance
    have hvalues := hleft.values_balance
    simp only [tally_reverse, List.length_singleton] at hsymbols hvalues
    rw [List.head?_reverse] at hhead
    exact ⟨hhead, hleft, by omega, by omega⟩

/-- A product with a sign: one commit for each literal, one push and one fold for each operation. -/
theorem log_of_product_with_sign :
    ∃ value : Float,
      (evaluation (some 4) ['2', '*', '-', '3', '='] : Report Float).result = .ok value ∧
      (evaluation (some 4) ['2', '*', '-', '3', '='] : Report Float).log.getLast? =
        some ⟨5, .evaluated value⟩ ∧
      Replays ['2', '*', '-', '3', '='] 5
        (evaluation (some 4) ['2', '*', '-', '3', '='] : Report Float).log.reverse
        ⟨['='], [value]⟩ := by
  have h := (log_faithful (ν := Float) (some 4) ['2', '*', '-', '3', '=']).2.2.2.2 _ rfl
  exact ⟨_, rfl, h.1, h.2.1⟩

end OperatorPrecedence
