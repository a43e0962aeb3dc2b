import Mathlib
import OperatorPrecedence.Proofs.Capacity

/-!
# How deep the stacks get

The stacks get as deep as parentheses are nested and operations stand in a row, however long a
source is.  In every layer of the operator stack there is an addition or subtraction at most, then
a multiplication or division at most, and then signs.  The signs stand directly behind one
another, so they belong to a single run of operations; the next operation that is no sign has them
applied before it is pushed.  What is missing from a malformed source only makes the operand stack
shorter.

## Main definitions

* `run`, `longestRun` — operations in a row, at the end of a text and in a source.
* `nesting` — how many parentheses are open at most.
* `crowd` — the operations on top of an operator stack.
* `Machine.Spaced` — a machine with no more operations on its stack than stand in a row.
* `Passed` — the machines that an evaluation passes through.

## Main results

* `Stacked.length_le_of_crowd` — the length of a stack from its layers.
* `Machine.GoesOn.spaced` — a character adds to a layer no more than to a run.
* `Passed.operands_le`, `Passed.operators_le` — the stacks of the machines passed through.
* `depth_bounded` — **the stacks are bounded by nesting and runs**.
-/

namespace OperatorPrecedence

/-! ### Runs of operations -/

/-- The number of operations in a row at the end of a text. -/
def run (text : List Char) : Nat := (text.reverse.takeWhile isOperation).length

/-- The number of operations in the longest row of them in a source. -/
def longestRun (source : List Char) : Nat :=
  (Finset.range (source.length + 1)).sup fun n => run (source.take n)

@[simp] theorem run_append_singleton (text : List Char) (c : Char) :
    run (text ++ [c]) = if isOperation c then run text + 1 else 0 := by
  unfold run
  rw [List.reverse_append, List.reverse_singleton, List.singleton_append]
  by_cases h : isOperation c = true
  · rw [List.takeWhile_cons_of_pos h, List.length_cons, if_pos h]
  · rw [List.takeWhile_cons_of_neg h, List.length_nil, if_neg h]

theorem run_le_longestRun {text source : List Char} (h : text <+: source) :
    run text ≤ longestRun source := by
  have htake : source.take text.length = text := (List.prefix_iff_eq_take.mp h).symm
  have hmem : text.length ∈ Finset.range (source.length + 1) := by
    have hlength := h.length_le
    exact Finset.mem_range.mpr (by omega)
  have hle := Finset.le_sup (f := fun n => run (source.take n)) hmem
  rwa [htake] at hle

/-- Where no two operations are neighbours, they stand alone. -/
theorem longestRun_le_one {source : List Char}
    (h : source.IsChain fun c d => isOperation c = true → isOperation d = false) :
    longestRun source ≤ 1 := by
  refine Finset.sup_le ?_
  intro n _
  obtain ⟨rest, hrest⟩ := List.take_prefix n source
  generalize source.take n = text at hrest
  rcases List.eq_nil_or_concat text with rfl | ⟨before, d, rfl⟩
  · exact Nat.zero_le 1
  · rw [List.concat_eq_append, run_append_singleton]
    rcases List.eq_nil_or_concat before with rfl | ⟨before, c, rfl⟩
    · split <;> simp [run]
    · have hsource : source = before ++ c :: d :: rest := by simp [← hrest]
      have hpair := (List.isChain_append_cons_cons.mp (hsource ▸ h)).2.1
      rw [List.concat_eq_append, run_append_singleton]
      by_cases hc : isOperation c = true
      · simp [hpair hc]
      · simp only [hc]
        split <;> simp

/-! ### Nesting -/

/-- The number of parentheses that are open at most, in front of the first terminator. -/
def nesting (source : List Char) : Nat :=
  let text := source.takeWhile (· ≠ '=')
  (Finset.range (text.length + 1)).sup fun n =>
    (text.take n).count '(' - (text.take n).count ')'

theorem count_sub_count_le_nesting {text source : List Char} (h : text <+: source)
    (hunterminated : '=' ∉ text) : text.count '(' - text.count ')' ≤ nesting source := by
  obtain ⟨rest, rfl⟩ := h
  have htext : ∀ c ∈ text, decide (c ≠ '=') = true := by
    intro c hc
    simpa using fun heq : c = '=' => hunterminated (heq ▸ hc)
  unfold nesting
  rw [List.takeWhile_append_of_pos htext]
  have hmem : text.length ∈
      Finset.range ((text ++ rest.takeWhile (· ≠ '=')).length + 1) := by
    rw [List.length_append]
    exact Finset.mem_range.mpr (by omega)
  have hle := Finset.le_sup (f := fun n =>
    ((text ++ rest.takeWhile (· ≠ '=')).take n).count '(' -
      ((text ++ rest.takeWhile (· ≠ '=')).take n).count ')') hmem
  rwa [List.take_left] at hle

theorem nesting_eq_zero {source : List Char} (h : '(' ∉ source) : nesting source = 0 := by
  refine Nat.le_zero.mp (Finset.sup_le ?_)
  intro n _
  have hnone : '(' ∉ (source.takeWhile (· ≠ '=')).take n := by
    intro hmem
    exact h (List.takeWhile_subset _ (List.mem_of_mem_take hmem))
  rw [List.count_eq_zero_of_not_mem hnone]
  exact Nat.zero_sub _ |>.le

/-! ### Layers of a stack -/

/-- The number of operations on top of a stack of operators, down to the first parenthesis or to
the mark at the bottom. -/
def crowd (items : List Operator) : Nat :=
  (items.takeWhile fun op => op.operation?.isSome).length

theorem crowd_cons_of_isSome {op : Operator} (h : op.operation?.isSome = true)
    (items : List Operator) : crowd (op :: items) = crowd items + 1 := by
  unfold crowd
  rw [List.takeWhile_cons_of_pos (by exact h), List.length_cons]

theorem crowd_cons_of_eq_none {op : Operator} (h : op.operation? = none)
    (items : List Operator) : crowd (op :: items) = 0 := by
  unfold crowd
  rw [List.takeWhile_cons_of_neg (by simp [h]), List.length_nil]

namespace Stacked

variable {items rest : List Operator}

/-- An operation that is no sign is the first or the second of its layer. -/
theorem crowd_binary_le {operation : Operation} (h : Stacked (.binary operation :: rest)) :
    crowd (.binary operation :: rest) ≤ 2 := by
  have halone : ∀ {top : Operator} {below : List Operator}, top.operation? = none →
      crowd (.binary operation :: top :: below) ≤ 2 := by
    intro top below htop
    rw [crowd_cons_of_isSome rfl, crowd_cons_of_eq_none htop]
    omega
  cases h with
  | @push _ top rest below stands =>
    have hlooser := stands.1
    cases top with
    | opening => exact halone rfl
    | closing => exact halone rfl
    | terminator => exact halone rfl
    | sign operation => cases hlooser
    | binary lower =>
      -- what is below is an addition or subtraction, and nothing binds looser than that
      have hadditive : lower.isAdditive = true := by
        by_contra hscaling
        simp [Operator.binding?, hscaling] at hlooser
      cases below with
      | @push _ top rest below stands =>
        have hlowest := stands.1
        have htop : top.operation? = none := by
          cases top <;> simp [Operator.binding?, hadditive, Operator.operation?] at hlowest ⊢
        rw [crowd_cons_of_isSome rfl, crowd_cons_of_isSome rfl, crowd_cons_of_eq_none htop]

/-- **The length of a stack from its layers**: the mark at the bottom, the parentheses, and the
operations on each of them. -/
theorem length_le_of_crowd {s : Nat} (h : Stacked items)
    (hs : ∀ below, below <:+ items → crowd below ≤ s) :
    items.length ≤ 1 + items.count .opening + items.count .opening * s + crowd items := by
  induction h with
  | bottom => simp
  | @push op top rest below stands ih =>
    have hbelow := ih fun other hother => hs other (hother.trans (List.suffix_cons _ _))
    have hcrowd := hs (top :: rest) (List.suffix_cons _ _)
    by_cases hop : op.operation?.isSome = true
    · have hopening : op ≠ .opening := by
        rintro rfl
        cases hop
      rw [crowd_cons_of_isSome hop, List.count_cons_of_ne hopening, List.length_cons]
      omega
    · have hopening : op = .opening := by
        cases op with
        | binary operation => exact absurd rfl hop
        | sign operation => exact absurd rfl hop
        | opening => rfl
        | closing => exact absurd rfl (below.push stands).ne_closing
        | terminator => cases (below.push stands).eq_nil_of_terminator
      subst hopening
      rw [List.count_cons_self, List.length_cons, Nat.succ_mul]
      omega

end Stacked

/-! ### What an operator means -/

/-- The character of an operator is that of an operation, or the operator is none. -/
theorem Token.operator_cases {c : Char} {token : Token} {op : Operator}
    (htoken : ofChar? c = some token) (hop : token.operator? = some op) :
    (∃ operation, op = .binary operation ∧ isOperation c = true) ∨ op.operation? = none := by
  cases CharClass.of c with
  | numeric h =>
    obtain ⟨other, hother, hnone⟩ := ofChar?_of_numeric h
    cases hother.symm.trans htoken
    cases hnone.symm.trans hop
  | operation operation =>
    refine .inl ⟨operation, ?_, isOperation_symbol operation⟩
    cases operation <;> cases htoken <;> cases hop <;> rfl
  | foreign h => cases (ofChar?_of_foreign h).symm.trans htoken
  | _ =>
    cases htoken
    cases hop
    exact .inr rfl

namespace Machine

variable {ν : Type} [Numbers ν] {m n : Machine ν} {op incoming : Operator}

/-- An operator is what it says, unless it is a sign behind another operator. -/
theorem incoming_of_interpret (h : m.interpret op = .ok (incoming, n)) :
    incoming = op ∨ (m.preceding = .operator ∧
      ∃ operation, op = .binary operation ∧ incoming = .sign operation) := by
  cases op with
  | binary operation =>
    cases hadditive : operation.isAdditive with
    | false =>
      rw [interpret_of_not_additive m hadditive] at h
      cases h
      exact .inl rfl
    | true =>
      unfold interpret at h
      simp only [hadditive] at h
      cases hp : m.preceding with
      | operand | closing =>
        rw [hp] at h
        cases h
        exact .inl rfl
      | nothing | opening | operator =>
        rw [hp] at h
        cases hput : m.putOperand (Numbers.zero : ν) with
        | error verdict => rw [hput] at h; cases h
        | ok supplied =>
          rw [hput] at h
          cases h
          simp
  | _ =>
    cases h
    exact .inl rfl

namespace Turn

/-- Nothing is put on the operator stack at a turn. -/
theorem operators_suffix (h : Turn m op incoming n) :
    n.operators.items <:+ m.operators.items := by
  refine h.preserves (P := fun k => k.operators.items <:+ m.operators.items) List.suffix_rfl
    (fun _ => List.suffix_rfl) (fun _ hk => hk) ?_
  intro k top rest operation left right hitems hoperation hk
  exact (List.tail_suffix _).trans hk

/-- At a turn an operator is what it says, or it is a sign behind another operator, and nothing
has been applied for it. -/
theorem incoming_cases (h : Turn m op incoming n) :
    incoming = op ∨ (m.preceding = .operator ∧ n.operators = m.operators ∧
      ∃ operation, op = .binary operation ∧ incoming = .sign operation) := by
  induction h with
  | @first committed n incoming commit meaning placed =>
    have hcommitted : committed.preceding = m.preceding ∧ committed.operators = m.operators := by
      rcases eq_of_commitLiteral commit with ⟨-, rfl⟩ | ⟨-, rfl⟩ <;> exact ⟨rfl, rfl⟩
    rcases incoming_of_interpret meaning with hsame | ⟨hpreceding, hsign⟩
    · exact .inl hsame
    · refine .inr ⟨hcommitted.1.symm.trans hpreceding, ?_, hsign⟩
      rcases eq_of_interpret meaning with rfl | rfl <;> exact hcommitted.2
  | again turn items tighter apply ih =>
    rcases ih with hsame | ⟨-, -, operation, -, rfl⟩
    · exact .inl hsame
    · cases tighter

end Turn

/-! ### Operations on the stack and operations in a row -/

/-- **A machine with no more operations on its stack than stand in a row** in the text that it
has read: one more in a layer, which is the addition or subtraction in front of the run. -/
structure Spaced (r : Nat) (text : List Char) (m : Machine ν) : Prop where
  /-- No layer has more operations than the longest run, and one more. -/
  layers : ∀ below, below <:+ m.operators.items → crowd below ≤ r + 1
  /-- Behind an operation, the last layer has no more than the run that ends there, and one
  more. -/
  last : m.preceding = .operator → crowd m.operators.items ≤ run text + 1

variable {next : Machine ν} {top : Operator} {rest : List Operator} {text : List Char} {c : Char}
  {r : Nat}

/-- An operator that is pushed adds to its layer no more than its character to the run. -/
theorem Turn.crowd_push_le (turn : Turn m op incoming n) (items : n.operators.items = top :: rest)
    (looser : top.binding? incoming = some .looser) (hstacked : Stacked m.operators.items)
    (hm : m.Spaced r text)
    (hop : (∃ operation, op = .binary operation ∧ isOperation c = true) ∨ op.operation? = none) :
    crowd (incoming :: n.operators.items) ≤ run (text ++ [c]) + 1 := by
  rcases turn.incoming_cases with rfl | ⟨hpreceding, hoperators, operation, rfl, rfl⟩
  · rcases hop with ⟨operation, rfl, hc⟩ | hnone
    · -- whatever was tighter has been applied
      have hpushed : Stacked (.binary operation :: n.operators.items) := by
        have hbelow := turn.stacked hstacked
        rw [items] at hbelow ⊢
        exact hbelow.push ⟨looser, nofun⟩
      have hcrowd := hpushed.crowd_binary_le
      rw [run_append_singleton, if_pos hc]
      omega
    · rw [crowd_cons_of_eq_none hnone]
      exact Nat.zero_le _
  · -- a sign goes on the operation directly in front of it
    have hlast := hm.last hpreceding
    have hc : isOperation c = true := by
      rcases hop with ⟨-, -, hc⟩ | hnone
      · exact hc
      · cases hnone
    rw [crowd_cons_of_isSome rfl, hoperators, run_append_singleton, if_pos hc]
    omega

/-- **A character adds to a layer no more than to a run.** -/
theorem GoesOn.spaced (h : m.GoesOn c next) (hstacked : Stacked m.operators.items)
    (hm : m.Spaced r text) (hrun : run (text ++ [c]) ≤ r) : next.Spaced r (text ++ [c]) := by
  have hadvanced : m.advanced.Spaced r text := ⟨hm.layers, hm.last⟩
  cases h with
  | gathered numeric apart => exact ⟨hm.layers, nofun⟩
  | @pushed n token op incoming top rest stands operator turn items looser room =>
    have hcrowd := turn.crowd_push_le items looser hstacked hadvanced
      (Token.operator_cases stands operator)
    refine ⟨?_, fun _ => hcrowd⟩
    intro below hbelow
    rcases List.suffix_cons_iff.mp hbelow with rfl | hbelow
    · exact Nat.le_trans hcrowd (by omega)
    · exact hm.layers below (hbelow.trans turn.operators_suffix)
  | @closed n token op rest stands operator turn items =>
    refine ⟨?_, nofun⟩
    intro below hbelow
    exact hm.layers below ((hbelow.trans (List.tail_suffix _)).trans turn.operators_suffix)

/-- At the start there is the mark at the bottom, and no operation. -/
theorem spaced_of_start {capacity : Option Nat} {first : Machine ν}
    (hstart : start capacity = .ok first) (r : Nat) : first.Spaced r [] := by
  obtain rfl := eq_of_start hstart
  refine ⟨?_, nofun⟩
  intro below hbelow
  have hlength : crowd below ≤ below.length := (List.takeWhile_sublist _).length_le
  have hle : below.length ≤ 1 := hbelow.length_le
  omega

/-- A machine that has read the beginning of a source is spaced as the longest run of it
allows. -/
theorem spaced_of_feed {capacity : Option Nat} {source : List Char} {first : Machine ν}
    (hstart : start capacity = .ok first) (hfeed : first.feed text = .waiting m)
    (hbegins : text <+: source) : m.Spaced (longestRun source) text := by
  have hfeeds := (behind_of_start hstart).feed_induction
    (P := fun text m => text <+: source → m.Spaced (longestRun source) text) ?_
    (fun _ => spaced_of_start hstart _) hfeed
  · exact hfeeds hbegins
  · intro text m next c hbehind hm hgoes hsource
    exact hgoes.spaced hbehind.stacked (hm ((List.prefix_append ..).trans hsource))
      (run_le_longestRun hsource)

/-! ### The machines that an evaluation passes through -/

/-- **The moves of a machine that accepts an operator**, up to where the operator is placed: the
literal has been committed, or zero has been supplied to a sign, or operators have been
applied. -/
inductive Accepting (m : Machine ν) (op : Operator) : Machine ν → Prop
  | committed {n : Machine ν} (commit : m.commitLiteral = .ok n) : Accepting m op n
  | meant {committed n : Machine ν} {incoming : Operator} (commit : m.commitLiteral = .ok committed)
      (meaning : committed.interpret op = .ok (incoming, n)) : Accepting m op n
  | turn {n : Machine ν} {incoming : Operator} (turn : Turn m op incoming n) : Accepting m op n

/-- Nothing is put on the operator stack before the operator is placed, and the stack is one that
precedence allows. -/
theorem Accepting.operators (h : Accepting m op n) (hstacked : Stacked m.operators.items) :
    n.operators.items <:+ m.operators.items ∧ Stacked n.operators.items := by
  cases h with
  | committed commit =>
    rcases eq_of_commitLiteral commit with ⟨-, rfl⟩ | ⟨-, rfl⟩ <;>
      exact ⟨List.suffix_rfl, hstacked⟩
  | meant commit meaning =>
    have hoperators : n.operators = m.operators :=
      interpret_preserves (P := fun k => k.operators = m.operators) commit meaning rfl
        (fun _ => rfl) (fun _ hk => hk)
    rw [hoperators]
    exact ⟨List.suffix_rfl, hstacked⟩
  | turn turn => exact ⟨turn.operators_suffix, turn.stacked hstacked⟩

namespace Behind

variable {capacity : Option Nat}

/-- Zero is supplied only where an operand is to begin. -/
theorem operands_le_of_interpret (h : Behind capacity text m) {committed : Machine ν}
    (commit : m.advanced.commitLiteral = .ok committed)
    (meaning : committed.interpret op = .ok (incoming, n)) :
    n.operands.size ≤ waiting n.operators.items + 1 := by
  obtain ⟨primed, hprimed, hbalance, hpreceding, -⟩ := h.commitLiteral
  cases hprimed.symm.trans commit
  have hshort := hbalance.balance
  have hn := eq_ite_of_interpret meaning
  rw [hpreceding, h.endsOperand_preceding] at hn
  split at hn
  · next hzero =>
    rw [Bool.and_eq_true] at hzero
    rw [hzero.2, Bool.toNat_true] at hshort
    rw [hn]
    show committed.operands.size + 1 ≤ waiting committed.operators.items + 1
    omega
  · rw [hn]
    omega

/-- Neither a commit nor the zero of a sign nor the result of an operation is one operand too
many. -/
theorem operands_le_of_accepting (h : Behind capacity text m)
    (haccepting : Accepting m.advanced op n) :
    n.operands.size ≤ waiting n.operators.items + 1 := by
  cases haccepting with
  | committed commit =>
    obtain ⟨primed, hprimed, hbalance, -⟩ := h.commitLiteral
    cases hprimed.symm.trans commit
    have hshort := hbalance.balance
    omega
  | meant commit meaning => exact h.operands_le_of_interpret commit meaning
  | turn turn =>
    induction turn with
    | first commit meaning placed => exact h.operands_le_of_interpret commit meaning
    | again turn items tighter apply ih =>
      obtain ⟨top, rest, operation, right, left, below, hitems, hoperation, hoperands, rfl⟩ :=
        eq_folded_of_applyTop apply
      -- the operation takes two operands and leaves one
      simp only [Stack.size, hitems, hoperands, waiting_cons, hoperation, List.length_cons,
        Option.isSome_some, Bool.toNat_true] at ih
      simp only [folded, record, withOperand, Stack.size, Stack.items_cover, Stack.items_uncover,
        hitems, hoperands, List.tail_cons, List.length_cons]
      omega

end Behind

end Machine

variable {ν : Type} [Numbers ν]

/-- **A machine that an evaluation passes through**: between two characters, or while it accepts
an operator.  So there is one for every entry that is put on a stack. -/
inductive Passed (capacity : Option Nat) (source : List Char) : Machine ν → Prop
  | between {text rest : List Char} {first m : Machine ν} (source_eq : source = text ++ rest)
      (start : Machine.start capacity = .ok first) (feed : first.feed text = .waiting m) :
      Passed capacity source m
  | within {text rest : List Char} {c : Char} {first m n : Machine ν} {token : Token}
      {op : Operator} (source_eq : source = text ++ c :: rest)
      (start : Machine.start capacity = .ok first) (feed : first.feed text = .waiting m)
      (stands : Token.ofChar? c = some token) (operator : token.operator? = some op)
      (accepting : m.advanced.Accepting op n) : Passed capacity source n

/-- The most operators that nesting and runs allow. -/
def depthBound (source : List Char) : Nat :=
  1 + nesting source + (nesting source + 1) * (longestRun source + 1)

/-- The operators of a machine that has read the beginning of a source. -/
theorem Machine.operators_le_of_feed {capacity : Option Nat} {text source : List Char}
    {first m : Machine ν} (hstart : start capacity = .ok first)
    (hfeed : first.feed text = .waiting m) (hbegins : text <+: source) :
    m.operators.size ≤ depthBound source := by
  have hbehind := behind_of_feed hstart hfeed
  have hspaced := spaced_of_feed hstart hfeed hbegins
  have hlength := hbehind.stacked.length_le_of_crowd hspaced.layers
  have hcrowd := hspaced.layers m.operators.items List.suffix_rfl
  have hopen : m.operators.items.count .opening ≤ nesting source := by
    have hnesting := count_sub_count_le_nesting hbegins hbehind.unterminated
    have hdepth := hbehind.depth
    omega
  have hlayers := Nat.mul_le_mul_right (longestRun source + 1) hopen
  unfold Stack.size depthBound
  rw [Nat.succ_mul]
  omega

namespace Passed

variable {capacity : Option Nat} {source : List Char} {m : Machine ν}

/-- The operator stack is as deep as nesting and runs allow. -/
theorem operators_le (h : Passed capacity source m) : m.operators.size ≤ depthBound source := by
  cases h with
  | between source_eq start feed =>
    exact Machine.operators_le_of_feed start feed ⟨_, source_eq.symm⟩
  | within source_eq start feed stands operator accepting =>
    have hbefore := Machine.operators_le_of_feed start feed ⟨_, source_eq.symm⟩
    have hstacked := (Machine.behind_of_feed start feed).stacked
    exact Nat.le_trans (accepting.operators hstacked).1.length_le hbefore

/-- The operand stack is no longer than the operator stack, which has the mark at the bottom. -/
theorem operands_le (h : Passed capacity source m) : m.operands.size ≤ m.operators.size := by
  cases h with
  | @between text rest first m source_eq start feed =>
    have hbehind := Machine.behind_of_feed start feed
    have hwaiting := hbehind.stacked.waiting_lt
    have hbalance := hbehind.balance
    have hends := Bool.toNat_le (endsOperand text)
    unfold Stack.size at hbalance ⊢
    omega
  | within source_eq start feed stands operator accepting =>
    have hbehind := Machine.behind_of_feed start feed
    exact Nat.le_trans (hbehind.operands_le_of_accepting accepting)
      (accepting.operators hbehind.stacked).2.waiting_lt

end Passed

/-- With room for what nesting and runs allow, an evaluation is the one without a limit. -/
theorem evaluation_of_depthBound_le {source : List Char} {c : Nat} (h : depthBound source ≤ c) :
    (evaluation (some c) source : Report ν) = evaluation none source := by
  have hc : 1 ≤ c := by
    unfold depthBound at h
    omega
  rcases evaluation_within (ν := ν) hc source with ⟨hsame, -⟩ | ⟨column, op, top, n, hfirst, -⟩
  · exact hsame
  · obtain ⟨text, rest, d, first, hsource, -, hstart, hnext⟩ := hfirst.pushed.exists_reading
    have hpassed : Passed none source (n.withPush op top) :=
      .between (by rw [hsource, List.append_cons]) hstart hnext
    have hfits := hpassed.operators_le
    have hbeyond := hfirst.beyond
    omega

/-- **The stacks are bounded by nesting and runs**, not by the length of a source.  Whatever the
source, and whatever the capacity, the operator stack is never deeper than the parentheses that are
open at most and the longest run of operations allow, and the operand stack never longer than the
operator stack.  So with room for as many entries an evaluation is the one without a limit; and
without parentheses and without operations next to each other, three entries are enough. -/
theorem depth_bounded (source : List Char) :
    (∀ (capacity : Option Nat) (m : Machine ν), Passed capacity source m →
      m.operators.size ≤ depthBound source ∧ m.operands.size ≤ m.operators.size) ∧
    (∀ c, depthBound source ≤ c →
      (evaluation (some c) source : Report ν) = evaluation none source) ∧
    ('(' ∉ source →
      (source.IsChain fun c d => isOperation c = true → isOperation d = false) →
      ∀ c, 3 ≤ c → (evaluation (some c) source : Report ν) = evaluation none source) := by
  refine ⟨?_, ?_, ?_⟩
  · intro capacity m hm
    exact ⟨hm.operators_le, hm.operands_le⟩
  · intro c hc
    exact evaluation_of_depthBound_le hc
  · intro hflat hapart c hc
    have hrun := longestRun_le_one hapart
    refine evaluation_of_depthBound_le ?_
    unfold depthBound
    rw [nesting_eq_zero hflat]
    omega

/-- A group in which a sign stands behind a product, and a sum without parentheses. -/
theorem depth_of_sign_in_group :
    let source := ['(', '1', '+', '2', '*', '-', '3', ')', '=']
    let sum := ['1', '+', '2', '*', '3', '=']
    (∃ m : Machine Float, Passed none source m ∧ m.operators.size = 5 ∧
      m.operators.size ≤ depthBound source ∧ m.operands.size ≤ m.operators.size) ∧
    (evaluation (some 8) source : Report Float) = evaluation none source ∧
    (evaluation (some 3) sum : Report Float) = evaluation none sum := by
  intro source sum
  refine ⟨?_, ?_, ?_⟩
  · obtain ⟨first, m, hstart, hfeed, hsize⟩ : ∃ first m : Machine Float,
        Machine.start none = .ok first ∧
        first.feed ['(', '1', '+', '2', '*', '-'] = .waiting m ∧ m.operators.size = 5 :=
      ⟨_, _, rfl, rfl, rfl⟩
    have hsource : source = ['(', '1', '+', '2', '*', '-'] ++ ['3', ')', '='] := rfl
    have hpassed : Passed none source m := .between hsource hstart hfeed
    exact ⟨m, hpassed, hsize, (depth_bounded source).1 none m hpassed⟩
  · exact (depth_bounded source).2.1 8 (by decide)
  · exact (depth_bounded sum).2.2 (by decide) (by decide) 3 (by decide)

end OperatorPrecedence
