import Mathlib.Data.Seq.Basic
import OperatorPrecedence.Proofs.Faults

/-!
# What an evaluation takes from its source

A source of characters need not have an end.  It is read by pulling one character after
another, until the machine stops or there is none left, and what is told here is how
far this goes: to the terminator and never past it, or to the character that a fault is
reported for.  What has not been pulled cannot matter.

A source that has an end is a list, and pulling its characters comes to what
`OperatorPrecedence.evaluation` says.

## Main definitions

* `Consumption` — the outcome of an evaluation, with how much of its source it took.
* `Machine.Pulls`, `Consumes` — evaluating a stream of characters, with or without an end.
* `Machine.Takes` — how the evaluation of a stream can end.

## Main results

* `Consumes.unique`, `Consumes.congr` — what is pulled determines the outcome.
* `consumes_ofList` — streams that have an end are evaluated as lists are.
* `consumption_exact` — **an evaluation takes what it needs and nothing else**.
-/

namespace OperatorPrecedence

open Stream' (Seq)

variable {ν : Type}

/-- The outcome of evaluating a stream. -/
structure Consumption (ν : Type) where
  /-- The value of the expression, or what went wrong. -/
  result : Except Fault ν
  /-- What has been done, the earliest record first. -/
  log : List (Record ν)
  /-- The number of characters that were pulled. -/
  pulled : Nat
  /-- Whether another character was asked for when there was none. -/
  exhausted : Bool

/-- What the report on a source says of its consumption. -/
def Report.consumption (report : Report ν) (source : List Char) : Consumption ν :=
  ⟨report.result, report.log, source.length - report.unread.length, report.exhausted⟩

variable [Numbers ν]

/-- **Pulling the characters of a stream**, from a position on, until the machine stops or
the stream ends. -/
inductive Machine.Pulls (s : Seq Char) : Machine ν → Nat → Consumption ν → Prop
  /-- There is no character left. -/
  | ended {m : Machine ν} {n : Nat} (atEnd : s.get? n = none) :
      Pulls s m n ⟨m.endOfInput.result, m.endOfInput.log, n, true⟩
  /-- The next character stops the machine. -/
  | stopped {m : Machine ν} {n : Nat} {c : Char} {verdict : Verdict ν}
      (char : s.get? n = some c) (step : m.step c = .error verdict) :
      Pulls s m n ⟨verdict.result, verdict.log.reverse, n + 1, false⟩
  /-- The machine reads the next character and goes on. -/
  | onward {m next : Machine ν} {n : Nat} {c : Char} {outcome : Consumption ν}
      (char : s.get? n = some c) (step : m.step c = .ok next)
      (rest : Pulls s next (n + 1) outcome) :
      Pulls s m n outcome

/-- **Evaluating a stream**, on stacks of the given capacity. -/
inductive Consumes (capacity : Option Nat) (s : Seq Char) : Consumption ν → Prop
  /-- There is no machine to begin with. -/
  | noRoom {verdict : Verdict ν} (start : Machine.start capacity = .error verdict) :
      Consumes capacity s ⟨verdict.result, verdict.log.reverse, 0, false⟩
  /-- The characters are pulled from the first one on. -/
  | pulls {m : Machine ν} {outcome : Consumption ν} (start : Machine.start capacity = .ok m)
      (pulls : m.Pulls s 0 outcome) : Consumes capacity s outcome

namespace Machine.Pulls

variable {s t : Seq Char} {m : Machine ν} {n : Nat} {outcome other : Consumption ν}

/-! ### What is pulled determines the outcome -/

theorem le_pulled (h : Pulls s m n outcome) : n ≤ outcome.pulled := by
  induction h with
  | ended => exact Nat.le_refl _
  | stopped => exact Nat.le_succ _
  | onward _ _ _ ih => exact Nat.le_of_succ_le ih

theorem step_unique {c c' : Char} {x y : Except (Verdict ν) (Machine ν)}
    (char : s.get? n = some c) (char' : s.get? n = some c') (step : m.step c = x)
    (step' : m.step c' = y) : x = y := by
  obtain rfl := Option.some.inj (char.symm.trans char')
  exact step.symm.trans step'

/-- Pulling characters cannot come to two things. -/
theorem unique (h : Pulls s m n outcome) (hother : Pulls s m n other) : outcome = other := by
  induction h with
  | ended atEnd =>
    cases hother with
    | ended => rfl
    | stopped char => simp [atEnd] at char
    | onward char => simp [atEnd] at char
  | stopped char step =>
    cases hother with
    | ended atEnd => simp [atEnd] at char
    | stopped char' step' =>
      cases step_unique char char' step step'
      rfl
    | onward char' step' => cases step_unique char char' step step'
  | onward char step _ ih =>
    cases hother with
    | ended atEnd => simp [atEnd] at char
    | stopped char' step' => cases step_unique char char' step step'
    | onward char' step' rest' =>
      cases step_unique char char' step step'
      exact ih rest'

/-- Another stream with the same characters as far as they are pulled comes to the same. -/
theorem congr (h : Pulls s m n outcome) (hsame : ∀ k < outcome.pulled, t.get? k = s.get? k)
    (hend : outcome.exhausted = true → t.get? outcome.pulled = none) : Pulls t m n outcome := by
  induction h with
  | ended atEnd => exact .ended (hend rfl)
  | stopped char step => exact .stopped ((hsame _ (Nat.lt_succ_self _)).trans char) step
  | onward char step rest ih =>
    have hlt := Nat.lt_of_succ_le rest.le_pulled
    exact .onward ((hsame _ hlt).trans char) step (ih hsame hend)

/-- What was pulled was there, and what was asked for in vain was not. -/
theorem get?_isSome (h : Pulls s m n outcome) :
    (∀ k, n ≤ k → k < outcome.pulled → (s.get? k).isSome) ∧
      (outcome.exhausted = true → s.get? outcome.pulled = none) := by
  induction h with
  | ended atEnd => exact ⟨fun k hle hlt => absurd hlt (Nat.not_lt.mpr hle), fun _ => atEnd⟩
  | @stopped m n c verdict char step =>
    refine ⟨?_, fun h => by cases h⟩
    intro k hle hlt
    obtain rfl : k = n := Nat.le_antisymm (Nat.le_of_lt_succ hlt) hle
    rw [char, Option.isSome_some]
  | @onward m next n c outcome char step rest ih =>
    refine ⟨?_, ih.2⟩
    intro k hle hlt
    rcases Nat.eq_or_lt_of_le hle with rfl | hgt
    · rw [char, Option.isSome_some]
    · exact ih.1 k hgt hlt

end Machine.Pulls

/-! ### Streams that have an end -/

/-- Pulling the rest of a list is reading it. -/
theorem Machine.pulls_ofList (m : Machine ν) (text rest : List Char) :
    m.Pulls (Seq.ofList (text ++ rest)) text.length
      ((m.feed rest).report.consumption (text ++ rest)) := by
  induction rest generalizing m text with
  | nil =>
    rw [List.append_nil]
    exact .ended (by simp)
  | cons c rest ih =>
    have hchar : (Seq.ofList (text ++ c :: rest)).get? text.length = some c := by
      rw [Seq.ofList_get?]
      simp
    cases hstep : m.step c with
    | error verdict =>
      have hpulled : (text ++ c :: rest).length - rest.length = text.length + 1 := by
        simp only [List.length_append, List.length_cons]
        omega
      have hstopped := Pulls.stopped hchar hstep
      rw [← hpulled] at hstopped
      rw [feed, hstep]
      exact hstopped
    | ok next =>
      have hrest := ih next (text ++ [c])
      rw [List.append_assoc, List.singleton_append, List.length_append, List.length_singleton]
        at hrest
      rw [feed, hstep]
      exact .onward hchar hstep hrest

/-- **A stream that has an end is evaluated as the list of its characters is.** -/
theorem consumes_ofList (capacity : Option Nat) (source : List Char) :
    Consumes capacity (Seq.ofList source)
      ((evaluation capacity source : Report ν).consumption source) := by
  cases hstart : (Machine.start capacity : Except (Verdict ν) (Machine ν)) with
  | error verdict =>
    have hreport : evaluation capacity source = verdict.report source := by
      unfold evaluation
      rw [hstart]
    have hconsumption : (verdict.report source).consumption source =
        ⟨verdict.result, verdict.log.reverse, 0, false⟩ := by
      unfold Report.consumption Verdict.report
      rw [Nat.sub_self]
    rw [hreport, hconsumption]
    exact .noRoom hstart
  | ok m =>
    rw [evaluation_of_start hstart]
    exact .pulls hstart (m.pulls_ofList [] source)

namespace Consumes

variable {capacity : Option Nat} {s t : Seq Char} {outcome other : Consumption ν}

/-- The evaluation of a stream has one outcome at most. -/
theorem unique (h : Consumes capacity s outcome) (hother : Consumes capacity s other) :
    outcome = other := by
  cases h with
  | noRoom start =>
    cases hother with
    | noRoom start' =>
      cases start.symm.trans start'
      rfl
    | pulls start' => cases start.symm.trans start'
  | pulls start pulls =>
    cases hother with
    | noRoom start' => cases start.symm.trans start'
    | pulls start' pulls' =>
      cases start.symm.trans start'
      exact pulls.unique pulls'

/-- What is not pulled does not matter. -/
theorem congr (h : Consumes capacity s outcome)
    (hsame : ∀ k < outcome.pulled, t.get? k = s.get? k)
    (hend : outcome.exhausted = true → t.get? outcome.pulled = none) :
    Consumes capacity t outcome := by
  cases h with
  | noRoom start => exact .noRoom start
  | pulls start pulls => exact .pulls start (pulls.congr hsame hend)

theorem get?_isSome (h : Consumes capacity s outcome) :
    (∀ k < outcome.pulled, (s.get? k).isSome) ∧
      (outcome.exhausted = true → s.get? outcome.pulled = none) := by
  cases h with
  | noRoom => exact ⟨fun k hk => absurd hk (Nat.not_lt_zero k), fun h => by cases h⟩
  | pulls _ pulls =>
    obtain ⟨hsome, hend⟩ := pulls.get?_isSome
    exact ⟨fun k hk => hsome k (Nat.zero_le k) hk, hend⟩

end Consumes

/-! ### How the evaluation of a stream ends -/

/-- The first characters of a stream are those of a text. -/
def Begins (s : Seq Char) (text : List Char) : Prop := ∀ k < text.length, s.get? k = text[k]?

namespace Begins

variable {s : Seq Char} {text : List Char}

theorem nil (s : Seq Char) : Begins s [] := by
  intro k hk
  cases hk

theorem append_singleton (h : Begins s text) {c : Char} (hc : s.get? text.length = some c) :
    Begins s (text ++ [c]) := by
  intro k hk
  rw [List.length_append, List.length_singleton] at hk
  rcases Nat.eq_or_lt_of_le (Nat.le_of_lt_succ hk) with rfl | hlt
  · rw [hc]
    simp
  · rw [h k hlt, List.getElem?_append_left hlt]

theorem eq_ofList (h : Begins s text) (hend : s.get? text.length = none) : s = Seq.ofList text := by
  apply Seq.ext
  intro k
  rw [Seq.ofList_get?]
  rcases Nat.lt_or_ge k text.length with hlt | hge
  · exact h k hlt
  · rw [s.le_stable hge hend, List.getElem?_eq_none hge]

theorem get?_ne (h : Begins s text) {c : Char} (hc : c ∉ text) {k : Nat} (hk : k < text.length) :
    s.get? k ≠ some c := by
  intro hget
  rw [h k hk] at hget
  exact hc (List.mem_of_getElem? hget)

end Begins

namespace Machine

variable {capacity : Option Nat} {s : Seq Char}

/-- **How the evaluation of a stream can end.** -/
inductive Takes (capacity : Option Nat) (s : Seq Char) : Consumption ν → Prop
  /-- Not even the mark at the bottom of the operator stack has room. -/
  | noRoom (limited : capacity = some 0) :
      Takes capacity s ⟨.error ⟨0, .stackOverflow .operator 0⟩, [], 0, false⟩
  /-- The stream ends, and the machine waits for more. -/
  | exhausted {text : List Char} {m : Machine ν} (all : s = Seq.ofList text)
      (behind : Behind capacity text m) :
      Takes capacity s ⟨.error ⟨text.length + 1, .unexpectedEnd⟩, m.log.reverse, text.length, true⟩
  /-- A character stops the machine. -/
  | stopped {text : List Char} {c : Char} {m : Machine ν} {verdict : Verdict ν}
      (begins : Begins s text) (char : s.get? text.length = some c)
      (behind : Behind capacity text m) (reads : Reads capacity text c (.error verdict)) :
      Takes capacity s ⟨verdict.result, verdict.log.reverse, text.length + 1, false⟩

theorem Behind.takes {text : List Char} {m : Machine ν} (h : Behind capacity text m)
    (hbegins : Begins s text) {outcome : Consumption ν} (hpulls : Pulls s m text.length outcome) :
    Takes capacity s outcome := by
  -- the induction is on what is pulled, and the text behind the machine grows with it
  generalize hn : text.length = n at hpulls
  induction hpulls generalizing text with
  | @ended m n atEnd =>
    subst hn
    have hresult : m.endOfInput.result = .error ⟨text.length + 1, .unexpectedEnd⟩ := by
      rw [← h.column]
      rfl
    rw [hresult]
    exact .exhausted (hbegins.eq_ofList atEnd) h
  | stopped char step =>
    subst hn
    exact .stopped hbegins char h (step ▸ h.step _)
  | @onward m next n c outcome char step rest ih =>
    subst hn
    have hreads := h.step c
    rw [step] at hreads
    cases hreads with
    | onward behind => exact ih behind (hbegins.append_singleton char) (by simp)

end Machine

/-- Every evaluation of a stream ends in one of these ways. -/
theorem Consumes.takes {capacity : Option Nat} {s : Seq Char} {outcome : Consumption ν}
    (h : Consumes capacity s outcome) : Machine.Takes capacity s outcome := by
  rcases Machine.start_spec (ν := ν) capacity with
    ⟨m, hstart, hbehind⟩ | ⟨hcapacity, verdict, hstart, hresult, hlog⟩
  · cases h with
    | noRoom start => cases hstart.symm.trans start
    | pulls start pulls =>
      cases hstart.symm.trans start
      exact hbehind.takes (.nil s) pulls
  · cases h with
    | noRoom start =>
      cases hstart.symm.trans start
      rw [hresult, hlog]
      exact .noRoom hcapacity
    | pulls start => cases hstart.symm.trans start

/-! ### How much is pulled -/

namespace Consumes

variable {capacity : Option Nat} {s : Seq Char} {outcome : Consumption ν}

/-- A terminator ends every evaluation that comes to it. -/
theorem exists_of_terminator (capacity : Option Nat) {n : Nat} (h : s.get? n = some '=') :
    ∃ outcome : Consumption ν, Consumes capacity s outcome ∧ outcome.pulled ≤ n + 1 ∧
      outcome.exhausted = false := by
  have htake : ∀ k < n + 1, (Seq.ofList (s.take (n + 1))).get? k = s.get? k := by
    intro k hk
    rw [Seq.ofList_get?, Seq.getElem?_take, if_pos hk]
  have hconsumes := consumes_ofList (ν := ν) capacity (s.take (n + 1))
  have hpulled : ((evaluation capacity (s.take (n + 1)) : Report ν).consumption
      (s.take (n + 1))).pulled ≤ n + 1 :=
    Nat.le_trans (Nat.sub_le _ _) Seq.length_take_le
  generalize (evaluation capacity (s.take (n + 1)) : Report ν).consumption (s.take (n + 1)) =
    outcome at hconsumes hpulled
  have hexhausted : outcome.exhausted = false := by
    cases hconsumes.takes with
    | exhausted all behind =>
      -- all of the list has been read, and the terminator with it
      rw [← Seq.ofList_injective all] at behind
      have hat : (s.take (n + 1))[n]? = some '=' := by
        rw [Seq.getElem?_take, if_pos (Nat.lt_succ_self n), h]
      exact absurd (List.mem_of_getElem? hat) behind.unterminated
    | noRoom => rfl
    | stopped => rfl
  refine ⟨outcome, hconsumes.congr ?_ (by simp [hexhausted]), hpulled, hexhausted⟩
  intro k hk
  exact (htake k (Nat.lt_of_lt_of_le hk hpulled)).symm

/-- A value has taken everything up to the first terminator. -/
theorem pulled_of_ok (h : Consumes capacity s outcome) {value : ν}
    (hresult : outcome.result = .ok value) :
    outcome.exhausted = false ∧ ∃ n, outcome.pulled = n + 1 ∧ s.get? n = some '=' ∧
      ∀ k < n, s.get? k ≠ some '=' := by
  cases h.takes with
  | noRoom => cases hresult
  | exhausted => cases hresult
  | @stopped text c m verdict begins char behind reads =>
    change verdict.result = .ok value at hresult
    cases reads with
    | refused _ _ _ _ _ result => cases result.symm.trans hresult
    | starved _ _ result => cases result.symm.trans hresult
    | full _ _ _ result => cases result.symm.trans hresult
    | finished terminator =>
      refine ⟨rfl, text.length, rfl, terminator ▸ char, ?_⟩
      intro k hk
      exact begins.get?_ne behind.unterminated hk

/-- A fault other than the end of the input has taken everything up to its column. -/
theorem pulled_of_fault (h : Consumes capacity s outcome) {column : Nat} {cause : Cause}
    (hresult : outcome.result = .error ⟨column, cause⟩) (hcause : cause ≠ .unexpectedEnd) :
    outcome.exhausted = false ∧ outcome.pulled = column ∧ (capacity = some 0 → column = 0) := by
  cases h.takes with
  | noRoom =>
    cases hresult
    exact ⟨rfl, rfl, fun _ => rfl⟩
  | exhausted =>
    cases hresult
    exact absurd rfl hcause
  | stopped begins char behind reads =>
    obtain ⟨rfl, -⟩ := reads.reportable hresult
    refine ⟨rfl, rfl, ?_⟩
    rintro rfl
    -- the mark at the bottom is on the stack, so there is room for one operator at least
    obtain ⟨top, rest, hitems⟩ := behind.stacked.exists_cons
    have hsize := Stack.size_le_capacity behind.operatorCapacity
    simp [Stack.size, hitems] at hsize

/-- The input runs out at the end of a stream without a terminator. -/
theorem eq_ofList_of_unexpectedEnd (h : Consumes capacity s outcome) {column : Nat}
    (hresult : outcome.result = .error ⟨column, .unexpectedEnd⟩) :
    ∃ text, s = Seq.ofList text ∧ '=' ∉ text ∧ column = text.length + 1 ∧
      outcome.pulled = text.length ∧ outcome.exhausted = true := by
  cases h.takes with
  | noRoom => cases hresult
  | @exhausted text m all behind =>
    cases hresult
    exact ⟨text, all, behind.unterminated, rfl, rfl, rfl⟩
  | stopped begins char behind reads =>
    obtain ⟨-, hreportable⟩ := reads.reportable hresult
    cases hreportable

theorem length_take (h : Consumes capacity s outcome) :
    (s.take outcome.pulled).length = outcome.pulled := by
  rcases Nat.lt_or_eq_of_le (Seq.length_take_le (s := s) (n := outcome.pulled)) with hlt | heq
  · -- a position behind the end of what was taken would still have been pulled
    have hsome := h.get?_isSome.1 _ hlt
    have hnone : (s.take outcome.pulled)[(s.take outcome.pulled).length]? = none := by simp
    rw [Seq.getElem?_take, if_pos hlt] at hnone
    rw [hnone] at hsome
    cases hsome
  · exact heq

/-- Streams whose evaluations pull the same characters are evaluated to the same. -/
theorem eq_of_take_eq (h : Consumes capacity s outcome) {t : Seq Char} {other : Consumption ν}
    (hother : Consumes capacity t other)
    (htake : t.take other.pulled = s.take outcome.pulled) : other = outcome := by
  have hpulled : other.pulled = outcome.pulled := by
    rw [← hother.length_take, htake, h.length_take]
  have hsame : ∀ k < outcome.pulled, t.get? k = s.get? k := by
    intro k hk
    have hat := congrArg (·[k]?) htake
    simpa [Seq.getElem?_take, hk, hpulled] using hat
  by_cases hexhausted : outcome.exhausted = true ∧ other.exhausted = false
  · -- the second evaluation asks for less, so it can be carried over to the first stream
    have hcarried : Consumes capacity s other := by
      refine hother.congr ?_ (by simp [hexhausted.2])
      intro k hk
      exact (hsame k (hpulled ▸ hk)).symm
    exact hcarried.unique h
  · have hcarried : Consumes capacity t outcome := by
      refine h.congr hsame ?_
      intro htrue
      have hboth : other.exhausted = true := by
        cases hfalse : other.exhausted with
        | true => rfl
        | false => exact absurd ⟨htrue, hfalse⟩ hexhausted
      exact hpulled ▸ hother.get?_isSome.2 hboth
    exact hother.unique hcarried

end Consumes

/-- What stands behind a source that has been evaluated to its end is left unread. -/
theorem evaluation_append {capacity : Option Nat} {p : List Char} (q : List Char)
    (h : ∀ column,
      (evaluation capacity p : Report ν).result ≠ .error ⟨column, .unexpectedEnd⟩) :
    (evaluation capacity (p ++ q) : Report ν) =
      { evaluation capacity p with unread := (evaluation capacity p : Report ν).unread ++ q } := by
  cases hstart : (Machine.start capacity : Except (Verdict ν) (Machine ν)) with
  | error verdict =>
    unfold evaluation
    rw [hstart]
    rfl
  | ok m =>
    rw [evaluation_of_start hstart] at h
    rw [evaluation_of_start hstart, evaluation_of_start hstart, Machine.feed_append]
    cases hfeed : m.feed p with
    | waiting next =>
      rw [hfeed] at h
      exact absurd rfl (h (next.column + 1))
    | stopped verdict unread => rfl

/-- **An evaluation takes what it needs and nothing else.**  A terminator ends it, and nothing
behind the first one is pulled.  It comes to one thing only.  A value has taken everything up to
the first terminator, a fault everything up to its column, and the input runs out only at the
end of a source without a terminator.  Sources that agree on what is pulled are evaluated to
the same, and what follows a finite source that has been evaluated to its end is irrelevant. -/
theorem consumption_exact (capacity : Option Nat) (s : Seq Char) :
    (∀ n, s.get? n = some '=' → ∃ outcome : Consumption ν, Consumes capacity s outcome ∧
      outcome.pulled ≤ n + 1 ∧ outcome.exhausted = false) ∧
    (∀ outcome : Consumption ν, Consumes capacity s outcome →
      (∀ other, Consumes capacity s other → other = outcome) ∧
      (∀ value, outcome.result = .ok value → outcome.exhausted = false ∧
        ∃ n, outcome.pulled = n + 1 ∧ s.get? n = some '=' ∧ ∀ k < n, s.get? k ≠ some '=') ∧
      (∀ column cause, outcome.result = .error ⟨column, cause⟩ → cause ≠ .unexpectedEnd →
        outcome.exhausted = false ∧ outcome.pulled = column ∧
          (capacity = some 0 → column = 0)) ∧
      (∀ column, outcome.result = .error ⟨column, .unexpectedEnd⟩ →
        ∃ text, s = Seq.ofList text ∧ '=' ∉ text ∧ column = text.length + 1 ∧
          outcome.pulled = text.length ∧ outcome.exhausted = true) ∧
      (∀ t, (∀ k < outcome.pulled, t.get? k = s.get? k) →
        (outcome.exhausted = true → t.get? outcome.pulled = none) →
          Consumes capacity t outcome) ∧
      (∀ t other, Consumes capacity t other →
        t.take other.pulled = s.take outcome.pulled → other = outcome)) ∧
    (∀ p : List Char, Consumes capacity (Seq.ofList p)
      ((evaluation capacity p : Report ν).consumption p)) ∧
    (∀ p q : List Char,
      (∀ column, (evaluation capacity p : Report ν).result ≠ .error ⟨column, .unexpectedEnd⟩) →
        (evaluation capacity (p ++ q) : Report ν) =
          { evaluation capacity p with
            unread := (evaluation capacity p : Report ν).unread ++ q }) := by
  refine ⟨?_, ?_, consumes_ofList capacity, fun p q h => evaluation_append q h⟩
  · intro n h
    exact Consumes.exists_of_terminator capacity h
  · intro outcome h
    refine ⟨?_, ?_, ?_, ?_, ?_, ?_⟩
    · intro other hother
      exact hother.unique h
    · intro value hresult
      exact h.pulled_of_ok hresult
    · intro column cause hresult hcause
      exact h.pulled_of_fault hresult hcause
    · intro column hresult
      exact h.eq_ofList_of_unexpectedEnd hresult
    · intro t hsame hend
      exact h.congr hsame hend
    · intro t other hother htake
      exact h.eq_of_take_eq hother htake

/-- A stream that goes on forever is evaluated to its first terminator, like the list of the
characters up to there, and like any other list that begins with these. -/
theorem consumption_of_endless_stream :
    let s := Seq.cons '1' (Seq.cons '=' (Seq.ofStream (Stream'.const '1')))
    s.get? 1 = some '=' ∧
      (∃ outcome : Consumption Float, Consumes none s outcome ∧ outcome.pulled = 2 ∧
        ∃ value, outcome.result = .ok value) ∧
      ∀ q, (evaluation none ('1' :: '=' :: q) : Report Float) =
        { evaluation none ['1', '='] with unread := q } := by
  intro s
  have hvalue : ∃ value, (evaluation none ['1', '='] : Report Float).result = .ok value := ⟨_, rfl⟩
  have h := consumption_exact (ν := Float) none s
  obtain ⟨outcome, hconsumes, -, -⟩ := h.1 1 rfl
  have hlist := consumption_exact (ν := Float) none (Seq.ofList ['1', '='])
  have hcarried := (hlist.2.1 _ (hlist.2.2.1 ['1', '='])).2.2.2.2.1 s
    (fun | 0, _ => rfl | 1, _ => rfl) (fun hend => by cases hend)
  obtain rfl := (h.2.1 outcome hconsumes).1 _ hcarried
  refine ⟨rfl, ⟨_, hconsumes, rfl, hvalue⟩, ?_⟩
  intro q
  refine h.2.2.2 ['1', '='] q ?_
  intro column hresult
  obtain ⟨value, hok⟩ := hvalue
  cases hok.symm.trans hresult

end OperatorPrecedence
