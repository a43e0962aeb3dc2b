import OperatorPrecedence.Proofs.Moves

/-!
# Stacks over any number of requests

What holds of a stack that has been made empty, with or without a limit, once entries have been put
on it, taken away and looked at in any order, with success or without.

The entry on top is the latest one that has been put there and not been taken away since.  Which one
that is can be seen from what came of the requests: a stretch of them that takes away exactly what
it puts is balanced, like a text of parentheses, and the latest entry that still stands is the one
whose push is followed by nothing but such a stretch.  A balanced stretch leaves a stack as it was,
so below that entry is the stack that it has been put on.

A stack with more room answers the same until the one with less refuses an entry.

## Main definitions

* `Stack.Request`, `Stack.Effect` — what can be asked of a stack, and what comes of it.
* `Stack.respond`, `Stack.after`, `Stack.history` — what requests lead to.
* `Stack.Balanced` — a stretch that takes away exactly what it puts.
* `Stack.Standing` — the latest entry that has been put on a stack and not been taken away.
* `Stack.Narrower` — a stack with the same entries as another one and no more room.

## Main results

* `Stack.responds` — what a request can come to.
* `Stack.after_of_balanced` — a balanced stretch leaves a stack as it was.
* `Stack.pop_of_standing`, `Stack.standing_of_pop` — the latest entry that stands is the top one.
* `Stack.Narrower.history` — with more room nothing changes before an entry is refused.
* `Stack.last_in_first_out` — **what holds of a stack after any requests**.
-/

namespace OperatorPrecedence

namespace Stack

variable {α : Type}

/-! ### Single requests -/

/-- What can be asked of a stack. -/
inductive Request (α : Type) where
  /-- To put an entry on top. -/
  | push (a : α)
  /-- To take the top entry away. -/
  | pop
  /-- To show the top entry. -/
  | peek
  deriving DecidableEq

/-- What comes of a request. -/
inductive Effect (α : Type) where
  /-- The entry has been put on top. -/
  | pushed (a : α)
  /-- The entry has been taken away. -/
  | popped (a : α)
  /-- The entry has been shown. -/
  | peeked (a : α)
  /-- The request has failed. -/
  | failed (failure : Failure)
  deriving DecidableEq

namespace Effect

/-- Whether an entry has been put on top. -/
def puts : Effect α → Bool
  | pushed _ => true
  | popped _ | peeked _ | failed _ => false

/-- Whether an entry has been taken away. -/
def takes : Effect α → Bool
  | popped _ => true
  | pushed _ | peeked _ | failed _ => false

/-- Whether an entry has been refused. -/
def overflows : Effect α → Bool
  | failed (.overflow _) => true
  | failed .underflow | pushed _ | popped _ | peeked _ => false

end Effect

/-- What comes of a request, and the stack that it leaves.  A request that fails leaves the stack
as it is. -/
def respond (s : Stack α) : Request α → Effect α × Stack α
  | .push a =>
    match s.push a with
    | .ok t => (.pushed a, t)
    | .error failure => (.failed failure, s)
  | .pop =>
    match s.pop with
    | .ok (a, t) => (.popped a, t)
    | .error failure => (.failed failure, s)
  | .peek =>
    match s.peek with
    | .ok a => (.peeked a, s)
    | .error failure => (.failed failure, s)

variable {s t : Stack α} {a : α} {request : Request α} {effect : Effect α}
  {requests : List (Request α)}

theorem peek_of_cons {rest : List α} (h : s.items = a :: rest) : s.peek = .ok a := by
  unfold peek
  rw [h]

theorem peek_of_nil (h : s.items = []) : s.peek = .error .underflow :=
  peek_eq_error_iff.mpr ⟨List.isEmpty_iff.mpr h, rfl⟩

theorem respond_push (h : s.room ≠ some 0) (a : α) :
    s.respond (.push a) = (.pushed a, s.cover a) := by
  simp only [respond, push_eq_cover h]

theorem respond_push_of_full (h : s.room = some 0) (a : α) :
    s.respond (.push a) = (.failed (.overflow s.size), s) := by
  simp only [respond, push_of_full h]

theorem respond_pop {rest : List α} (h : s.items = a :: rest) :
    s.respond .pop = (.popped a, s.uncover) := by
  simp only [respond, pop_eq_uncover h]

theorem respond_pop_of_nil (h : s.items = []) : s.respond .pop = (.failed .underflow, s) := by
  simp only [respond, pop_of_nil h]

theorem respond_peek {rest : List α} (h : s.items = a :: rest) :
    s.respond .peek = (.peeked a, s) := by
  simp only [respond, peek_of_cons h]

theorem respond_peek_of_nil (h : s.items = []) : s.respond .peek = (.failed .underflow, s) := by
  simp only [respond, peek_of_nil h]

/-- **What a request can come to**, with the stack that it leaves. -/
inductive Responds (s : Stack α) : Request α → Effect α → Stack α → Prop
  /-- There is room for an entry. -/
  | pushed {a : α} (room : s.room ≠ some 0) : Responds s (.push a) (.pushed a) (s.cover a)
  /-- There is no room for an entry. -/
  | full {a : α} (room : s.room = some 0) : Responds s (.push a) (.failed (.overflow s.size)) s
  /-- There is an entry to take away. -/
  | popped {a : α} {rest : List α} (items : s.items = a :: rest) :
      Responds s .pop (.popped a) s.uncover
  /-- There is an entry to show. -/
  | peeked {a : α} {rest : List α} (items : s.items = a :: rest) : Responds s .peek (.peeked a) s
  /-- There is no entry to take away. -/
  | nothingToPop (items : s.items = []) : Responds s .pop (.failed .underflow) s
  /-- There is no entry to show. -/
  | nothingToPeek (items : s.items = []) : Responds s .peek (.failed .underflow) s

theorem responds (s : Stack α) (request : Request α) :
    Responds s request (s.respond request).1 (s.respond request).2 := by
  cases request with
  | push a =>
    by_cases hroom : s.room = some 0
    · rw [respond_push_of_full hroom]
      exact .full hroom
    · rw [respond_push hroom]
      exact .pushed hroom
  | pop =>
    cases hitems : s.items with
    | nil =>
      rw [respond_pop_of_nil hitems]
      exact .nothingToPop hitems
    | cons a rest =>
      rw [respond_pop hitems]
      exact .popped hitems
  | peek =>
    cases hitems : s.items with
    | nil =>
      rw [respond_peek_of_nil hitems]
      exact .nothingToPeek hitems
    | cons a rest =>
      rw [respond_peek hitems]
      exact .peeked hitems

namespace Responds

/-- No request changes the capacity. -/
theorem capacity_eq (h : Responds s request effect t) : t.capacity = s.capacity := by
  cases h with
  | pushed room => exact capacity_cover room _
  | popped items => exact capacity_uncover items
  | full | peeked | nothingToPop | nothingToPeek => rfl

/-- Only a push that succeeds adds to the size, and only a pop that succeeds takes from it. -/
theorem size_add (h : Responds s request effect t) :
    t.size + (if effect.takes = true then 1 else 0) =
      s.size + (if effect.puts = true then 1 else 0) := by
  cases h with
  | pushed room => rfl
  | popped items =>
    show s.items.tail.length + 1 = s.items.length
    rw [items]
    rfl
  | full | peeked | nothingToPop | nothingToPeek => rfl

/-- Unless it puts or takes an entry, a request leaves the stack as it is. -/
theorem eq_of_idle (h : Responds s request effect t) (hputs : effect.puts = false)
    (htakes : effect.takes = false) : t = s := by
  cases h with
  | pushed room => cases hputs
  | popped items => cases htakes
  | full | peeked | nothingToPop | nothingToPeek => rfl

theorem of_pushed (h : Responds s request (.pushed a) t) :
    request = .push a ∧ s.room ≠ some 0 := by
  cases h with
  | pushed room => exact ⟨rfl, room⟩

theorem of_popped (h : Responds s request (.popped a) t) :
    request = .pop ∧ ∃ rest, s.items = a :: rest := by
  cases h with
  | popped items => exact ⟨rfl, _, items⟩

/-- To show an entry leaves the stack as it is. -/
theorem eq_of_peek (h : Responds s .peek effect t) : t = s := by
  cases h with
  | peeked | nothingToPeek => rfl

end Responds

/-! ### Any number of requests -/

/-- The stack that requests leave, one after the other. -/
def after (s : Stack α) : List (Request α) → Stack α
  | [] => s
  | request :: requests => (s.respond request).2.after requests

/-- What comes of requests, one after the other. -/
def history (s : Stack α) : List (Request α) → List (Effect α)
  | [] => []
  | request :: requests => (s.respond request).1 :: (s.respond request).2.history requests

@[simp] theorem after_nil (s : Stack α) : s.after [] = s := rfl

@[simp] theorem after_cons (s : Stack α) (request : Request α) (requests : List (Request α)) :
    s.after (request :: requests) = (s.respond request).2.after requests := rfl

@[simp] theorem history_nil (s : Stack α) : s.history [] = [] := rfl

@[simp] theorem history_cons (s : Stack α) (request : Request α) (requests : List (Request α)) :
    s.history (request :: requests) =
      (s.respond request).1 :: (s.respond request).2.history requests := rfl

theorem after_append (s : Stack α) (requests more : List (Request α)) :
    s.after (requests ++ more) = (s.after requests).after more := by
  induction requests generalizing s with
  | nil => rfl
  | cons request requests ih => exact ih _

theorem history_append (s : Stack α) (requests more : List (Request α)) :
    s.history (requests ++ more) = s.history requests ++ (s.after requests).history more := by
  induction requests generalizing s with
  | nil => rfl
  | cons request requests ih =>
    rw [List.cons_append, history_cons, ih, history_cons, after_cons, List.cons_append]

theorem after_append_singleton (s : Stack α) (requests : List (Request α)) (request : Request α) :
    s.after (requests ++ [request]) = ((s.after requests).respond request).2 :=
  after_append s requests [request]

theorem exists_of_history_cons {later : List (Effect α)}
    (h : s.history requests = effect :: later) :
    ∃ request rest, requests = request :: rest ∧ (s.respond request).1 = effect ∧
      (s.respond request).2.history rest = later := by
  cases requests with
  | nil => cases h
  | cons request rest =>
    rw [history_cons, List.cons_eq_cons] at h
    exact ⟨request, rest, rfl, h.1, h.2⟩

theorem exists_of_history_append {before later : List (Effect α)}
    (h : s.history requests = before ++ later) :
    ∃ first rest, requests = first ++ rest ∧ s.history first = before ∧
      (s.after first).history rest = later := by
  induction before generalizing s requests with
  | nil => exact ⟨[], requests, rfl, rfl, h⟩
  | cons effect before ih =>
    obtain ⟨request, others, rfl, heffect, hothers⟩ := exists_of_history_cons h
    obtain ⟨first, rest, rfl, hfirst, hrest⟩ := ih hothers
    refine ⟨request :: first, rest, rfl, ?_, hrest⟩
    rw [history_cons, heffect, hfirst]

theorem capacity_after (s : Stack α) (requests : List (Request α)) :
    (s.after requests).capacity = s.capacity := by
  induction requests generalizing s with
  | nil => rfl
  | cons request requests ih => exact (ih _).trans (s.responds request).capacity_eq

/-- The entries that have been put on a stack are those that have been taken away, and those that
it holds more than before. -/
theorem size_after (s : Stack α) (requests : List (Request α)) :
    (s.after requests).size + (s.history requests).countP Effect.takes =
      s.size + (s.history requests).countP Effect.puts := by
  induction requests generalizing s with
  | nil => rfl
  | cons request requests ih =>
    have hfirst := (s.responds request).size_add
    have hrest := ih (s.respond request).2
    rw [after_cons, history_cons, List.countP_cons, List.countP_cons]
    omega

/-! ### Balanced stretches -/

/-- **A stretch that takes away exactly what it puts.** -/
inductive Balanced : List (Effect α) → Prop
  /-- Nothing is done. -/
  | nil : Balanced []
  /-- First something is done that neither puts nor takes an entry. -/
  | idle {effect : Effect α} {rest : List (Effect α)} (puts : effect.puts = false)
      (takes : effect.takes = false) (balanced : Balanced rest) : Balanced (effect :: rest)
  /-- First an entry is put, and behind a balanced stretch it is the one that is taken away. -/
  | matched {a : α} {inner rest : List (Effect α)} (inside : Balanced inner)
      (balanced : Balanced rest) : Balanced (.pushed a :: (inner ++ .popped a :: rest))

theorem Balanced.append {first later : List (Effect α)} (h : Balanced first)
    (hlater : Balanced later) : Balanced (first ++ later) := by
  induction h with
  | nil => exact hlater
  | idle puts takes _ ih => exact .idle puts takes ih
  | @matched a inner rest inside _ _ ih =>
    rw [List.cons_append, List.append_assoc, List.cons_append]
    exact .matched inside ih

/-- **A balanced stretch leaves a stack as it was.** -/
theorem after_of_balanced (h : Balanced (s.history requests)) : s.after requests = s := by
  generalize hhistory : s.history requests = effects at h
  induction h generalizing s requests with
  | nil =>
    cases requests with
    | nil => rfl
    | cons request requests => cases hhistory
  | idle puts takes _ ih =>
    obtain ⟨request, rest, rfl, rfl, hrest⟩ := exists_of_history_cons hhistory
    have hsame : (s.respond request).2 = s := (s.responds request).eq_of_idle puts takes
    rw [hsame] at hrest
    rw [after_cons, hsame]
    exact ih hrest
  | @matched a inner rest _ _ ihInner ihRest =>
    obtain ⟨request, others, rfl, heffect, hothers⟩ := exists_of_history_cons hhistory
    have hput := s.responds request
    rw [heffect] at hput
    obtain ⟨rfl, hroom⟩ := hput.of_pushed
    rw [respond_push hroom] at hothers
    obtain ⟨first, later, rfl, hfirst, hlater⟩ := exists_of_history_append hothers
    rw [ihInner hfirst] at hlater
    obtain ⟨request, rest, rfl, heffect, hrest⟩ := exists_of_history_cons hlater
    have htake := (s.cover a).responds request
    rw [heffect] at htake
    obtain ⟨rfl, below, hitems⟩ := htake.of_popped
    rw [respond_pop hitems, uncover_cover hroom] at hrest
    rw [after_cons, respond_push hroom, after_append, ihInner hfirst, after_cons,
      respond_pop hitems, uncover_cover hroom]
    exact ihRest hrest

/-! ### The latest entry that stands -/

theorem push_eq_ok_iff : s.push a = .ok t ↔ s.room ≠ some 0 ∧ t = s.cover a := by
  by_cases hroom : s.room = some 0
  · rw [push_of_full hroom]
    simp [hroom]
  · rw [push_eq_cover hroom]
    simp [hroom, eq_comm]

/-- **The latest entry that has been put on a stack and not been taken away**, with the stack `t`
as it was in front of it: the entry has been put on top of that one, and whatever has been put since
has been taken away again. -/
def Standing (s : Stack α) (requests : List (Request α)) (a : α) (t : Stack α) : Prop :=
  ∃ before since grown, requests = before ++ .push a :: since ∧ s.after before = t ∧
    t.push a = .ok grown ∧ Balanced (grown.history since)

theorem after_push {before since : List (Request α)} {grown : Stack α} (hbefore : s.after before = t)
    (hput : t.push a = .ok grown) : s.after (before ++ .push a :: since) = grown.after since := by
  obtain ⟨hroom, rfl⟩ := push_eq_ok_iff.mp hput
  rw [after_append, hbefore, after_cons, respond_push hroom]

/-- The entry that stands is on top. -/
theorem pop_of_standing (h : s.Standing requests a t) : (s.after requests).pop = .ok (a, t) := by
  obtain ⟨before, since, grown, rfl, hbefore, hput, hbalanced⟩ := h
  rw [after_push hbefore hput, after_of_balanced hbalanced]
  obtain ⟨hroom, rfl⟩ := push_eq_ok_iff.mp hput
  rw [pop_eq_uncover (items_cover t a), uncover_cover hroom]

/-- A balanced stretch does not change what stands. -/
theorem Standing.append {more : List (Request α)} (h : s.Standing requests a t)
    (hmore : Balanced ((s.after requests).history more)) : s.Standing (requests ++ more) a t := by
  obtain ⟨before, since, grown, rfl, hbefore, hput, hbalanced⟩ := h
  rw [after_push hbefore hput] at hmore
  refine ⟨before, since ++ more, grown, by simp, hbefore, hput, ?_⟩
  rw [history_append]
  exact hbalanced.append hmore

/-- From its push to its pop, an entry leaves a balanced stretch. -/
theorem balanced_push_pop {since : List (Request α)} {grown : Stack α}
    (hput : t.push a = .ok grown) (hbalanced : Balanced (grown.history since)) :
    Balanced (t.history (.push a :: (since ++ [.pop]))) := by
  obtain ⟨hroom, rfl⟩ := push_eq_ok_iff.mp hput
  rw [history_cons, respond_push hroom, history_append, after_of_balanced hbalanced, history_cons,
    respond_pop (items_cover t a)]
  exact .matched hbalanced .nil

/-- Once the entry that stands has been taken away, what stood in front of its push stands again. -/
theorem Standing.uncovered {b : α} {below : Stack α} (h : s.Standing requests b below)
    (hbelow : ∀ before, before.length < requests.length → s.after before = below →
      s.Standing before a t) : s.Standing (requests ++ [.pop]) a t := by
  obtain ⟨before, since, grown, rfl, hbefore, hput, hbalanced⟩ := h
  rw [← hbefore] at hput
  have hshorter : before.length < (before ++ .push b :: since).length := by simp
  have hstands := (hbelow before hshorter hbefore).append (balanced_push_pop hput hbalanced)
  rwa [List.append_assoc, List.cons_append]

/-- **The entry on top is the one that stands.** -/
theorem standing_of_pop {capacity : Option Nat}
    (h : ((empty capacity).after requests).pop = .ok (a, t)) :
    (empty capacity).Standing requests a t := by
  -- a pop uncovers what stood in front of a push further back, so the induction is on the length
  induction hlength : requests.length using Nat.strongRecOn generalizing requests a t with
  | ind n ih =>
    subst hlength
    rcases List.eq_nil_or_concat requests with rfl | ⟨init, request, rfl⟩
    · cases h
    rw [List.concat_eq_append] at h ih ⊢
    rw [after_append_singleton] at h
    have hshorter : init.length < (init ++ [request]).length := by simp
    have hlast := ((empty capacity).after init).responds request
    generalize heffect : (((empty capacity).after init).respond request).1 = effect at hlast
    generalize (((empty capacity).after init).respond request).2 = left at hlast h
    cases hlast with
    | pushed room =>
      rw [pop_eq_uncover (items_cover _ _), uncover_cover room] at h
      cases h
      exact ⟨init, [], _, rfl, rfl, push_eq_cover room _, .nil⟩
    | popped items =>
      refine (ih init.length hshorter (pop_eq_uncover items) rfl).uncovered ?_
      intro before hlt hbefore
      rw [← hbefore] at h
      exact ih before.length (Nat.lt_trans hlt hshorter) h rfl
    | full | peeked | nothingToPop | nothingToPeek =>
      refine (ih init.length hshorter h rfl).append ?_
      rw [history_cons, heffect]
      exact .idle rfl rfl .nil

/-! ### More room -/

/-- A stack with the same entries as another one and no more room. -/
structure Narrower (s t : Stack α) : Prop where
  items : s.items = t.items
  room : ∀ wide ∈ t.room, ∃ narrow ∈ s.room, narrow ≤ wide

theorem Narrower.room_ne_zero (h : Narrower s t) (hroom : s.room ≠ some 0) : t.room ≠ some 0 := by
  intro hfull
  obtain ⟨narrow, hnarrow, hle⟩ := h.room 0 hfull
  obtain rfl : narrow = 0 := Nat.le_zero.mp hle
  exact hroom hnarrow

theorem Narrower.map (h : Narrower s t) (f : List α → List α) {g : Nat → Nat}
    (hg : ∀ {i j}, i ≤ j → g i ≤ g j) :
    Narrower ⟨f s.items, s.room.map g⟩ ⟨f t.items, t.room.map g⟩ := by
  refine ⟨congrArg f h.items, ?_⟩
  intro wide hwide
  obtain ⟨room, hroom, rfl⟩ := Option.map_eq_some_iff.mp hwide
  obtain ⟨narrow, hnarrow, hle⟩ := h.room room hroom
  exact ⟨g narrow, Option.map_eq_some_iff.mpr ⟨narrow, hnarrow, rfl⟩, hg hle⟩

theorem Narrower.cover (h : Narrower s t) (a : α) : Narrower (s.cover a) (t.cover a) :=
  h.map (a :: ·) fun hle => Nat.sub_le_sub_right hle 1

theorem Narrower.uncover (h : Narrower s t) : Narrower s.uncover t.uncover :=
  h.map List.tail Nat.succ_le_succ

/-- With more room the same comes of a request, unless an entry is refused. -/
theorem Narrower.respond (h : Narrower s t) {request : Request α}
    (hfits : (s.respond request).1.overflows = false) :
    (s.respond request).1 = (t.respond request).1 ∧
      Narrower (s.respond request).2 (t.respond request).2 := by
  have hresponds := s.responds request
  generalize (s.respond request).1 = effect at hresponds hfits ⊢
  generalize (s.respond request).2 = next at hresponds ⊢
  cases hresponds with
  | full => cases hfits
  | pushed room =>
    rw [respond_push (h.room_ne_zero room)]
    exact ⟨rfl, h.cover _⟩
  | popped items =>
    rw [respond_pop (h.items.symm.trans items)]
    exact ⟨rfl, h.uncover⟩
  | peeked items =>
    rw [respond_peek (h.items.symm.trans items)]
    exact ⟨rfl, h⟩
  | nothingToPop items =>
    rw [respond_pop_of_nil (h.items.symm.trans items)]
    exact ⟨rfl, h⟩
  | nothingToPeek items =>
    rw [respond_peek_of_nil (h.items.symm.trans items)]
    exact ⟨rfl, h⟩

/-- **With more room the same comes of any requests**, up to the first entry that is refused. -/
theorem Narrower.history (h : Narrower s t) (requests : List (Request α)) :
    ((s.history requests).takeWhile fun effect => !effect.overflows) <+: t.history requests := by
  induction requests generalizing s t with
  | nil => exact List.prefix_refl _
  | cons request requests ih =>
    rw [history_cons, history_cons]
    cases hover : (s.respond request).1.overflows with
    | true =>
      rw [List.takeWhile_cons_of_neg (by simp [hover])]
      exact List.nil_prefix
    | false =>
      obtain ⟨heffect, hnext⟩ := h.respond hover
      rw [List.takeWhile_cons_of_pos (by simp [hover]), heffect]
      exact List.cons_prefix_cons.mpr ⟨rfl, ih hnext⟩

/-! ### The law -/

/-- **What holds of a stack after any requests**, if it was made empty.

It has the capacity it was made with, and it holds as many entries as have been put on it and not
been taken away, which are never more than the capacity.  An entry is refused exactly if there are
as many as the capacity, and there is nothing to take or to show exactly if there is none.  A
request that fails, or only shows an entry, leaves the stack as it is.  A pop gives the latest entry
that has been put on the stack and not been taken away, and leaves the stack as it was in front of
that push.  A peek shows what a pop would give.  A stack with a larger capacity, or without any,
answers the same up to the first entry that is refused. -/
theorem last_in_first_out (capacity : Option Nat) (requests : List (Request α)) :
    let made : Stack α := empty capacity
    let s := made.after requests
    (s.capacity = capacity ∧
      s.size + (made.history requests).countP Effect.takes =
        (made.history requests).countP Effect.puts ∧
      ∀ limit ∈ capacity, s.size ≤ limit) ∧
    ((∀ a failure, s.push a = .error failure ↔
        ∃ limit ∈ capacity, s.size = limit ∧ failure = .overflow limit) ∧
      (∀ failure, s.pop = .error failure ↔ s.isEmpty = true ∧ failure = .underflow) ∧
      (∀ failure, s.peek = .error failure ↔ s.isEmpty = true ∧ failure = .underflow)) ∧
    (∀ request, (request = .peek ∨ ∃ failure, (s.respond request).1 = .failed failure) →
      (s.respond request).2 = s) ∧
    (∀ a t, s.pop = .ok (a, t) ↔ made.Standing requests a t) ∧
    s.peek = s.pop.map Prod.fst ∧
    (∀ larger : Option Nat, (∀ wide ∈ larger, ∃ narrow ∈ capacity, narrow ≤ wide) →
      ((made.history requests).takeWhile fun effect => !effect.overflows) <+:
        (empty larger : Stack α).history requests) := by
  intro made s
  have hcapacity : s.capacity = capacity :=
    (capacity_after made requests).trans (capacity_empty capacity)
  refine ⟨⟨hcapacity, ?_, ?_⟩, ⟨?_, ?_, ?_⟩, ?_, ?_, s.peek_eq_map, ?_⟩
  · have hsize := size_after made requests
    rwa [show made.size = 0 from rfl, Nat.zero_add] at hsize
  · intro limit hlimit
    exact size_le_capacity (hcapacity.trans hlimit)
  · intro a failure
    rw [push_eq_error_iff, hcapacity]
    constructor
    · rintro ⟨hfull, hfailure⟩
      exact ⟨s.size, hfull, rfl, hfailure⟩
    · rintro ⟨limit, hlimit, rfl, hfailure⟩
      exact ⟨hlimit, hfailure⟩
  · intro failure
    exact pop_eq_error_iff
  · intro failure
    exact peek_eq_error_iff
  · intro request hidle
    have hresponds := s.responds request
    rcases hidle with rfl | ⟨failure, hfailed⟩
    · exact hresponds.eq_of_peek
    · exact hresponds.eq_of_idle (by rw [hfailed]; rfl) (by rw [hfailed]; rfl)
  · intro a t
    exact ⟨standing_of_pop, pop_of_standing⟩
  · intro larger hlarger
    have hnarrower : Narrower made (empty larger) := ⟨rfl, hlarger⟩
    exact hnarrower.history requests

/-- An entry that is shown, another one that is refused, and the same with room for both. -/
theorem last_in_first_out_of_refused_push :
    (empty (some 1) : Stack Nat).Standing [.push 5, .peek, .push 6] 5 (empty (some 1)) ∧
    [Effect.pushed 5, .peeked 5] <+:
      (empty (some 2) : Stack Nat).history [.push 5, .peek, .push 6] := by
  obtain ⟨-, -, -, hpop, -, hlarger⟩ :=
    last_in_first_out (α := Nat) (some 1) [.push 5, .peek, .push 6]
  exact ⟨(hpop 5 (empty (some 1))).mp rfl, hlarger (some 2) (by simp)⟩

end Stack

end OperatorPrecedence
