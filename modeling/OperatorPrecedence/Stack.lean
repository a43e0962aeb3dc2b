/-!
# Bounded stacks

A stack that holds at most as many entries as its capacity allows, or any number
of them if it has none.

A stack keeps the number of entries that still fit rather than the capacity, so
that no stack can hold more than it may: the capacity is what it holds together
with what still fits.

## Main definitions

* `Stack` — the entries and the room that is left.
* `Stack.push`, `Stack.pop`, `Stack.peek` — the operations, which may fail.
* `Stack.Failure` — why an operation fails.

## Main results

* `Stack.capacity_push`, `Stack.capacity_pop` — the capacity never changes.
* `Stack.push_eq_error_iff` — only a full stack refuses an entry.
* `Stack.pop_eq_error_iff`, `Stack.peek_eq_error_iff` — only an empty stack has none to give.
-/

namespace OperatorPrecedence

/-- A stack of entries, with or without a limit to their number. -/
structure Stack (α : Type) where
  /-- The entries, the top one first. -/
  items : List α
  /-- How many more entries fit; `none` if there is no limit. -/
  room : Option Nat

namespace Stack

variable {α : Type}

/-- Why an operation on a stack fails. -/
inductive Failure where
  /-- There is no room for another entry. -/
  | overflow (capacity : Nat)
  /-- There is no entry. -/
  | underflow
  deriving DecidableEq

/-- What a failure says to a reader. -/
def Failure.message : Failure → String
  | overflow capacity => s!"Stack overflow: capacity of {capacity} reached."
  | underflow => "Stack underflow: the stack is empty."

/-- The stack without entries. -/
def empty (capacity : Option Nat) : Stack α := ⟨[], capacity⟩

/-- The number of entries. -/
def size (s : Stack α) : Nat := s.items.length

/-- Whether there are no entries. -/
def isEmpty (s : Stack α) : Bool := s.items.isEmpty

/-- The largest number of entries the stack can hold, if there is one. -/
def capacity (s : Stack α) : Option Nat := s.room.map (s.size + ·)

/-- Puts an entry on top, if there is room. -/
def push (s : Stack α) (a : α) : Except Failure (Stack α) :=
  match s.room with
  | none => .ok ⟨a :: s.items, none⟩
  | some 0 => .error (.overflow s.size)
  | some (room + 1) => .ok ⟨a :: s.items, some room⟩

/-- Takes the top entry away. -/
def pop (s : Stack α) : Except Failure (α × Stack α) :=
  match s.items with
  | [] => .error .underflow
  | a :: items => .ok (a, ⟨items, s.room.map (· + 1)⟩)

/-- The top entry. -/
def peek (s : Stack α) : Except Failure α :=
  match s.items with
  | [] => .error .underflow
  | a :: _ => .ok a

/-- Stacks are equal if they hold equal entries in the same order and have the
same capacity. -/
instance [BEq α] : BEq (Stack α) where
  beq s t := s.items == t.items && s.capacity == t.capacity

/-! ### The operations through entries and capacity -/

@[simp] theorem capacity_empty (capacity : Option Nat) :
    (empty capacity : Stack α).capacity = capacity := by
  cases capacity <;> simp [empty, Stack.capacity, size]

theorem items_push {s t : Stack α} {a : α} (h : s.push a = .ok t) : t.items = a :: s.items := by
  unfold push at h
  split at h <;> cases h <;> rfl

theorem capacity_push {s t : Stack α} {a : α} (h : s.push a = .ok t) :
    t.capacity = s.capacity := by
  unfold push at h
  split at h
  · next hroom =>
    cases h
    simp [capacity, hroom]
  · contradiction
  · next room hroom =>
    cases h
    simp [capacity, size, hroom]
    omega

theorem items_pop {s t : Stack α} {a : α} (h : s.pop = .ok (a, t)) : s.items = a :: t.items := by
  unfold pop at h
  split at h
  · contradiction
  · next hitems =>
    cases h
    exact hitems

theorem capacity_pop {s t : Stack α} {a : α} (h : s.pop = .ok (a, t)) :
    t.capacity = s.capacity := by
  unfold pop at h
  split at h
  · contradiction
  · next items hitems =>
    cases h
    cases hroom : s.room <;> simp [capacity, size, hitems, hroom]
    omega

/-- An entry is refused exactly when the stack holds as many as it can. -/
theorem push_eq_error_iff {s : Stack α} {a : α} {e : Failure} :
    s.push a = .error e ↔ s.capacity = some s.size ∧ e = .overflow s.size := by
  unfold push
  split <;> next hroom => simp [capacity, hroom, eq_comm]

/-- There is nothing to take away exactly when there is no entry. -/
theorem pop_eq_error_iff {s : Stack α} {e : Failure} :
    s.pop = .error e ↔ s.isEmpty = true ∧ e = .underflow := by
  unfold pop isEmpty
  split <;> next hitems => simp [hitems, eq_comm]

/-- The entry that is shown is the one that would be taken away. -/
theorem peek_eq_map (s : Stack α) : s.peek = s.pop.map Prod.fst := by
  unfold peek pop
  cases s.items <;> rfl

theorem peek_eq_error_iff {s : Stack α} {e : Failure} :
    s.peek = .error e ↔ s.isEmpty = true ∧ e = .underflow := by
  rw [← pop_eq_error_iff, peek_eq_map]
  cases s.pop <;> simp [Except.map]

/-- A stack never holds more than its capacity. -/
theorem size_le_capacity {s : Stack α} {c : Nat} (h : s.capacity = some c) : s.size ≤ c := by
  obtain ⟨room, -, rfl⟩ := Option.map_eq_some_iff.1 h
  exact Nat.le_add_right _ _

end Stack

end OperatorPrecedence
