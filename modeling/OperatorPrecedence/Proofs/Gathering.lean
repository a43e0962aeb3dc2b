import Mathlib.Data.List.DropRight
import Mathlib.Data.List.Induction
import OperatorPrecedence.Proofs.Value

/-!
# Gathering and taking

Whatever characters are pushed to a literal and whenever its value is taken, the literal stands for
the characters pushed since the last time: its value is that of their longest beginning that is a
number.

Being a number is not monotone along a text.  `1` is one, `1e` and `1e-` are none, and `1e-5` is one
again, so the value that is kept may be old for several characters and then change.  Nothing is
assumed of how texts are read, except that the empty one is no number.

## Main definitions

* `Literal.Action` — what can be done with a literal, and `Literal.after` what it leads to.
* `Literal.gathered` — the characters pushed since the last time that the value was taken.
* `Literal.ReadsLongest` — the value of the longest beginning of a text that is a number.

## Main results

* `Literal.readsLongest_iff` — there is exactly one such value, and `Literal.valueOf` finds it.
* `Literal.text_after`, `Literal.value_after` — what a literal holds after any actions.
* `Literal.represents_gathered` — **a literal stands for the characters pushed since its value was
  last taken**.
-/

namespace OperatorPrecedence

namespace Literal

variable {ν : Type} [Numbers ν]

/-! ### The longest beginning that is a number -/

/-- **The value of the longest beginning of a text that is a number**, and zero if no beginning
is one. -/
inductive ReadsLongest (text : List Char) : ν → Prop
  /-- A beginning is a number, and no longer one is. -/
  | number {begun : List Char} {value : ν} (begins : begun <+: text)
      (reads : Numbers.read? begun = some value)
      (longest : ∀ longer, longer <+: text → begun.length < longer.length →
        (Numbers.read? longer : Option ν) = none) : ReadsLongest text value
  /-- No beginning is a number. -/
  | zero (unread : ∀ begun, begun <+: text → (Numbers.read? begun : Option ν) = none) :
      ReadsLongest text Numbers.zero

theorem ReadsLongest.unique {text : List Char} {value other : ν} (h : ReadsLongest text value)
    (h' : ReadsLongest text other) : value = other := by
  cases h with
  | @number begun _ begins reads longest =>
    cases h' with
    | @number begun' _ begins' reads' longest' =>
      rcases Nat.lt_trichotomy begun.length begun'.length with hlt | heq | hlt
      · rw [longest begun' begins' hlt] at reads'
        cases reads'
      · obtain rfl : begun = begun' :=
          (List.prefix_of_prefix_length_le begins begins' heq.le).eq_of_length heq
        exact Option.some.inj (reads.symm.trans reads')
      · rw [longest' begun begins hlt] at reads
        cases reads
    | zero unread =>
      rw [unread begun begins] at reads
      cases reads
  | zero unread =>
    cases h' with
    | @number begun _ begins reads longest =>
      rw [unread begun begins] at reads
      cases reads
    | zero => rfl

/-- A text with one character more that is no number has the same longest beginning. -/
theorem ReadsLongest.append_singleton {text : List Char} {value : ν} {c : Char}
    (h : ReadsLongest text value) (hunread : (Numbers.read? (text ++ [c]) : Option ν) = none) :
    ReadsLongest (text ++ [c]) value := by
  cases h with
  | number begins reads longest =>
    refine .number (begins.trans (List.prefix_append text [c])) reads ?_
    intro longer hlonger hlt
    rcases List.prefix_concat_iff.mp hlonger with rfl | hbefore
    · exact hunread
    · exact longest longer hbefore hlt
  | zero unread =>
    refine .zero ?_
    intro begun hbegun
    rcases List.prefix_concat_iff.mp hbegun with rfl | hbefore
    · exact hunread
    · exact unread begun hbefore

/-- A text that is a number is its own longest beginning. -/
theorem ReadsLongest.of_read {text : List Char} {value : ν}
    (h : Numbers.read? text = some value) : ReadsLongest text value := by
  refine .number (List.prefix_refl text) h ?_
  intro longer hlonger hlt
  exact absurd hlonger.length_le (Nat.not_le_of_lt hlt)

theorem readsLongest_valueOf (hblank : (Numbers.read? [] : Option ν) = none) (text : List Char) :
    ReadsLongest text (valueOf text : ν) := by
  induction text using List.reverseRecOn with
  | nil =>
    refine .zero ?_
    intro begun hbegun
    rw [List.prefix_nil.mp hbegun]
    exact hblank
  | append_singleton text c ih =>
    rw [valueOf_append_singleton]
    cases hread : (Numbers.read? (text ++ [c]) : Option ν) with
    | none => exact ih.append_singleton hread
    | some value => exact .of_read hread

/-- **A text has exactly one value as a literal.** -/
theorem readsLongest_iff (hblank : (Numbers.read? [] : Option ν) = none) {text : List Char}
    {value : ν} : ReadsLongest text value ↔ value = valueOf text := by
  constructor
  · intro h
    exact h.unique (readsLongest_valueOf hblank text)
  · rintro rfl
    exact readsLongest_valueOf hblank text

/-! ### Actions -/

/-- What can be done with a literal. -/
inductive Action where
  /-- Gather a character. -/
  | push (c : Char)
  /-- Take the value. -/
  | take
  deriving DecidableEq

/-- The character that an action gathers. -/
def Action.char? : Action → Option Char
  | push c => some c
  | take => none

/-- The characters pushed since the last time that the value was taken. -/
def gathered (actions : List Action) : List Char :=
  (actions.rtakeWhile fun action => action.char?.isSome).filterMap Action.char?

@[simp] theorem gathered_nil : gathered [] = [] := by
  simp [gathered]

@[simp] theorem gathered_append_push (actions : List Action) (c : Char) :
    gathered (actions ++ [.push c]) = gathered actions ++ [c] := by
  unfold gathered
  rw [List.rtakeWhile_concat_pos _ _ _ rfl, List.filterMap_append]
  rfl

@[simp] theorem gathered_append_take (actions : List Action) :
    gathered (actions ++ [.take]) = [] := by
  unfold gathered
  rw [List.rtakeWhile_concat_neg _ _ _ (by simp [Action.char?])]
  rfl

/-- The literal that an action leaves. -/
def act (l : Literal ν) : Action → Literal ν
  | .push c => l.push c
  | .take => l.take.2

/-- The literal that any number of actions, one after the other, leave of an empty one. -/
def after (actions : List Action) : Literal ν := actions.foldl act empty

theorem after_append_singleton (actions : List Action) (action : Action) :
    (after (actions ++ [action]) : Literal ν) = (after actions).act action :=
  List.foldl_append

/-! ### What actions preserve -/

theorem text_take (l : Literal ν) : l.take.2.text = [] := by
  cases hempty : l.isEmpty with
  | true =>
    rw [take_of_isEmpty hempty]
    exact (isEmpty_iff_text l).mp hempty
  | false =>
    rw [take_of_begun hempty]
    rfl

/-- A literal with the value of its characters keeps it so. -/
theorem value_act {l : Literal ν} (h : l.value = valueOf l.text) (action : Action) :
    (l.act action).value = valueOf (l.act action).text := by
  cases action with
  | push c => exact value_push h c
  | take =>
    show l.take.2.value = valueOf l.take.2.text
    cases hempty : l.isEmpty with
    | true =>
      rw [take_of_isEmpty hempty]
      exact h
    | false =>
      rw [take_of_begun hempty]
      rfl

theorem value_after (actions : List Action) :
    (after actions : Literal ν).value = valueOf (after actions : Literal ν).text := by
  induction actions using List.reverseRecOn with
  | nil => rfl
  | append_singleton actions action ih =>
    rw [after_append_singleton]
    exact value_act ih action

/-- A literal holds the characters pushed since its value was last taken. -/
theorem text_after (actions : List Action) :
    (after actions : Literal ν).text = gathered actions := by
  induction actions using List.reverseRecOn with
  | nil => rw [gathered_nil]; rfl
  | append_singleton actions action ih =>
    rw [after_append_singleton]
    cases action with
    | push c => rw [gathered_append_push, ← ih]; exact text_push _ c
    | take => rw [gathered_append_take]; exact text_take _

/-- **A literal stands for the characters pushed since its value was last taken.**  It is empty if
there are none, and its value is that of their longest beginning that is a number.  Taking the value
hands it out and leaves an empty literal if there are any; otherwise it hands out nothing and
changes nothing. -/
theorem represents_gathered (hblank : (Numbers.read? [] : Option ν) = none)
    (actions : List Action) :
    let l : Literal ν := after actions
    (l.isEmpty = true ↔ gathered actions = []) ∧
    (∀ value, l.value = value ↔ ReadsLongest (gathered actions) value) ∧
    (gathered actions ≠ [] → l.take = (some l.value, empty)) ∧
    (gathered actions = [] → l.take = (none, l)) := by
  intro l
  have htext : l.text = gathered actions := text_after actions
  have hempty : l.isEmpty = true ↔ gathered actions = [] := by
    rw [isEmpty_iff_text, htext]
  refine ⟨hempty, ?_, ?_, ?_⟩
  · intro value
    have hvalue : l.value = valueOf (gathered actions) := by
      rw [← htext]
      exact value_after actions
    rw [readsLongest_iff hblank, hvalue, eq_comm]
  · intro hsome
    exact take_of_begun (Bool.eq_false_iff.mpr (mt hempty.mp hsome))
  · intro hnone
    exact take_of_isEmpty (hempty.mpr hnone)

/-- Behind a value that has been taken, a text that stopped being a number two characters ago. -/
theorem represents_unfinished_exponent :
    ∃ one : Float, Numbers.read? ['1'] = some one ∧
      (after [.push '7', .take, .take, .push '1', .push 'e', .push '-'] : Literal Float).take =
        (some one, empty) := by
  have hgathered : gathered [.push '7', .take, .take, .push '1', .push 'e', .push '-'] =
      ['1', 'e', '-'] := by decide
  obtain ⟨one, hone⟩ := Option.isSome_iff_exists.mp
    (show (Numbers.read? ['1'] : Option Float).isSome = true by decide)
  obtain ⟨-, hvalue, htake, -⟩ := represents_gathered (ν := Float) (by decide)
    [.push '7', .take, .take, .push '1', .push 'e', .push '-']
  rw [hgathered] at hvalue htake
  have hlongest : ReadsLongest ['1', 'e', '-'] one :=
    ((ReadsLongest.of_read hone).append_singleton (c := 'e') (by decide)).append_singleton
      (by decide)
  refine ⟨one, hone, ?_⟩
  rw [htake (by decide), (hvalue one).mpr hlongest]

end Literal

end OperatorPrecedence
