import Mathlib.Logic.Function.Basic
import OperatorPrecedence.Fault

/-!
# Messages identify faults

What a reader is told about a fault says everything there is to know about it.  Each field of a
message ends at the first character that cannot occur in it: the column at a colon, a count and the
name of a stack at a space, a capacity at a parenthesis.  A quoted character is known from its
escape, since a backslash never stands for itself.  The first character of the text of a cause tells
most causes apart, and the words behind it the others.

## Main definitions

* `Escape` — the ways in which a character is escaped.
* `Cause.initial` — the character that the text of a cause begins with.

## Main results

* `append_cons_inj` — a field ends at the first character that cannot occur in it.
* `toDigits_injective` — numbers are known from their digits, up to base 16.
* `quoted_injective` — characters are known from how they are quoted.
* `Cause.text_injective` — causes are known from their texts.
* `Fault.message_injective` — **faults are known from their messages**.
* `Fault.lineFeed_notMem_message` — a message is a single line.
-/

namespace OperatorPrecedence

/-! ### Fields of a text -/

/-- A field ends at the first character that cannot occur in it. -/
theorem append_cons_inj {α : Type} {d : α} {s t x y : List α} (hs : d ∉ s) (ht : d ∉ t)
    (h : s ++ d :: x = t ++ d :: y) : s = t ∧ x = y := by
  induction s generalizing t with
  | nil =>
    cases t with
    | nil => exact ⟨rfl, List.tail_eq_of_cons_eq h⟩
    | cons b t => exact absurd (List.head_eq_of_cons_eq h ▸ List.mem_cons_self) ht
  | cons a s ih =>
    cases t with
    | nil => exact absurd (List.head_eq_of_cons_eq h ▸ List.mem_cons_self) hs
    | cons b t =>
      obtain ⟨hst, hxy⟩ := ih (List.not_mem_of_not_mem_cons hs) (List.not_mem_of_not_mem_cons ht)
        (List.tail_eq_of_cons_eq h)
      exact ⟨by rw [List.head_eq_of_cons_eq h, hst], hxy⟩

theorem digitChar_inj {m n : Nat} (hm : m < 16) (hn : n < 16)
    (h : Nat.digitChar m = Nat.digitChar n) : m = n := by
  have hall : ∀ m < 16, ∀ n < 16, Nat.digitChar m = Nat.digitChar n → m = n := by decide
  exact hall m hm n hn h

/-- A number is known from its digits, as long as there are digit characters enough. -/
theorem toDigits_injective {b : Nat} (hlow : 1 < b) (hhigh : b ≤ 16) :
    Function.Injective (Nat.toDigits b) := by
  intro m n h
  -- the last digits agree, and so do the digits in front of them
  induction m using Nat.strongRecOn generalizing n with
  | ind m ih =>
    have hlast : ∀ k, k % b < 16 := fun k =>
      Nat.lt_of_lt_of_le (Nat.mod_lt k (Nat.zero_lt_of_lt hlow)) hhigh
    rw [Nat.toDigits_eq_if hlow, Nat.toDigits_eq_if (n := n) hlow] at h
    by_cases hm : m < b
    · by_cases hn : n < b
      · rw [if_pos hm, if_pos hn, List.singleton_inj] at h
        exact digitChar_inj (Nat.lt_of_lt_of_le hm hhigh) (Nat.lt_of_lt_of_le hn hhigh) h
      · rw [if_pos hm, if_neg hn] at h
        have hnil := (List.singleton_eq_append_iff.mp h).resolve_right (by simp)
        exact absurd hnil.1 Nat.toDigits_ne_nil
    · by_cases hn : n < b
      · rw [if_neg hm, if_pos hn] at h
        have hnil := (List.append_eq_singleton_iff.mp h).resolve_right (by simp)
        exact absurd hnil.1 Nat.toDigits_ne_nil
      · rw [if_neg hm, if_neg hn] at h
        obtain ⟨hfront, hdigit⟩ := List.append_inj' h rfl
        have hquotient : m / b = n / b := by
          refine ih (m / b) (Nat.div_lt_self ?_ hlow) hfront
          exact Nat.lt_of_lt_of_le (Nat.zero_lt_of_lt hlow) (Nat.le_of_not_lt hm)
        have hrest : m % b = n % b :=
          digitChar_inj (hlast m) (hlast n) (List.singleton_inj.mp hdigit)
        rw [← Nat.div_add_mod m b, ← Nat.div_add_mod n b, hquotient, hrest]

/-- What is no digit does not occur in a number. -/
theorem notMem_toDigits {c : Char} (hc : c.isDigit = false) (n : Nat) : c ∉ Nat.toDigits 10 n := by
  intro hmem
  rw [Nat.isDigit_of_mem_toDigits (by decide) (by decide) hmem] at hc
  cases hc

/-- What is no digit character of a base does not occur in a number to that base. -/
theorem exists_digitChar_of_mem {b : Nat} (hlow : 1 < b) {n : Nat} {c : Char}
    (hc : c ∈ Nat.toDigits b n) : ∃ k < b, c = Nat.digitChar k := by
  induction n using Nat.strongRecOn with
  | ind n ih =>
    rw [Nat.toDigits_eq_if hlow] at hc
    split at hc
    · next hn => exact ⟨n, hn, List.mem_singleton.mp hc⟩
    · next hn =>
      rcases List.mem_append.mp hc with hfront | hlast
      · refine ih (n / b) (Nat.div_lt_self ?_ hlow) hfront
        exact Nat.lt_of_lt_of_le (Nat.zero_lt_of_lt hlow) (Nat.le_of_not_lt hn)
      · exact ⟨n % b, Nat.mod_lt n (Nat.zero_lt_of_lt hlow), List.mem_singleton.mp hlast⟩

/-- A number in a text ends where the digits do. -/
theorem toDigits_append_inj {m n : Nat} {c : Char} (hc : c.isDigit = false) {s t : List Char}
    (h : Nat.toDigits 10 m ++ c :: s = Nat.toDigits 10 n ++ c :: t) : m = n ∧ s = t := by
  obtain ⟨hdigits, hrest⟩ := append_cons_inj (notMem_toDigits hc m) (notMem_toDigits hc n) h
  exact ⟨toDigits_injective (by decide) (by decide) hdigits, hrest⟩

/-! ### Quoted characters -/

/-- The characters that have a short escape, each with what stands behind the backslash. -/
def shortEscapes : List (Char × Char) :=
  [('\x00', '0'), ('\t', 't'), ('\n', 'n'), ('\r', 'r'), ('\'', '\''), ('\\', '\\')]

/-- **The ways in which a character is escaped.** -/
inductive Escape (c : Char) : List Char → Prop
  /-- It has a short escape. -/
  | short {e : Char} (h : (c, e) ∈ shortEscapes) : Escape c ['\\', e]
  /-- It is written as its code point. -/
  | codePoint : Escape c (codePointEscape c)
  /-- It stands for itself, and has no short escape. -/
  | itself (h : c ∉ shortEscapes.map Prod.fst) : Escape c [c]

theorem escape_escaped (c : Char) : Escape c (escaped c) := by
  unfold escaped
  split
  · exact .short (by decide)
  · exact .short (by decide)
  · exact .short (by decide)
  · exact .short (by decide)
  · exact .short (by decide)
  · exact .short (by decide)
  · next hnull htab hlineFeed hreturn hquote hbackslash =>
    split
    · exact .codePoint
    · refine .itself ?_
      simp only [shortEscapes, List.map_cons, List.map_nil, List.mem_cons, List.not_mem_nil,
        or_false, not_or]
      exact ⟨hnull, htab, hlineFeed, hreturn, hquote, hbackslash⟩

/-- Characters with the same escape are the same. -/
theorem Escape.unique {c d : Char} {s t : List Char} (hc : Escape c s) (hd : Escape d t)
    (h : s = t) : c = d := by
  cases hc with
  | short hshort =>
    cases hd with
    | short hshort' =>
      have hall : ∀ p ∈ shortEscapes, ∀ q ∈ shortEscapes, p.2 = q.2 → p.1 = q.1 := by decide
      exact hall _ hshort _ hshort' (by simpa using h)
    | codePoint => simp [codePointEscape] at h
    | itself => simp at h
  | codePoint =>
    cases hd with
    | short hshort => simp [codePointEscape] at h
    | codePoint =>
      have hdigits : Nat.toDigits 16 c.toNat = Nat.toDigits 16 d.toNat := by
        simpa [codePointEscape] using h
      exact Char.toNat_inj.mp (toDigits_injective (by decide) (by decide) hdigits)
    | itself => simp [codePointEscape] at h
  | itself =>
    cases hd with
    | short hshort => simp at h
    | codePoint => simp [codePointEscape] at h
    | itself => exact List.singleton_inj.mp h

/-- **A character is known from how it is quoted.** -/
theorem quoted_injective : Function.Injective quoted := by
  intro c d h
  have hescaped : escaped c = escaped d := by simpa [quoted] using h
  exact (escape_escaped c).unique (escape_escaped d) hescaped

theorem Escape.lineFeed_notMem {c : Char} {s : List Char} (h : Escape c s) : '\n' ∉ s := by
  cases h with
  | short hshort =>
    have hall : ∀ p ∈ shortEscapes, '\n' ∉ ['\\', p.2] := by decide
    exact hall _ hshort
  | codePoint =>
    have hall : ∀ k < 16, '\n' ≠ Nat.digitChar k := by decide
    have hdigits : '\n' ∉ Nat.toDigits 16 c.toNat := by
      intro hmem
      obtain ⟨k, hk, heq⟩ := exists_digitChar_of_mem (by decide) hmem
      exact hall k hk heq
    simpa [codePointEscape] using hdigits
  | itself hplain =>
    intro hmem
    rw [← List.mem_singleton.mp hmem] at hplain
    exact hplain (by decide)

/-- A line feed is never quoted as it is. -/
theorem lineFeed_notMem_quoted (c : Char) : '\n' ∉ quoted c := by
  simpa [quoted] using (escape_escaped c).lineFeed_notMem

/-! ### Texts of causes -/

namespace StackName

theorem text_injective : Function.Injective text := by
  intro s t h
  cases s <;> cases t <;> first | rfl | exact absurd h (by decide)

theorem space_notMem_text (stack : StackName) : ' ' ∉ stack.text.toList := by
  cases stack <;> decide

/-- The name of a stack ends at the space behind it. -/
theorem text_append_inj {stack stack' : StackName} {s t : List Char}
    (h : stack.text.toList ++ ' ' :: s = stack'.text.toList ++ ' ' :: t) :
    stack = stack' ∧ s = t := by
  obtain ⟨htext, hrest⟩ := append_cons_inj stack.space_notMem_text stack'.space_notMem_text h
  exact ⟨text_injective (String.toList_inj.mp htext), hrest⟩

end StackName

namespace Cause

theorem toList_invalidCharacter (found : Char) : (invalidCharacter found).text.toList =
    "Invalid character ".toList ++ (quoted found ++ ['.']) := by
  show (s!"Invalid character {String.ofList (quoted found)}.").toList = _
  simp only [toString, String.toList_append, String.toList_ofList, List.append_assoc]
  rfl

theorem toList_notApplicable (symbol : Char) : (notApplicable symbol).text.toList =
    "Operator '".toList ++ symbol :: "' cannot be applied.".toList := by
  show (s!"Operator '{symbol}' cannot be applied.").toList = _
  have hsymbol : (toString symbol).toList = [symbol] := String.toList_singleton symbol
  rw [String.toList_append, String.toList_append, hsymbol, List.append_assoc]
  rfl

theorem toList_danglingOperands (count : Nat) : (danglingOperands count).text.toList =
    Nat.toDigits 10 count ++ ' ' :: "values were left without an operator.".toList := by
  show (s!"{count} values were left without an operator.").toList = _
  simp only [toString, String.toList_append, Nat.toList_repr]
  rfl

theorem toList_stackOverflow (stack : StackName) (capacity : Nat) :
    (stackOverflow stack capacity).text.toList =
      "The ".toList ++ (stack.text.toList ++ ' ' ::
        ("stack is full (capacity ".toList ++ (Nat.toDigits 10 capacity ++ ')' :: ['.']))) := by
  show (s!"The {stack.text} stack is full (capacity {capacity}).").toList = _
  simp only [toString, String.toList_append, Nat.toList_repr, List.append_assoc]
  rfl

theorem toList_stackUnderflow (stack : StackName) : (stackUnderflow stack).text.toList =
    "The ".toList ++
      (stack.text.toList ++ ' ' :: "stack is empty; the expression is malformed.".toList) := by
  show (s!"The {stack.text} stack is empty; the expression is malformed.").toList = _
  simp only [toString, String.toList_append, List.append_assoc]
  rfl

/-- The character that the text of a cause begins with; for a digit, zero. -/
def initial : Cause → Char
  | invalidCharacter _ => 'I'
  | missingOperator | missingOperand => 'M'
  | digitAfterClosing => 'A'
  | unmatchedClosing => 'C'
  | unclosedOpening => 'E'
  | unexpectedEnd => 'U'
  | notApplicable _ => 'O'
  | danglingOperands _ => '0'
  | stackOverflow .. | stackUnderflow _ => 'T'

theorem head?_text (cause : Cause) :
    cause.text.toList.head?.map (fun c => if c.isDigit then '0' else c) = some cause.initial := by
  cases cause with
  | invalidCharacter found => rw [toList_invalidCharacter]; rfl
  | notApplicable symbol => rw [toList_notApplicable]; rfl
  | danglingOperands count =>
    obtain ⟨c, digits, hdigits⟩ :=
      List.exists_cons_of_ne_nil (Nat.toDigits_ne_nil (n := count) (b := 10))
    have hc : c.isDigit = true :=
      Nat.isDigit_of_mem_toDigits (by decide) (by decide) (hdigits ▸ List.mem_cons_self)
    rw [toList_danglingOperands, hdigits, List.cons_append, List.head?_cons, Option.map_some,
      if_pos hc]
    rfl
  | stackOverflow stack capacity => rw [toList_stackOverflow]; rfl
  | stackUnderflow stack => rw [toList_stackUnderflow]; rfl
  | _ => rfl

theorem initial_eq_of_text_eq {f g : Cause} (h : f.text = g.text) : f.initial = g.initial :=
  Option.some.inj (by rw [← head?_text, ← head?_text, h])

/-- **A cause is known from its text.** -/
theorem text_injective : Function.Injective text := by
  intro f g h
  have hinitial := initial_eq_of_text_eq h
  have hlist := congrArg String.toList h
  -- only texts with the same first character are left to compare
  cases f with
  | invalidCharacter found =>
    cases g with
    | invalidCharacter found' =>
      rw [toList_invalidCharacter, toList_invalidCharacter] at hlist
      have hquoted := List.append_cancel_right (List.append_cancel_left hlist)
      rw [quoted_injective hquoted]
    | _ => cases hinitial
  | missingOperator =>
    cases g with
    | missingOperator => rfl
    | missingOperand => exact absurd h (by decide)
    | _ => cases hinitial
  | missingOperand =>
    cases g with
    | missingOperator => exact absurd h (by decide)
    | missingOperand => rfl
    | _ => cases hinitial
  | digitAfterClosing =>
    cases g with
    | digitAfterClosing => rfl
    | _ => cases hinitial
  | unmatchedClosing =>
    cases g with
    | unmatchedClosing => rfl
    | _ => cases hinitial
  | unclosedOpening =>
    cases g with
    | unclosedOpening => rfl
    | _ => cases hinitial
  | unexpectedEnd =>
    cases g with
    | unexpectedEnd => rfl
    | _ => cases hinitial
  | notApplicable symbol =>
    cases g with
    | notApplicable symbol' =>
      rw [toList_notApplicable, toList_notApplicable] at hlist
      rw [List.head_eq_of_cons_eq (List.append_cancel_left hlist)]
    | _ => cases hinitial
  | danglingOperands count =>
    cases g with
    | danglingOperands count' =>
      rw [toList_danglingOperands, toList_danglingOperands] at hlist
      rw [(toDigits_append_inj rfl hlist).1]
    | _ => cases hinitial
  | stackOverflow stack capacity =>
    cases g with
    | stackOverflow stack' capacity' =>
      rw [toList_stackOverflow, toList_stackOverflow] at hlist
      obtain ⟨hstack, hrest⟩ := StackName.text_append_inj (List.append_cancel_left hlist)
      rw [hstack, (toDigits_append_inj rfl (List.append_cancel_left hrest)).1]
    | stackUnderflow stack' =>
      -- one is said to be full and the other to be empty
      rw [toList_stackOverflow, toList_stackUnderflow] at hlist
      have hrest := (StackName.text_append_inj (List.append_cancel_left hlist)).2
      cases congrArg (·[9]?) hrest
    | _ => cases hinitial
  | stackUnderflow stack =>
    cases g with
    | stackOverflow stack' capacity' =>
      rw [toList_stackUnderflow, toList_stackOverflow] at hlist
      have hrest := (StackName.text_append_inj (List.append_cancel_left hlist)).2
      cases congrArg (·[9]?) hrest
    | stackUnderflow stack' =>
      rw [toList_stackUnderflow, toList_stackUnderflow] at hlist
      rw [(StackName.text_append_inj (List.append_cancel_left hlist)).1]
    | _ => cases hinitial

/-- A line feed is looked for among the characters of a text, and not in its encoding. -/
theorem lineFeed_notMem_ofList {text : List Char} (h : '\n' ∉ text) :
    '\n' ∉ (String.ofList text).toList := by
  rwa [String.toList_ofList]

/-- The text of a cause is a single line, unless it shows a line feed as a symbol. -/
theorem lineFeed_notMem_text {cause : Cause} (h : cause ≠ .notApplicable '\n') :
    '\n' ∉ cause.text.toList := by
  have hnumber : ∀ n, '\n' ∉ Nat.toDigits 10 n := notMem_toDigits rfl
  have hname : ∀ stack : StackName, '\n' ∉ stack.text.toList := by
    intro stack
    cases stack <;> decide
  cases cause with
  | invalidCharacter found =>
    rw [toList_invalidCharacter]
    simp [lineFeed_notMem_quoted]
  | notApplicable symbol =>
    have hsymbol : '\n' ≠ symbol := by
      rintro rfl
      exact h rfl
    rw [toList_notApplicable]
    simp [hsymbol]
  | danglingOperands count =>
    rw [toList_danglingOperands]
    simp [hnumber]
  | stackOverflow stack capacity =>
    rw [toList_stackOverflow]
    simp [hnumber, hname]
  | stackUnderflow stack =>
    rw [toList_stackUnderflow]
    simp [hname]
  | _ => exact lineFeed_notMem_ofList (by decide)

end Cause

namespace Fault

theorem toList_message (f : Fault) : f.message.toList =
    "Error at column ".toList ++
      (Nat.toDigits 10 f.column ++ ':' :: ' ' :: f.cause.text.toList) := by
  show (s!"Error at column {f.column}: {f.cause.text}").toList = _
  simp only [toString, String.toList_append, Nat.toList_repr, List.append_assoc]
  rfl

/-- **Faults are known from their messages.** -/
theorem message_injective : Function.Injective message := by
  intro f g h
  have hlist := congrArg String.toList h
  rw [toList_message, toList_message] at hlist
  -- the column ends in front of the colon
  obtain ⟨hcolumn, hrest⟩ := toDigits_append_inj rfl (List.append_cancel_left hlist)
  have hcause : f.cause = g.cause :=
    Cause.text_injective (String.toList_inj.mp (List.tail_eq_of_cons_eq hrest))
  cases f
  cases g
  rw [mk.injEq]
  exact ⟨hcolumn, hcause⟩

/-- A message is a single line, unless it shows a line feed as a symbol. -/
theorem lineFeed_notMem_message {f : Fault} (h : f.cause ≠ .notApplicable '\n') :
    '\n' ∉ f.message.toList := by
  have hcolumn : '\n' ∉ Nat.toDigits 10 f.column := notMem_toDigits rfl f.column
  rw [toList_message]
  simp [hcolumn, Cause.lineFeed_notMem_text h]

end Fault

end OperatorPrecedence
