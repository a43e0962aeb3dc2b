import Mathlib.Data.List.Induction
import OperatorPrecedence.Proofs.Reading

/-!
# Only expressions are accepted

The grammar of expressions, as the set of texts that each kind of phrase may be written
with, and the proof that nothing else has a value.

Whether a text is an expression does not depend on how it is grouped, and so a sign at the
start of an expression needs no rule of its own here, as it does among the phrases.

The machine knows nothing of the grammar.  What it does know, once it has come to a value,
is that no character had a defect, that no operand is missing and that every parenthesis
has been closed.  From such a text the phrases can be put together again: every text that
awaits an operand is one which any factor completes to an expression, and for each open
parenthesis there is such a text outside it.

## Main definitions

* `Derives` — the texts that the phrases of the grammar are written with, by their kind.
* `Spelled` — the phrases that a text of some kind can be read as.
* `Completes` — a text that any factor completes to an expression.
* `spell` — a text with open parentheses, taken apart at these.
* `Parsed` — how a text can be taken apart.

## Main results

* `Derives.times` — a product may take up the last term of an expression.
* `derives_iff_exists_phrase` — **the texts of expressions** are those of phrases, although the
  phrases tell more of how an expression is grouped.
* `parsed_of_clean` — a clean text with nothing missing can be taken apart.
* `derives_of_evaluation_eq_ok` — **only expressions have a value.**
-/

namespace OperatorPrecedence

/-! ### The grammar -/

/-- The kinds of phrases. -/
inductive PhraseKind where
  /-- A literal, or an expression in parentheses. -/
  | primary
  /-- A primary behind any number of signs. -/
  | factor
  /-- Factors joined by multiplications and divisions. -/
  | term
  /-- Terms joined by additions and subtractions. -/
  | expression

/-- The texts that phrases are written with. -/
inductive Derives : PhraseKind → List Char → Prop
  /-- A literal: digits and points, at least one of them. -/
  | literal {text : List Char} (nonempty : text ≠ [])
      (numeric : ∀ c ∈ text, isNumeric c = true) : Derives .primary text
  /-- An expression in parentheses. -/
  | group {body : List Char} (h : Derives .expression body) :
      Derives .primary ('(' :: body ++ [')'])
  /-- A factor without a sign. -/
  | factor {text : List Char} (h : Derives .primary text) : Derives .factor text
  /-- A sign and the factor behind it. -/
  | sign {operation : Operation} {text : List Char} (additive : operation.isAdditive = true)
      (h : Derives .factor text) : Derives .factor (operation.symbol :: text)
  /-- A term of a single factor. -/
  | term {text : List Char} (h : Derives .factor text) : Derives .term text
  /-- A product or quotient of a term and a factor. -/
  | product {operation : Operation} {left right : List Char}
      (scaling : operation.isAdditive = false) (hleft : Derives .term left)
      (hright : Derives .factor right) : Derives .term (left ++ operation.symbol :: right)
  /-- An expression of a single term. -/
  | expression {text : List Char} (h : Derives .term text) : Derives .expression text
  /-- A sum or difference of an expression and a term. -/
  | sum {operation : Operation} {left right : List Char}
      (additive : operation.isAdditive = true) (hleft : Derives .expression left)
      (hright : Derives .term right) : Derives .expression (left ++ operation.symbol :: right)

/-- A multiplication or division behind an expression takes up the last term of it. -/
theorem Derives.times {operation : Operation} {text right : List Char}
    (htext : Derives .expression text) (scaling : operation.isAdditive = false)
    (hright : Derives .factor right) :
    Derives .expression (text ++ operation.symbol :: right) := by
  cases htext with
  | expression hterm => exact .expression (.product scaling hterm hright)
  | sum additive hleft hterm =>
    -- the sum keeps its left operand, and the product is its right one
    rw [List.append_assoc, List.cons_append]
    exact .sum additive hleft (.product scaling hterm hright)

/-! ### Phrases and their texts -/

/-- The kind of the phrases of a rank.  The ranks tell apart the terms at the start of an
expression, where a sign applies to all of the term; as texts, these are terms like any other. -/
def Rank.kind : Rank → PhraseKind
  | .primary => .primary
  | .factor => .factor
  | .term | .leading | .head => .term
  | .expression => .expression

/-- A term with a sign in front is a term, since the sign may as well belong to its first
factor. -/
theorem Derives.sign_term {operation : Operation} {text : List Char}
    (additive : operation.isAdditive = true) (h : Derives .term text) :
    Derives .term (operation.symbol :: text) := by
  generalize hkind : PhraseKind.term = kind at h
  induction h with
  | term h => exact .term (.sign additive h)
  | product scaling _ hright ih _ => exact .product scaling (ih hkind) hright
  | _ => cases hkind

theorem Phrase.derives {r : Rank} (p : Phrase r) : Derives r.kind p.text := by
  induction p with
  | literal text nonempty numeric => exact .literal nonempty numeric
  | group body ih => exact .group ih
  | factor p ih => exact .factor ih
  | sign op additive f ih => exact .sign additive ih
  | term f ih => exact .term ih
  | product t op scaling f iht ihf => exact .product scaling iht ihf
  | leading p ih => exact .term (.factor ih)
  | leadingProduct t op scaling f iht ihf => exact .product scaling iht ihf
  | plain t ih => exact ih
  | signed op additive t ih => exact ih.sign_term additive
  | expression h ih => exact .expression ih
  | sum e op additive t ihe iht => exact .sum additive ihe iht

/-- The phrases that a text of some kind can be read as.  A factor or a term can also be read as
the first term of an expression. -/
def Spelled : PhraseKind → List Char → Prop
  | .primary, text => ∃ p : Phrase .primary, p.text = text
  | .factor, text => (∃ f : Phrase .factor, f.text = text) ∧ ∃ h : Phrase .head, h.text = text
  | .term, text => (∃ t : Phrase .term, t.text = text) ∧ ∃ h : Phrase .head, h.text = text
  | .expression, text => ∃ e : Phrase .expression, e.text = text

/-- What is multiplied with the first term of an expression belongs to that term. -/
theorem Phrase.head_times (h : Phrase .head) {op : Operation} (scaling : op.isAdditive = false)
    (f : Phrase .factor) :
    ∃ product : Phrase .head, product.text = h.text ++ op.symbol :: f.text := by
  cases h with
  | plain t => exact ⟨.plain (.leadingProduct t op scaling f), rfl⟩
  | signed sign additive t => exact ⟨.signed sign additive (.product t op scaling f), rfl⟩

theorem Derives.spelled {kind : PhraseKind} {text : List Char} (h : Derives kind text) :
    Spelled kind text := by
  induction h with
  | literal nonempty numeric => exact ⟨.literal _ nonempty numeric, rfl⟩
  | group _ ih =>
    obtain ⟨e, rfl⟩ := ih
    exact ⟨.group e, rfl⟩
  | factor _ ih =>
    obtain ⟨p, rfl⟩ := ih
    exact ⟨⟨.factor p, rfl⟩, .plain (.leading p), rfl⟩
  | @sign op _ additive _ ih =>
    obtain ⟨⟨f, rfl⟩, -⟩ := ih
    exact ⟨⟨.sign op additive f, rfl⟩, .signed op additive (.term f), rfl⟩
  | term _ ih =>
    obtain ⟨⟨f, hf⟩, hhead⟩ := ih
    exact ⟨⟨.term f, hf⟩, hhead⟩
  | @product op _ _ scaling _ _ ihleft ihright =>
    obtain ⟨⟨t, rfl⟩, h, hhead⟩ := ihleft
    obtain ⟨⟨f, rfl⟩, -⟩ := ihright
    refine ⟨⟨.product t op scaling f, rfl⟩, ?_⟩
    rw [← hhead]
    exact h.head_times scaling f
  | expression _ ih =>
    obtain ⟨-, h, hhead⟩ := ih
    exact ⟨.expression h, hhead⟩
  | @sum op _ _ additive _ _ ihleft ihright =>
    obtain ⟨e, rfl⟩ := ihleft
    obtain ⟨⟨t, rfl⟩, -⟩ := ihright
    exact ⟨.sum e op additive t, rfl⟩

/-- **The texts of expressions** are those of the phrases of that rank. -/
theorem derives_iff_exists_phrase {text : List Char} :
    Derives .expression text ↔ ∃ e : Phrase .expression, e.text = text := by
  constructor
  · intro h
    exact h.spelled
  · rintro ⟨e, rfl⟩
    exact e.derives

/-! ### Texts that await an operand -/

/-- Whatever factor follows the text completes it to an expression. -/
def Completes (text : List Char) : Prop :=
  ∀ factor, Derives .factor factor → Derives .expression (text ++ factor)

namespace Completes

theorem nil : Completes [] := by
  intro factor hfactor
  exact .expression (.term hfactor)

/-- A sign may stand wherever a factor may begin. -/
theorem sign {text : List Char} (h : Completes text) {operation : Operation}
    (additive : operation.isAdditive = true) : Completes (text ++ [operation.symbol]) := by
  intro factor hfactor
  rw [List.append_assoc, List.singleton_append]
  exact h _ (.sign additive hfactor)

/-- Behind an expression, any operation may be followed by a factor. -/
theorem operation {text : List Char} (h : Derives .expression text) (operation : Operation) :
    Completes (text ++ [operation.symbol]) := by
  intro factor hfactor
  rw [List.append_assoc, List.singleton_append]
  cases hadditive : operation.isAdditive with
  | true => exact .sum hadditive h (.term hfactor)
  | false => exact h.times hadditive hfactor

theorem literal {text literal : List Char} (h : Completes text) (nonempty : literal ≠ [])
    (numeric : ∀ c ∈ literal, isNumeric c = true) : Derives .expression (text ++ literal) :=
  h _ (.factor (.literal nonempty numeric))

theorem group {text body : List Char} (h : Completes text) (hbody : Derives .expression body) :
    Derives .expression (text ++ ('(' :: body ++ [')'])) :=
  h _ (.factor (.group hbody))

end Completes

/-! ### Texts with open parentheses -/

/-- A text with open parentheses: `group` stands behind the last one, and the texts before it,
the innermost first, stand outside of one parenthesis each. -/
def spell : List (List Char) → List Char → List Char
  | [], group => group
  | outer :: outers, group => spell outers (outer ++ '(' :: group)

theorem spell_append (outers : List (List Char)) (group suffix : List Char) :
    spell outers (group ++ suffix) = spell outers group ++ suffix := by
  induction outers generalizing group with
  | nil => rfl
  | cons outer outers ih =>
    rw [spell, spell, ← ih, List.append_assoc, List.cons_append]

/-- What the innermost group of a text amounts to, by what the last character of the text was:
either any factor completes it, or it is an expression, maybe with a literal at its end
that can still grow. -/
inductive Group : Preceding → List Char → Prop
  /-- An operand is to begin. -/
  | awaiting {preceding : Preceding} {group : List Char} (awaits : preceding.endsOperand = false)
      (h : Completes group) : Group preceding group
  /-- A literal has just been read. -/
  | literal {before literal : List Char} (h : Completes before) (nonempty : literal ≠ [])
      (numeric : ∀ c ∈ literal, isNumeric c = true) : Group .operand (before ++ literal)
  /-- A group has just been closed. -/
  | closed {group : List Char} (h : Derives .expression group) : Group .closing group

namespace Group

variable {preceding : Preceding} {group : List Char}

theorem derives (h : Group preceding group) (hends : preceding.endsOperand = true) :
    Derives .expression group := by
  cases h with
  | awaiting awaits => rw [awaits] at hends; cases hends
  | literal h nonempty numeric => exact h.literal nonempty numeric
  | closed h => exact h

theorem completes (h : Group preceding group) (hends : preceding.endsOperand = false) :
    Completes group := by
  cases h with
  | awaiting awaits h => exact h
  | literal => cases hends
  | closed => cases hends

end Group

/-- How a text can be taken apart at its open parentheses. -/
def Parsed (text : List Char) : Prop :=
  ∃ outers group, text = spell outers group ∧ outers.length + text.count ')' = text.count '(' ∧
    (∀ outer ∈ outers, Completes outer) ∧ Group (.behind text) group

namespace Parsed

variable {text : List Char}

theorem nil : Parsed [] := by
  refine ⟨[], [], rfl, rfl, ?_, .awaiting rfl .nil⟩
  intro outer houter
  cases houter

/-- A digit or a point begins a literal or lets one grow. -/
theorem numeric (h : Parsed text) {c : Char} (hc : isNumeric c = true)
    (hsound : defect? text c = none) : Parsed (text ++ [c]) := by
  obtain ⟨outers, group, htext, hdepth, houters, hgroup⟩ := h
  have hopening : c ≠ '(' := ne_of_isNumeric hc (by decide)
  have hclosing : c ≠ ')' := ne_of_isNumeric hc (by decide)
  have hlast : Preceding.behind text ≠ .closing := by
    intro hlast
    rw [defect?_of_numeric hc, if_pos (Preceding.behind_eq_closing_iff.mp hlast)] at hsound
    cases hsound
  have hbehind : Preceding.behind (text ++ [c]) = .operand := by
    rw [Preceding.behind_append_singleton, if_pos hc]
  refine ⟨outers, group ++ [c], ?_, ?_, houters, ?_⟩
  · rw [spell_append, ← htext]
  · simpa [List.count_append, hopening, hclosing] using hdepth
  · rw [hbehind]
    generalize Preceding.behind text = preceding at hgroup hlast
    cases hgroup with
    | awaiting awaits h => exact .literal h (by simp) (by simpa using hc)
    | @literal before literal h nonempty numeric =>
      rw [List.append_assoc]
      refine .literal h (by simp) ?_
      intro d hd
      rcases List.mem_append.mp hd with hd | hd
      · exact numeric d hd
      · rw [List.mem_singleton.mp hd]
        exact hc
    | closed => exact absurd rfl hlast

/-- An operation that does not lack an operand joins what is before it, or is a sign. -/
theorem operation (h : Parsed text) {operation : Operation}
    (hsupplied : operation.isAdditive = true ∨ endsOperand text = true) :
    Parsed (text ++ [operation.symbol]) := by
  obtain ⟨outers, group, htext, hdepth, houters, hgroup⟩ := h
  refine ⟨outers, group ++ [operation.symbol], ?_, ?_, houters, ?_⟩
  · rw [spell_append, ← htext]
  · simpa [List.count_append] using hdepth
  · rw [Preceding.behind_append_symbol]
    refine .awaiting rfl ?_
    cases hends : endsOperand text with
    | true => exact .operation (hgroup.derives (by simpa using hends)) operation
    | false =>
      have hadditive : operation.isAdditive = true := by simpa [hends] using hsupplied
      exact (hgroup.completes (by simpa using hends)).sign hadditive

/-- An opening parenthesis begins a group inside the innermost one. -/
theorem opening (h : Parsed text) (hends : endsOperand text = false) : Parsed (text ++ ['(']) := by
  obtain ⟨outers, group, htext, hdepth, houters, hgroup⟩ := h
  refine ⟨group :: outers, [], ?_, ?_, ?_, ?_⟩
  · rw [spell, spell_append, ← htext]
  · simp [List.count_append]
    omega
  · intro outer houter
    rcases List.mem_cons.mp houter with rfl | hmem
    · exact hgroup.completes (by simpa using hends)
    · exact houters outer hmem
  · rw [Preceding.behind_append_opening]
    exact .awaiting rfl .nil

/-- A closing parenthesis makes the innermost group an operand of the one outside. -/
theorem closing (h : Parsed text) (hends : endsOperand text = true)
    (hopen : text.count ')' ≠ text.count '(') : Parsed (text ++ [')']) := by
  obtain ⟨outers, group, htext, hdepth, houters, hgroup⟩ := h
  have hbody : Derives .expression group := hgroup.derives (by simpa using hends)
  cases outers with
  | nil =>
    -- no parenthesis would be open
    rw [List.length_nil] at hdepth
    omega
  | cons outer outers =>
    refine ⟨outers, outer ++ ('(' :: group ++ [')']), ?_, ?_, ?_, ?_⟩
    · rw [← List.append_assoc, spell_append, htext, spell]
    · simp [List.count_append] at hdepth ⊢
      omega
    · intro other hother
      exact houters other (List.mem_cons_of_mem _ hother)
    · rw [Preceding.behind_append_closing]
      exact .closed ((houters outer List.mem_cons_self).group hbody)

end Parsed

/-- **A clean text with nothing missing can be taken apart.** -/
theorem parsed_of_clean {text : List Char} (hclean : Clean text) (hunterminated : '=' ∉ text)
    (hmissing : missing text = 0) : Parsed text := by
  -- the machine reads on at the end of the text, and so does the induction
  induction text using List.reverseRecOn with
  | nil => exact .nil
  | append_singleton text c ih =>
    obtain ⟨hbefore, hsound⟩ := clean_append_singleton.mp hclean
    have hterminator : '=' ∉ text := by
      intro hmem
      exact hunterminated (List.mem_append_left _ hmem)
    rw [missing_append_singleton] at hmissing
    have hparsed := ih hbefore hterminator (by omega)
    have hawaits := awaitsOperand_eq_not_endsOperand hbefore hterminator
    cases CharClass.of c with
    | numeric hc => exact hparsed.numeric hc hsound
    | operation operation =>
      refine hparsed.operation ?_
      cases hends : endsOperand text with
      | true => exact .inr rfl
      | false =>
        cases hadditive : operation.isAdditive with
        | true => exact .inl rfl
        | false => simp [hawaits, hends, hadditive] at hmissing
    | opening =>
      refine hparsed.opening ?_
      cases hends : endsOperand text with
      | true => simp [hends] at hsound
      | false => rfl
    | closing =>
      rw [defect?_closing, hawaits] at hsound
      cases hends : endsOperand text with
      | true =>
        refine hparsed.closing hends ?_
        intro hcount
        simp [hends, hcount] at hsound
      | false => simp [hends] at hsound
    | terminator => simp at hunterminated
    | foreign hc => rw [defect?_of_foreign hc] at hsound; cases hsound

/-- A clean text with every parenthesis closed and nothing missing is an expression. -/
theorem derives_of_clean {text : List Char} (hclean : Clean text) (hunterminated : '=' ∉ text)
    (hsound : defect? text '=' = none) (hmissing : missing (text ++ ['=']) = 0) :
    Derives .expression text := by
  rw [missing_append_singleton, lacksOperand_terminator] at hmissing
  obtain ⟨outers, group, htext, hdepth, -, hgroup⟩ :=
    parsed_of_clean hclean hunterminated (by omega)
  have hawaits := awaitsOperand_eq_not_endsOperand hclean hunterminated
  have hends : endsOperand text = true := by
    cases h : endsOperand text with
    | true => rfl
    | false => simp [hawaits, h] at hmissing
  have houters : outers = [] := by
    rw [defect?_terminator, hawaits, hends] at hsound
    refine List.length_eq_zero_iff.mp ?_
    by_cases hopen : text.count ')' < text.count '('
    · simp [hopen] at hsound
    · omega
  subst houters
  rw [htext]
  exact hgroup.derives (by simpa using hends)

/-! ### What has a value -/

open Machine

variable {ν : Type} [Numbers ν]

/-- **Only expressions have a value.**  Whatever the stacks may hold, a source that has a value
holds a terminator, and the characters before the first one are an expression. -/
theorem derives_of_evaluation_eq_ok (capacity : Option Nat) (source : List Char) (value : ν)
    (h : (evaluation capacity source).result = .ok value) :
    ∃ text rest, source = text ++ '=' :: rest ∧ '=' ∉ text ∧ Derives .expression text := by
  have hends := evaluation_ends (ν := ν) capacity source
  generalize (evaluation capacity source : Report ν) = report at h hends
  cases hends with
  | noRoom limited result =>
    rw [Verdict.report, result] at h
    cases h
  | exhausted behind => cases h
  | @stopped text rest c m verdict source_eq behind reads =>
    change verdict.result = _ at h
    cases reads with
    | refused _ _ defect explains malformed result => rw [result] at h; cases h
    | starved operator short result => rw [result] at h; cases h
    | full operator limited sound result => rw [result] at h; cases h
    | finished terminator sound complete result =>
      subst terminator
      exact ⟨text, rest, source_eq, behind.unterminated,
        derives_of_clean behind.clean behind.unterminated sound complete⟩

/-- A product with a group has a value on stacks of four entries, and so it is an expression. -/
theorem derives_of_product_with_group :
    (evaluation (some 4) ['2', '*', '(', '1', '-', '5', ')', '='] : Report Float).result =
        .ok (Numbers.apply .mul (Literal.valueOf ['2'])
          (Numbers.apply .sub (Literal.valueOf ['1']) (Literal.valueOf ['5']))) ∧
      ∃ text rest, ['2', '*', '(', '1', '-', '5', ')', '='] = text ++ '=' :: rest ∧
        '=' ∉ text ∧ Derives .expression text :=
  ⟨rfl, derives_of_evaluation_eq_ok (ν := Float) (some 4) _ _ rfl⟩

end OperatorPrecedence
