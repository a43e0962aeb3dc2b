import OperatorPrecedence.Proofs.Messages
import OperatorPrecedence.Proofs.Sessions
import OperatorPrecedence.Proofs.Writing

/-!
# How sessions end

A session whose arguments are in order should end in one of three ways: it prints a value, it
reports a fault, or it finds no text on standard input.  Each way has a code of its own, and in each
of them standard output holds one line or nothing.

There is a fourth way.  The number of decimal places is looked at only when a value is to be
written, and there are more places to ask for than can be written.  So a session that evaluates
its expression without fault still breaks down if it is asked for too many places.

## Main definitions

* `Settings.selected?` — the text that a session evaluates.
* `Settings.Concludes` — a session ends in one of the three ways.
* `Settings.Excessive` — a value is to be written with too many places.

## Main results

* `cause_ne_notApplicable` — no evaluation comes to an operator that computes nothing.
* `outcome_session` — what a session comes to, from the text that it evaluates.
* `session_concludes_iff` — **a session ends in one of the three ways, unless a value is to be
  written with too many places**.
-/

namespace OperatorPrecedence

/-- No evaluation comes to an operator that computes nothing. -/
theorem cause_ne_notApplicable {ν : Type} [Numbers ν] {capacity : Option Nat}
    {source : List Char} {fault : Fault}
    (h : (evaluation capacity source : Report ν).result = .error fault) (symbol : Char) :
    fault.cause ≠ .notApplicable symbol := by
  have hends := Machine.evaluation_ends (ν := ν) capacity source
  generalize (evaluation capacity source : Report ν) = report at hends h
  cases hends with
  | noRoom limited result =>
    cases result.symm.trans h
    exact Cause.noConfusion
  | exhausted behind =>
    cases h
    exact Cause.noConfusion
  | stopped source_eq behind reads =>
    intro hcause
    have hreportable := (reads.reportable h).2
    rw [hcause] at hreportable
    cases hreportable

namespace CommandLine

namespace Settings

/-! ### The ways to end -/

/-- The text that a session evaluates: the one among the arguments, or else the first line of
standard input, if that is a text. -/
def selected? (s : Settings) (input : List UInt8) : Option String :=
  s.expression.or (String.fromUTF8? (firstLine input).toByteArray)

/-- **A session ends in one of the three ways.**  The ways exclude each other, since each has a
code of its own. -/
inductive Concludes (s : Settings) (input : List UInt8) (ending : Ending) : Prop
  /-- The text has a value, and that is printed on a line of its own, with the places that are
  asked for if it is finite. -/
  | value {text : String} {x : Float} (selected : s.selected? input = some text)
      (result : (s.report text.toList).result = .ok x)
      (exitCode : ending.exitCode = 0)
      (output : ending.output = fixedText s.precision x ++ "\n")
      (line : '\n' ∉ (fixedText s.precision x).toList)
      (writes : ∀ {negative m q}, Binary64.ofFloat x = .finite negative m q →
        Writes negative s.precision (m * 2 ^ q) (fixedText s.precision x).toList) :
      Concludes s input ending
  /-- The text has a fault, and its message is the last line of standard error. -/
  | fault {text : String} {fault : Fault} (selected : s.selected? input = some text)
      (result : (s.report text.toList).result = .error fault)
      (exitCode : ending.exitCode = 1) (output : ending.output = "")
      (last : ∀ host stamps, (ending.standardError host stamps).getLast? = some fault.message)
      (line : '\n' ∉ fault.message.toList) : Concludes s input ending
  /-- There is no text among the arguments, and none on the first line of standard input. -/
  | unreadable (absent : s.expression = none)
      (undecoded : String.fromUTF8? (firstLine input).toByteArray = none)
      (exitCode : ending.exitCode = 2) (output : ending.output = "") : Concludes s input ending

theorem Concludes.exitCode_lt {s : Settings} {input : List UInt8} {ending : Ending}
    (h : s.Concludes input ending) : ending.exitCode < 3 := by
  cases h with
  | value _ _ exitCode => omega
  | fault _ _ exitCode => omega
  | unreadable _ _ exitCode => omega

/-- A value is to be written with too many places. -/
def Excessive (s : Settings) (input : List UInt8) : Prop :=
  precisionLimit < s.precision ∧
    ∃ text x, s.selected? input = some text ∧ (s.report text.toList).result = .ok x

end Settings

/-! ### What a session comes to -/

variable {arguments : List String} {settings : Settings}

/-- What a session comes to, from the text that it evaluates. -/
theorem outcome_session (hread : Settings.ofArguments arguments = .ok settings)
    (input : List UInt8) :
    (session arguments input).outcome =
      match settings.selected? input with
      | some text => settings.wording (settings.report text.toList).result
      | none => .unreadable := by
  unfold session Settings.selected?
  rw [hread]
  dsimp only
  cases settings.expression with
  | some text =>
    rw [Option.some_or]
    exact congrArg Ending.outcome (settings.conclude_eq text)
  | none =>
    rw [Option.none_or]
    dsimp only
    unfold Settings.concludeLine
    cases String.fromUTF8? (firstLine input).toByteArray with
    | some text => exact congrArg Ending.outcome (settings.conclude_eq text)
    | none => rfl

namespace Settings

variable {input : List UInt8} {text : String} {ending : Ending}

theorem concludes_of_value {x : Float} (hselected : settings.selected? input = some text)
    (hresult : (settings.report text.toList).result = .ok x)
    (houtcome : ending.outcome = .value (fixedText settings.precision x)) :
    settings.Concludes input ending := by
  refine .value hselected hresult ?_ ?_ (lineFeed_notMem_fixedText settings.precision x)
    fun hfinite => writes_fixedText hfinite settings.precision
  · rw [Ending.exitCode, houtcome, Outcome.exitCode]
  · rw [Ending.output, houtcome, Outcome.output]

theorem concludes_of_fault {fault : Fault} (hselected : settings.selected? input = some text)
    (hresult : (settings.report text.toList).result = .error fault)
    (houtcome : ending.outcome = .fault fault) : settings.Concludes input ending := by
  refine .fault hselected hresult ?_ ?_ ?_ ?_
  · rw [Ending.exitCode, houtcome, Outcome.exitCode]
  · rw [Ending.output, houtcome, Outcome.output]
  · intro host stamps
    rw [Ending.standardError, houtcome, Outcome.complaints, ← List.append_assoc,
      List.getLast?_concat]
  · exact Fault.lineFeed_notMem_message (cause_ne_notApplicable hresult '\n')

theorem concludes_of_unreadable (hselected : settings.selected? input = none)
    (houtcome : ending.outcome = .unreadable) : settings.Concludes input ending := by
  obtain ⟨habsent, hundecoded⟩ := Option.or_eq_none_iff.mp hselected
  refine .unreadable habsent hundecoded ?_ ?_
  · rw [Ending.exitCode, houtcome, Outcome.exitCode]
  · rw [Ending.output, houtcome, Outcome.output]

/-- A text without a fault is not written at all if it is to have too many places. -/
theorem wording_of_excessive {s : Settings} (h : precisionLimit < s.precision) (x : Float) :
    s.wording (.ok x) = .tooPrecise := by
  rw [wording, if_neg (Nat.not_le.mpr h)]

end Settings

/-- **A session ends in one of the three ways, unless a value is to be written with too many
places.**  If it is, there is neither a value nor a fault: standard output stays empty, and the code
is that of a program that broke down. -/
theorem session_concludes_iff (hread : Settings.ofArguments arguments = .ok settings)
    (input : List UInt8) :
    (settings.Concludes input (session arguments input) ↔ ¬ settings.Excessive input) ∧
    (settings.Excessive input →
      (session arguments input).exitCode = 101 ∧ (session arguments input).output = "") := by
  have houtcome := outcome_session hread input
  have hbroken : settings.Excessive input →
      (session arguments input).exitCode = 101 ∧ (session arguments input).output = "" := by
    rintro ⟨hlimit, text, x, hselected, hresult⟩
    rw [hselected] at houtcome
    dsimp only at houtcome
    rw [hresult, Settings.wording_of_excessive hlimit] at houtcome
    rw [Ending.exitCode, Ending.output, houtcome]
    exact ⟨rfl, rfl⟩
  refine ⟨⟨?_, ?_⟩, hbroken⟩
  · intro hconcludes hexcessive
    have hcode := hconcludes.exitCode_lt
    rw [(hbroken hexcessive).1] at hcode
    exact absurd hcode (by decide)
  · intro hmoderate
    cases hselected : settings.selected? input with
    | none =>
      rw [hselected] at houtcome
      exact Settings.concludes_of_unreadable hselected houtcome
    | some text =>
      rw [hselected] at houtcome
      dsimp only at houtcome
      cases hresult : (settings.report text.toList).result with
      | error fault =>
        rw [hresult] at houtcome
        exact Settings.concludes_of_fault hselected hresult houtcome
      | ok x =>
        have hlimit : settings.precision ≤ precisionLimit :=
          Nat.not_lt.mp fun hlimit => hmoderate ⟨hlimit, text, x, hselected, hresult⟩
        rw [hresult, Settings.wording, if_pos hlimit] at houtcome
        exact Settings.concludes_of_value hselected hresult houtcome

/-- As many places as can be written. -/
theorem session_with_greatest_precision :
    Settings.Concludes ⟨some "1=", false, false, 65535, none, 0⟩ []
      (session ["-p", "65535", "1="] []) := by
  have hread : Settings.ofArguments ["-p", "65535", "1="] =
      .ok ⟨some "1=", false, false, 65535, none, 0⟩ := rfl
  refine (session_concludes_iff hread []).1.mpr ?_
  rintro ⟨hlimit, -⟩
  exact absurd hlimit (by decide)

/-- One place more than can be written. -/
theorem session_with_excessive_precision :
    Settings.ofArguments ["-p", "65536", "1="] =
      .ok ⟨some "1=", false, false, 65536, none, 0⟩ ∧
    (∃ x, (Settings.report ⟨some "1=", false, false, 65536, none, 0⟩ "1=".toList).result = .ok x) ∧
    (session ["-p", "65536", "1="] []).exitCode = 101 ∧
    ¬ Settings.Concludes ⟨some "1=", false, false, 65536, none, 0⟩ []
      (session ["-p", "65536", "1="] []) := by
  have hcode : (session ["-p", "65536", "1="] []).exitCode = 101 := rfl
  refine ⟨rfl, ⟨_, rfl⟩, hcode, ?_⟩
  intro hconcludes
  have hlow := hconcludes.exitCode_lt
  rw [hcode] at hlow
  exact absurd hlow (by decide)

end CommandLine

end OperatorPrecedence
