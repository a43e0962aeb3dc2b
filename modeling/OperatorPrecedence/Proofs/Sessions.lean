import OperatorPrecedence.Proofs.Terminated

/-!
# Where an expression comes from

An expression stands among the arguments or on the first line of standard input.  It should not
matter where.  It nearly does: the line feed that ends a line is part of what is evaluated, and no
expression holds one.  So it is trimmed away, or it stands behind the terminator, or it comes too
late to save an expression that has no value anyway.

Standard error holds words that are not the calculator's: the stamps of the log, and what the host
says.  Two sessions are compared on the same host, but their stamps may differ, since they run at
different times.

## Main definitions

* `encoded` — the bytes of a text.
* `Settings.report`, `Settings.wording` — what a session evaluates, and how it words the result.
* `Settings.Alike` — settings that differ only in what is printed besides the result.

## Main results

* `concludeLine_encoded`, `firstLine_encoded`, `firstLine_encoded_append` — what is read from
  standard input.
* `Settings.report_lineFeed` — a line feed that is trimmed, or that stands behind the terminator,
  makes no difference.
* `Settings.report_lineFeed_or` — a line feed makes no difference, or there is no value either way.
* `session_of_complete_line` — when two sessions end alike in every respect but the banner.
* `session_of_input_eq` — **a session comes to the same wherever its expression comes from**.
-/

namespace OperatorPrecedence

theorem isBlank_lineFeed : isBlank '\n' = true := by
  simp [isBlank, inRanges, blankRanges]

namespace CommandLine

/-! ### Texts as bytes -/

/-- The bytes of a text in UTF-8. -/
def encoded (text : String) : List UInt8 := text.toUTF8.data.toList

theorem encoded_eq_flatMap (text : String) :
    encoded text = text.toList.flatMap String.utf8EncodeChar := by
  unfold encoded
  rw [String.toUTF8_eq_toByteArray, ← String.utf8Encode_toList, List.utf8Encode,
    List.toList_data_toByteArray]

theorem encoded_append (text text' : String) :
    encoded (text ++ text') = encoded text ++ encoded text' := by
  rw [encoded_eq_flatMap, encoded_eq_flatMap, encoded_eq_flatMap, String.toList_append,
    List.flatMap_append]

theorem encoded_lineFeed : encoded "\n" = [lineFeed] := by
  rfl

/-- A byte of a character is the code of that character, or it is no code of ASCII. -/
theorem toNat_of_mem_utf8EncodeChar {b : UInt8} {c : Char} (h : b ∈ String.utf8EncodeChar c) :
    b.toNat = c.val.toNat ∨ 128 ≤ b.toNat := by
  simp only [String.utf8EncodeChar] at h
  split_ifs at h
  · rw [List.mem_singleton.mp h, UInt8.toNat_ofNat']
    left
    omega
  all_goals
    right
    simp only [List.mem_cons, List.not_mem_nil, or_false] at h
  · rcases h with rfl | rfl <;> rw [UInt8.toNat_ofNat'] <;> omega
  · rcases h with rfl | rfl | rfl <;> rw [UInt8.toNat_ofNat'] <;> omega
  · rcases h with rfl | rfl | rfl | rfl <;> rw [UInt8.toNat_ofNat'] <;> omega

/-- The byte that ends a line occurs in no other character. -/
theorem eq_lineFeed_of_mem {c : Char} (h : lineFeed ∈ String.utf8EncodeChar c) : c = '\n' := by
  rcases toNat_of_mem_utf8EncodeChar h with hval | hlarge
  · exact Char.ext (UInt32.toNat_inj.mp hval.symm)
  · exact absurd hlarge (by decide)

theorem lineFeed_notMem_encoded {text : String} (h : '\n' ∉ text.toList) :
    lineFeed ∉ encoded text := by
  rw [encoded_eq_flatMap, List.mem_flatMap]
  rintro ⟨c, hc, hmem⟩
  rw [eq_lineFeed_of_mem hmem] at hc
  exact h hc

theorem fromUTF8?_encoded (text : String) :
    String.fromUTF8? (encoded text).toByteArray = some text := by
  have hbytes : (encoded text).toByteArray = text.toByteArray := by
    apply ByteArray.ext
    rw [encoded, List.data_toByteArray, Array.toArray_toList, String.toUTF8_eq_toByteArray]
  unfold String.fromUTF8?
  rw [hbytes, dif_pos text.isValidUTF8]
  rfl

theorem concludeLine_encoded (s : Settings) (text : String) :
    s.concludeLine (encoded text) = s.conclude text := by
  unfold Settings.concludeLine
  rw [fromUTF8?_encoded]

/-! ### The first line -/

theorem decide_ne_lineFeed {line : List UInt8} (h : lineFeed ∉ line) :
    ∀ b ∈ line, decide (b ≠ lineFeed) = true := by
  intro b hb
  exact decide_eq_true (ne_of_mem_of_not_mem hb h)

/-- An input without a line feed is one line. -/
theorem firstLine_of_notMem {line : List UInt8} (h : lineFeed ∉ line) : firstLine line = line := by
  unfold firstLine
  rw [List.takeWhile_eq_self_iff.mpr (decide_ne_lineFeed h),
    List.dropWhile_eq_nil_iff.mpr (decide_ne_lineFeed h), List.take_nil, List.append_nil]

/-- Behind the first line feed nothing is read. -/
theorem firstLine_append {line : List UInt8} (h : lineFeed ∉ line) (rest : List UInt8) :
    firstLine (line ++ lineFeed :: rest) = line ++ [lineFeed] := by
  unfold firstLine
  rw [List.takeWhile_append_of_pos (decide_ne_lineFeed h),
    List.dropWhile_append_of_pos (decide_ne_lineFeed h)]
  simp

theorem firstLine_encoded {text : String} (h : '\n' ∉ text.toList) :
    firstLine (encoded text) = encoded text :=
  firstLine_of_notMem (lineFeed_notMem_encoded h)

theorem firstLine_encoded_append {text : String} (h : '\n' ∉ text.toList) (rest : List UInt8) :
    firstLine (encoded text ++ lineFeed :: rest) = encoded (text ++ "\n") := by
  rw [firstLine_append (lineFeed_notMem_encoded h), encoded_append, encoded_lineFeed]

namespace Settings

/-! ### Results and their wording -/

/-- The evaluation that settings ask for. -/
def report (s : Settings) (source : List Char) : Report Float :=
  evaluation s.stackCapacity (if s.autoTerminate then terminated source else source)

/-- A result as settings ask for it to be worded. -/
def wording (s : Settings) : Except Fault Float → Outcome
  | .ok value =>
    if s.precision ≤ precisionLimit then .value (fixedText s.precision value) else .tooPrecise
  | .error fault => .fault fault

theorem conclude_eq (s : Settings) (text : String) :
    s.conclude text =
      ⟨[], s.logLines (s.report text.toList).log, s.wording (s.report text.toList).result⟩ := by
  unfold conclude wording report
  rfl

/-- Settings that differ only in where the expression comes from and in what is written to
standard error. -/
structure Alike (s s' : Settings) : Prop where
  autoTerminate : s.autoTerminate = s'.autoTerminate
  precision : s.precision = s'.precision
  stackCapacity : s.stackCapacity = s'.stackCapacity

namespace Alike

variable {s s' : Settings}

theorem report_eq (h : s.Alike s') (source : List Char) : s.report source = s'.report source := by
  rw [report, report, h.autoTerminate, h.stackCapacity]

theorem wording_eq (h : s.Alike s') (result : Except Fault Float) :
    s.wording result = s'.wording result := by
  cases result with
  | ok value => rw [wording, wording, h.precision]
  | error fault => rfl

theorem outcome_eq (h : s.Alike s') (text : String) :
    (s.conclude text).outcome = (s'.conclude text).outcome := by
  rw [conclude_eq, conclude_eq, h.report_eq, h.wording_eq]

/-- Asked for the same log, they end alike in every respect. -/
theorem conclude_eq_of_verbosity (h : s.Alike s') (hverbosity : s.verbosity = s'.verbosity)
    (text : String) : s.conclude text = s'.conclude text := by
  have hshows : s.shows = s'.shows := by
    funext level
    cases level <;> rw [shows, shows, hverbosity]
  rw [conclude_eq, conclude_eq, h.report_eq, h.wording_eq, logLines, logLines, hshows]

end Alike

/-! ### A line feed at the end -/

/-- A line feed that is trimmed, or that stands behind the terminator, makes no difference. -/
theorem report_lineFeed (s : Settings) {source : List Char}
    (h : s.autoTerminate = true ∨ '=' ∈ source) :
    (s.report (source ++ ['\n'])).result = (s.report source).result ∧
      (s.report (source ++ ['\n'])).log = (s.report source).log := by
  unfold report
  cases hauto : s.autoTerminate with
  | true =>
    have hsame : terminated (source ++ ['\n']) = terminated source := by
      apply terminated_append
      intro c hc
      rw [List.mem_singleton.mp hc]
      exact isBlank_lineFeed
    rw [if_pos rfl, if_pos rfl, hsame]
    exact ⟨rfl, rfl⟩
  | false =>
    have hmem : '=' ∈ source := h.resolve_left (by simp [hauto])
    rw [if_neg Bool.false_ne_true, if_neg Bool.false_ne_true, evaluation_append_of_mem _ hmem]
    exact ⟨rfl, rfl⟩

/-- Without a terminator there is no value. -/
theorem exists_fault_of_report (s : Settings) {source : List Char} (hauto : s.autoTerminate = false)
    (h : '=' ∉ source) : ∃ fault, (s.report source).result = .error fault := by
  unfold report
  rw [hauto, if_neg Bool.false_ne_true]
  exact exists_fault_of_notMem s.stackCapacity h

/-- A line feed makes no difference, or there is no value either way. -/
theorem report_lineFeed_or (s : Settings) (source : List Char) :
    (s.report (source ++ ['\n'])).result = (s.report source).result ∨
      (∃ fault, (s.report source).result = .error fault) ∧
        ∃ fault, (s.report (source ++ ['\n'])).result = .error fault := by
  by_cases h : s.autoTerminate = true ∨ '=' ∈ source
  · exact .inl (s.report_lineFeed h).1
  · obtain ⟨hauto, hnot⟩ := not_or.mp h
    have hauto : s.autoTerminate = false := by simpa using hauto
    have hnot' : '=' ∉ source ++ ['\n'] := by simpa using hnot
    exact .inr ⟨s.exists_fault_of_report hauto hnot, s.exists_fault_of_report hauto hnot'⟩

theorem conclude_lineFeed (s : Settings) {text : String}
    (h : s.autoTerminate = true ∨ '=' ∈ text.toList) :
    s.conclude (text ++ "\n") = s.conclude text := by
  obtain ⟨hresult, hlog⟩ := s.report_lineFeed h
  have htext : (text ++ "\n").toList = text.toList ++ ['\n'] := String.toList_append
  rw [conclude_eq, conclude_eq, htext, hresult, hlog]

/-- Which fault it is shows neither in the code nor on standard output. -/
theorem conclude_lineFeed_or (s : Settings) (text : String) :
    (s.conclude (text ++ "\n")).exitCode = (s.conclude text).exitCode ∧
      (s.conclude (text ++ "\n")).output = (s.conclude text).output := by
  have htext : (text ++ "\n").toList = text.toList ++ ['\n'] := String.toList_append
  rw [conclude_eq, conclude_eq, htext, Ending.exitCode, Ending.exitCode, Ending.output,
    Ending.output]
  rcases s.report_lineFeed_or text.toList with hsame | ⟨⟨fault, hfault⟩, fault', hfault'⟩
  · rw [hsame]
    exact ⟨rfl, rfl⟩
  · rw [hfault, hfault']
    exact ⟨rfl, rfl⟩

end Settings

/-! ### Sessions -/

variable {arguments arguments' : List String} {settings settings' : Settings} {text : String}

theorem session_of_expression (hread : Settings.ofArguments arguments = .ok settings)
    (hgiven : settings.expression = some text) (input : List UInt8) :
    session arguments input = settings.conclude text := by
  unfold session
  rw [hread]
  dsimp only
  rw [hgiven]

theorem session_of_line {line : String} {input : List UInt8}
    (hread : Settings.ofArguments arguments = .ok settings)
    (habsent : settings.expression = none) (hline : firstLine input = encoded line) :
    session arguments input = { settings.conclude line with greeting := settings.greeting } := by
  unfold session
  rw [hread]
  dsimp only
  rw [habsent, hline, concludeLine_encoded]

/-- A session that has a text on standard input greets its reader, and then ends as if it had been
given the text as an argument, unless a line feed is evaluated that is neither trimmed nor behind a
terminator. -/
theorem session_of_complete_line (hread : Settings.ofArguments arguments = .ok settings)
    (habsent : settings.expression = none) (hline : '\n' ∉ text.toList) {input : List UInt8}
    (hinput : input = encoded text ∨ ∃ rest, input = encoded text ++ lineFeed :: rest)
    (hcomplete : settings.autoTerminate = true ∨ '=' ∈ text.toList ∨ input = encoded text) :
    session arguments input = { settings.conclude text with greeting := settings.greeting } := by
  rcases hinput with rfl | ⟨rest, rfl⟩
  · exact session_of_line hread habsent (firstLine_encoded hline)
  · have htrimmed : settings.autoTerminate = true ∨ '=' ∈ text.toList := by
      rcases hcomplete with hauto | hmem | halone
      · exact .inl hauto
      · exact .inr hmem
      · simp at halone
    rw [session_of_line hread habsent (firstLine_encoded_append hline rest),
      settings.conclude_lineFeed htrimmed]

/-- A line feed more or less shows neither in the code nor on standard output. -/
theorem exitCode_output_of_line (hread : Settings.ofArguments arguments = .ok settings)
    (habsent : settings.expression = none) (hline : '\n' ∉ text.toList) {input : List UInt8}
    (hinput : input = encoded text ∨ ∃ rest, input = encoded text ++ lineFeed :: rest) :
    (session arguments input).exitCode = (settings.conclude text).exitCode ∧
      (session arguments input).output = (settings.conclude text).output := by
  rcases hinput with rfl | ⟨rest, rfl⟩
  · rw [session_of_line hread habsent (firstLine_encoded hline)]
    exact ⟨rfl, rfl⟩
  · rw [session_of_line hread habsent (firstLine_encoded_append hline rest)]
    exact settings.conclude_lineFeed_or text

/-- **A session comes to the same wherever its expression comes from.**  One session is given a
text without a line feed as an argument, the other has it on standard input, alone or with a line
feed and anything else behind it.  Both end with the same code and the same standard output.  If
they are asked for the same log, on the same host, standard error is the same behind the banner,
too, but for the stamps in front of the lines of the log, unless a line feed is evaluated that is
neither trimmed nor behind a terminator.  With the same stamps it is the same word for word. -/
theorem session_of_input_eq
    (hread : Settings.ofArguments arguments = .ok settings)
    (hgiven : settings.expression = some text)
    (hread' : Settings.ofArguments arguments' = .ok settings')
    (habsent : settings'.expression = none)
    (halike : settings'.Alike settings)
    (hline : '\n' ∉ text.toList)
    {input : List UInt8}
    (hinput : input = encoded text ∨ ∃ rest, input = encoded text ++ lineFeed :: rest)
    (ignored : List UInt8) :
    (session arguments' input).exitCode = (session arguments ignored).exitCode ∧
    (session arguments' input).output = (session arguments ignored).output ∧
    (settings'.verbosity = settings.verbosity →
      settings.autoTerminate = true ∨ '=' ∈ text.toList ∨ input = encoded text →
      ∀ host, ∃ log rest, ∀ stamps stamps',
        (session arguments ignored).standardError host stamps = stamped stamps log ++ rest ∧
        (session arguments' input).standardError host stamps' =
          settings'.greeting ++ (stamped stamps' log ++ rest)) := by
  have houtcome := halike.outcome_eq text
  obtain ⟨hcode, houtput⟩ := exitCode_output_of_line hread' habsent hline hinput
  rw [session_of_expression hread hgiven]
  refine ⟨hcode.trans (congrArg Outcome.exitCode houtcome),
    houtput.trans (congrArg Outcome.output houtcome), ?_⟩
  intro hverbosity hcomplete host
  rw [← halike.autoTerminate] at hcomplete
  rw [session_of_complete_line hread' habsent hline hinput hcomplete,
    halike.conclude_eq_of_verbosity hverbosity]
  refine ⟨(settings.conclude text).log, (settings.conclude text).outcome.complaints host, ?_⟩
  intro stamps stamps'
  exact ⟨rfl, rfl⟩

/-- A sign without an operand, as an argument and, some hours later, on the first of two lines. -/
theorem session_of_sign_on_line :
    (session ["-tvvv"] (encoded "(-)" ++ lineFeed :: encoded "3=")).exitCode =
      (session ["-tvvv", "(-)"] []).exitCode ∧
    (session ["-tvvv"] (encoded "(-)" ++ lineFeed :: encoded "3=")).output =
      (session ["-tvvv", "(-)"] []).output ∧
    (session ["-tvvv", "(-)"] []).standardError Host.plain (fun n => s!"12:00:0{n} ") =
      ["12:00:00 TRACE column 1: push '(' over '='",
        "12:00:01 TRACE column 2: push '-' over '('",
        "Error at column 3: Missing operand before ')'."] ∧
    (session ["-tvvv"] (encoded "(-)" ++ lineFeed :: encoded "3=")).standardError Host.plain
        (fun n => s!"18:30:0{n} ") =
      ["opcalc - operator-precedence calculator",
        "Enter an expression ending in '=', for example 1+2=",
        "18:30:00 TRACE column 1: push '(' over '='",
        "18:30:01 TRACE column 2: push '-' over '('",
        "Error at column 3: Missing operand before ')'."] := by
  have hread : Settings.ofArguments ["-tvvv", "(-)"] =
      .ok ⟨some "(-)", false, true, 6, none, 3⟩ := rfl
  have hread' : Settings.ofArguments ["-tvvv"] = .ok ⟨none, false, true, 6, none, 3⟩ := rfl
  obtain ⟨hcode, houtput, hstandardError⟩ :=
    session_of_input_eq hread rfl hread' rfl ⟨rfl, rfl, rfl⟩ (by decide)
      (.inr ⟨encoded "3=", rfl⟩) []
  obtain ⟨log, rest, hsame⟩ := hstandardError rfl (.inl rfl) Host.plain
  refine ⟨hcode, houtput, by decide +kernel, ?_⟩
  have hevening := hsame (fun n => s!"18:30:0{n} ") (fun n => s!"18:30:0{n} ")
  rw [hevening.2, ← hevening.1]
  decide +kernel

end CommandLine

end OperatorPrecedence
