import OperatorPrecedence.CommandLine.Arguments
import OperatorPrecedence.Evaluation
import OperatorPrecedence.Text.Blank

/-!
# Sessions

What one run of the calculator from the command line comes to: what it prints, and
with which code it ends.

The expression is the one among the arguments.  If there is none, it is the
first line of standard input, with the line feed that ends it.

Not every word on standard error is the calculator's own.  What a line of the log
is stamped with is up to the clock, and what is said of a command line that cannot
be understood, or when the program breaks down, is up to the host.  So an ending
holds neither, and `Ending.standardError` takes both as parameters.

## Main definitions

* `terminated` — an expression with its terminator.
* `Outcome` — what a session comes to.
* `Ending` — an outcome together with what was told on the way.
* `Host`, `stamped` — what others put in: their words, and the stamps of a log.
* `Ending.standardError` — what a session writes to standard error, with all that.
* `Settings.conclude` — evaluates an expression.
* `session` — a whole run, from arguments and standard input to its ending.
-/

namespace OperatorPrecedence.CommandLine

/-- An expression with its terminator: the white space at the end is trimmed, and
an equals sign is appended if there is none. -/
def terminated (source : List Char) : List Char :=
  let trimmed := trimEnd source
  if '=' ∈ trimmed then trimmed else trimmed ++ ['=']

/-- The largest number of digits behind the decimal point that can be written. -/
def precisionLimit : Nat := 65535

/-- What a session comes to. -/
inductive Outcome where
  /-- The expression has a value, written as asked for. -/
  | value (text : String)
  /-- The expression has no value. -/
  | fault (fault : Fault)
  /-- The line on standard input is not a text in UTF-8. -/
  | unreadable
  /-- The expression has a value, but more digits are asked for than can be written. -/
  | tooPrecise
  /-- The command line asks for no evaluation. -/
  | diverted (diversion : Diversion)

/-- An outcome together with what was told on the way. -/
structure Ending where
  /-- The lines that greet a reader who is to enter an expression. -/
  greeting : List String
  /-- The lines of the log, each from its level on, without the stamp before it. -/
  log : List String
  /-- What the session came to. -/
  outcome : Outcome

/-- What the host says on standard error in words of its own. -/
structure Host where
  /-- What is said when the program breaks down. -/
  breakdown : List String
  /-- What is said of a command line that cannot be understood. -/
  usage : Misuse → List String

/-- The lines of a log behind their stamps, such as the time at which each was
written: the `n`-th line follows upon `stamps n`. -/
def stamped (stamps : Nat → String) (log : List String) : List String :=
  log.mapIdx fun n line => stamps n ++ line

/-- The name of the program, and what to enter. -/
def banner : List String :=
  ["opcalc - operator-precedence calculator",
    "Enter an expression ending in '=', for example 1+2="]

/-- The name and the version of the program. -/
def versionLine : String := "opcalc 0.1.0"

/-- What there is to know about the command line, line by line. -/
def helpLines : List String :=
  ["Operator-precedence arithmetic evaluator driven by an operator stack and an operand stack.",
    "",
    "Usage: opcalc [OPTIONS] [EXPRESSION]",
    "",
    "Arguments:",
    "  [EXPRESSION]  The expression to evaluate. Read from standard input when omitted",
    "",
    "Options:",
    "  -q, --quiet                  Do not print the banner before reading from standard input",
    "  -t, --auto-terminate         Append the `=` terminator when the expression lacks one. " ++
      "Trailing whitespace is trimmed first",
    "  -p, --precision <PRECISION>  Number of digits printed after the decimal point [default: 6]",
    "      --stack-capacity <N>     " ++
      "Limit the operator and operand stacks to this many entries each",
    "  -v, --verbose...             Increase log verbosity; repeat for more detail",
    "  -h, --help                   Print help",
    "  -V, --version                Print version"]

namespace Outcome

/-- The code a session ends with. -/
def exitCode : Outcome → Nat
  | value _ | diverted .help | diverted .version => 0
  | fault _ => 1
  | unreadable | diverted (.misuse _) => 2
  | tooPrecise => 101

/-- What an outcome writes to standard output. -/
def output : Outcome → String
  | value text => text ++ "\n"
  | diverted .help => "\n".intercalate helpLines ++ "\n"
  | diverted .version => versionLine ++ "\n"
  | fault _ | unreadable | tooPrecise | diverted (.misuse _) => ""

/-- The lines that an outcome writes to standard error. -/
def complaints (host : Host) : Outcome → List String
  | fault f => [f.message]
  | unreadable =>
    ["Failed to read the expression from standard input: stream did not contain valid UTF-8"]
  | tooPrecise => host.breakdown
  | diverted (.misuse m) => host.usage m
  | value _ | diverted .help | diverted .version => []

end Outcome

/-- The words in which this library says what is the host's to say. -/
def Host.plain : Host where
  breakdown := [s!"error: more than {precisionLimit} digits cannot be written"]
  usage m := [m.message]

namespace Ending

/-- The code a session ends with. -/
def exitCode (e : Ending) : Nat := e.outcome.exitCode

/-- What a session writes to standard output. -/
def output (e : Ending) : String := e.outcome.output

/-- The lines that a session writes to standard error. -/
def standardError (e : Ending) (host : Host) (stamps : Nat → String) : List String :=
  e.greeting ++ (stamped stamps e.log ++ e.outcome.complaints host)

/-- The lines that a session writes to standard error if nothing is stamped and this
library is the host. -/
def diagnostics (e : Ending) : List String := e.standardError Host.plain fun _ => ""

end Ending

namespace Settings

/-- Whether records of a level are shown: outcomes if the log was asked for
twice, moves if it was asked for three times or more. -/
def shows (s : Settings) : Level → Bool
  | .debug => 2 ≤ s.verbosity
  | .trace => 3 ≤ s.verbosity

/-- The lines of the log that are shown, each from its level on. -/
def logLines (s : Settings) (log : List (Record Float)) : List String :=
  (log.filter fun r => s.shows r.event.level).map fun r => s!"{r.event.level.text} {r.text}"

/-- Evaluates an expression and words the result. -/
def conclude (s : Settings) (expression : String) : Ending :=
  let source := expression.toList
  let report := evaluation s.stackCapacity (if s.autoTerminate then terminated source else source)
  let outcome := match report.result with
    | .ok value =>
      if s.precision ≤ precisionLimit then .value (fixedText s.precision value) else .tooPrecise
    | .error fault => .fault fault
  ⟨[], s.logLines report.log, outcome⟩

/-- Evaluates the expression that a line of standard input holds. -/
def concludeLine (s : Settings) (line : List UInt8) : Ending :=
  match String.fromUTF8? line.toByteArray with
  | some expression => s.conclude expression
  | none => ⟨[], [], .unreadable⟩

/-- The banner to print before an expression is read from standard input. -/
def greeting (s : Settings) : List String :=
  if s.quiet then [] else banner

end Settings

/-- The byte that ends a line. -/
def lineFeed : UInt8 := 10

/-- The first line of an input, with the line feed that ends it. -/
def firstLine (input : List UInt8) : List UInt8 :=
  input.takeWhile (· ≠ lineFeed) ++ (input.dropWhile (· ≠ lineFeed)).take 1

/-- A whole run of the calculator, from its arguments and its standard input. -/
def session (arguments : List String) (input : List UInt8) : Ending :=
  match Settings.ofArguments arguments with
  | .error diversion => ⟨[], [], .diverted diversion⟩
  | .ok settings =>
    match settings.expression with
    | some expression => settings.conclude expression
    | none => { settings.concludeLine (firstLine input) with greeting := settings.greeting }

end OperatorPrecedence.CommandLine
