import OperatorPrecedence.Decimal.Digits

/-!
# Command line arguments

Arguments are read from left to right.  An option is written with two dashes and
its name or with one dash and its letter.  Letters may share a dash.  A value follows its
option as the next argument, behind an equals sign, or directly behind a letter.  Two
dashes alone end the options.  The one argument that is no option is the expression.

Asking for help or for the version acts at once, so what stands behind it is not
looked at, and a mistake before it comes first.

## Main definitions

* `Choice` — the options.
* `Settings` — what a command line settles.
* `Misuse` — what can be wrong with a command line.
* `Settings.ofArguments` — reads the arguments.
-/

namespace OperatorPrecedence.CommandLine

/-- The options of the command line. -/
inductive Choice where
  /-- Print no banner. -/
  | quiet
  /-- Append the terminator if it is missing. -/
  | autoTerminate
  /-- The number of digits behind the decimal point. -/
  | precision
  /-- The capacity of both stacks. -/
  | stackCapacity
  /-- Log more. -/
  | verbose
  /-- Print the help text. -/
  | help
  /-- Print the version. -/
  | version
  deriving DecidableEq

namespace Choice

/-- The name of an option, as it stands behind two dashes. -/
def name : Choice → String
  | quiet => "quiet"
  | autoTerminate => "auto-terminate"
  | precision => "precision"
  | stackCapacity => "stack-capacity"
  | verbose => "verbose"
  | help => "help"
  | version => "version"

/-- The option with a given name. -/
def ofName? (text : List Char) : Option Choice :=
  [quiet, autoTerminate, precision, stackCapacity, verbose, help, version].find?
    fun choice => choice.name.toList = text

/-- The option with a given letter; the stack capacity has none. -/
def ofLetter? : Char → Option Choice
  | 'q' => some quiet
  | 't' => some autoTerminate
  | 'p' => some precision
  | 'v' => some verbose
  | 'h' => some help
  | 'V' => some version
  | _ => none

/-- Whether an option takes a value. -/
def takesValue : Choice → Bool
  | precision | stackCapacity => true
  | quiet | autoTerminate | verbose | help | version => false

end Choice

/-- What can be wrong with a command line. -/
inductive Misuse where
  /-- There is no such option. -/
  | unknownOption (text : String)
  /-- An option stands there twice that may stand there only once. -/
  | repeated (choice : Choice)
  /-- An option lacks its value. -/
  | missingValue (choice : Choice)
  /-- The value of an option is no number in range. -/
  | invalidValue (choice : Choice) (value : String)
  /-- An option that takes no value has one. -/
  | unexpectedValue (choice : Choice) (value : String)
  /-- There is more than one expression. -/
  | extraArgument (text : String)
  deriving DecidableEq

/-- What a mistake in a command line says to a reader. -/
def Misuse.message : Misuse → String
  | unknownOption text => s!"error: unknown option '{text}'"
  | repeated choice => s!"error: option '--{choice.name}' is given more than once"
  | missingValue choice => s!"error: option '--{choice.name}' needs a value"
  | invalidValue choice value => s!"error: invalid value '{value}' for option '--{choice.name}'"
  | unexpectedValue choice value =>
    s!"error: unexpected value '{value}' for option '--{choice.name}'"
  | extraArgument text => s!"error: unexpected argument '{text}'"

/-- Why a command line asks for no evaluation. -/
inductive Diversion where
  /-- It asks for the help text. -/
  | help
  /-- It asks for the version. -/
  | version
  /-- There is a mistake in it. -/
  | misuse (misuse : Misuse)
  deriving DecidableEq

/-- What a command line settles. -/
structure Settings where
  /-- The expression; it is read from standard input if there is none. -/
  expression : Option String
  /-- Whether to leave the banner out. -/
  quiet : Bool
  /-- Whether to append the terminator if it is missing. -/
  autoTerminate : Bool
  /-- The number of digits behind the decimal point. -/
  precision : Nat
  /-- The capacity of both stacks. -/
  stackCapacity : Option Nat
  /-- How often more of the log was asked for. -/
  verbosity : Nat
  deriving DecidableEq

/-- The number of digits behind the decimal point if none is asked for. -/
def defaultPrecision : Nat := 6

/-- The options and the expression found so far. -/
structure Draft where
  /-- The expression. -/
  expression : Option String
  /-- Whether the banner is to be left out. -/
  quiet : Bool
  /-- Whether the terminator is to be appended. -/
  autoTerminate : Bool
  /-- The number of digits asked for. -/
  precision : Option Nat
  /-- The capacity asked for. -/
  stackCapacity : Option Nat
  /-- How often more of the log was asked for. -/
  verbosity : Nat

/-- An argument by its form. -/
inductive Word where
  /-- Two dashes alone. -/
  | separator
  /-- Two dashes and a name, with the value behind an equals sign if there is one. -/
  | long (name : List Char) (value : Option (List Char))
  /-- One dash and the letters behind it. -/
  | short (letters : List Char)
  /-- Anything else, a single dash included. -/
  | operand

/-- The form of an argument. -/
def Word.of : List Char → Word
  | ['-', '-'] => separator
  | '-' :: '-' :: text =>
    match text.dropWhile (· ≠ '=') with
    | [] => long text none
    | _ :: value => long (text.takeWhile (· ≠ '=')) (some value)
  | '-' :: c :: letters => short (c :: letters)
  | _ => operand

/-- A number that fits into 64 bits: decimal digits behind an optional plus. -/
def readSize? (text : List Char) : Option Nat :=
  let digits := match text with
    | '+' :: digits => digits
    | digits => digits
  (readDigits? digits).filter (· < UInt64.size)

namespace Draft

/-- The draft before the first argument. -/
def empty : Draft := ⟨none, false, false, none, none, 0⟩

/-- Takes an option that has no value. -/
def flag (d : Draft) (choice : Choice) : Except Diversion Draft :=
  match choice with
  | .quiet =>
    if d.quiet then .error (.misuse (.repeated choice)) else .ok { d with quiet := true }
  | .autoTerminate =>
    if d.autoTerminate then .error (.misuse (.repeated choice))
    else .ok { d with autoTerminate := true }
  | .verbose => .ok { d with verbosity := d.verbosity + 1 }
  | .help => .error .help
  | .version => .error .version
  | .precision | .stackCapacity => .error (.misuse (.missingValue choice))

/-- Takes an option with its value. -/
def assign (d : Draft) (choice : Choice) (text : List Char) : Except Diversion Draft :=
  let invalid := Except.error (.misuse (.invalidValue choice (String.ofList text)))
  match choice with
  | .precision =>
    if d.precision.isSome then .error (.misuse (.repeated choice))
    else match readSize? text with
      | some n => .ok { d with precision := some n }
      | none => invalid
  | .stackCapacity =>
    if d.stackCapacity.isSome then .error (.misuse (.repeated choice))
    else match readSize? text with
      | some n => .ok { d with stackCapacity := some n }
      | none => invalid
  | _ => .error (.misuse (.unexpectedValue choice (String.ofList text)))

/-- Takes an argument that is no option. -/
def operand (d : Draft) (text : String) : Except Diversion Draft :=
  match d.expression with
  | some _ => .error (.misuse (.extraArgument text))
  | none => .ok { d with expression := some text }

/-- Takes letters that share a dash.  If the last one needs a value and none stands
behind it, that option is handed back. -/
def letters (d : Draft) : List Char → Except Diversion (Draft × Option Choice)
  | [] => .ok (d, none)
  | c :: rest =>
    match Choice.ofLetter? c with
    | none => .error (.misuse (.unknownOption (String.ofList ['-', c])))
    | some choice =>
      if choice.takesValue then
        match rest with
        | [] => .ok (d, some choice)
        | '=' :: value => return (← d.assign choice value, none)
        | value => return (← d.assign choice value, none)
      else do
        (← d.flag choice).letters rest

/-- Takes an option by its name.  If it needs a value and has none, it is handed
back. -/
def long (d : Draft) (name : List Char) (value : Option (List Char)) :
    Except Diversion (Draft × Option Choice) :=
  match Choice.ofName? name with
  | none => .error (.misuse (.unknownOption (String.ofList ('-' :: '-' :: name))))
  | some choice =>
    match value with
    | some value => return (← d.assign choice value, none)
    | none => if choice.takesValue then .ok (d, some choice) else return (← d.flag choice, none)

/-- Takes the remaining arguments.  An option whose value is still to come is
given as `pending`; its value must not look like an option. -/
def arguments (d : Draft) (pending : Option Choice) : List String → Except Diversion Draft
  | [] =>
    match pending with
    | none => .ok d
    | some choice => .error (.misuse (.missingValue choice))
  | text :: rest =>
    match pending, Word.of text.toList with
    | some choice, .operand => do (← d.assign choice text.toList).arguments none rest
    | some choice, _ => .error (.misuse (.missingValue choice))
    | none, .operand => do (← d.operand text).arguments none rest
    | none, .separator => rest.foldlM operand d
    | none, .long name value => do
      let (d, pending) ← d.long name value
      d.arguments pending rest
    | none, .short text => do
      let (d, pending) ← d.letters text
      d.arguments pending rest

/-- What a finished draft settles. -/
def settings (d : Draft) : Settings :=
  ⟨d.expression, d.quiet, d.autoTerminate, d.precision.getD defaultPrecision, d.stackCapacity,
    d.verbosity⟩

end Draft

/-- Reads the arguments of a command line. -/
def Settings.ofArguments (arguments : List String) : Except Diversion Settings :=
  (Draft.empty.arguments none arguments).map Draft.settings

end OperatorPrecedence.CommandLine
