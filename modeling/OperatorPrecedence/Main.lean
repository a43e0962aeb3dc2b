import OperatorPrecedence.CommandLine.Session

/-!
# The calculator

The program: it reads its arguments, and a line of standard input if these hold no
expression, and prints what the session comes to.  The lines of the log are printed
without stamps.
-/

namespace OperatorPrecedence.CommandLine

/-- Reads bytes up to the end of a line or of the input. -/
partial def readLineBytes (stream : IO.FS.Stream) (line : List UInt8) : IO (List UInt8) := do
  let bytes := (← stream.read 1).toList
  if bytes.isEmpty then
    return line.reverse
  else if bytes.contains lineFeed then
    return (bytes ++ line).reverse
  else
    readLineBytes stream (bytes ++ line)

/-- Prints what a session comes to, and gives its code. -/
def Ending.print (ending : Ending) : IO UInt32 := do
  for line in ending.diagnostics do
    IO.eprintln line
  IO.print ending.output
  return ending.exitCode.toUInt32

end OperatorPrecedence.CommandLine

open OperatorPrecedence.CommandLine

/-- The calculator as a program. -/
def main (arguments : List String) : IO UInt32 := do
  match Settings.ofArguments arguments with
  | .error diversion => Ending.print ⟨[], [], .diverted diversion⟩
  | .ok settings =>
    match settings.expression with
    | some expression => (settings.conclude expression).print
    | none =>
      for line in settings.greeting do
        IO.eprintln line
      let line ← readLineBytes (← IO.getStdin) []
      (settings.concludeLine line).print
