import DLang.Command.Arguments
import DLang.Command.Prompt

/-!
# The program

The outermost layer: it reads arguments, files and standard input, and writes what the commands
make of them.
-/

namespace DLang

/-- The message of a failed read or write. -/
def fileMessage : IO.Error → String
  | .noFileOrDirectory .. => FileError.notFound.message
  | .inappropriateType _ 20 _ => FileError.notDirectory.message
  | .inappropriateType _ 21 _ => FileError.isDirectory.message
  | .invalidArgument _ 36 _ => FileError.nameTooLong.message
  | error => toString error

/-- All lines of standard input from here on. -/
partial def readAll (input : IO.FS.Stream) (before : String) : IO String := do
  let line ← input.getLine
  if line.isEmpty then return before else readAll input (before ++ line)

/-- An action on files or streams, with the message of its failure. -/
def reporting {α : Type} (action : IO α) : ExceptT String IO α := ExceptT.mk do
  try
    return .ok (← action)
  catch error => return .error (fileMessage error)

/-- The host of the program: the files and streams of the system, with the log on standard error. -/
def Host.system (verbosity : Nat) : Host IO where
  readStandard := reporting do readAll (← IO.getStdin) ""
  readFile path := reporting (IO.FS.readFile path)
  print text := reporting do
    let stdout ← IO.getStdout
    stdout.putStr text
    stdout.flush
  writeFile path text := reporting (IO.FS.writeFile path text)
  log events := IO.eprint (renderLog (.ofVerbosity verbosity) events)

/-- Compiles as an invocation asks. -/
def runCompile (invocation : Invocation) : IO UInt32 := do
  match ← (invocation.carryOut (.system invocation.verbosity)).run with
  | .ok () => return 0
  | .error report =>
    IO.eprint report.text
    return 1

/-- Evaluates the lines of standard input until it ends or a line says so. -/
partial def runPrompt (verbosity : Nat) (input : IO.FS.Stream) : IO UInt32 := do
  if ← input.isTty then
    IO.print "dl > "
    (← IO.getStdout).flush
  let line ← input.getLine
  if line.isEmpty then return 0
  match Prompt.cleanLine line with
  | none =>
    IO.eprint Prompt.damagedMessage
    return 101
  | some cleaned =>
    if cleaned = Prompt.quit then return 0
    if cleaned ≠ "" then
      let evaluated := Prompt.evalLine cleaned
      IO.eprint (renderLog (.ofVerbosity verbosity) evaluated.events)
      IO.print (Prompt.answer evaluated)
    runPrompt verbosity input

end DLang

def main (arguments : List String) : IO UInt32 := do
  match DLang.Command.ofArguments arguments with
  | .error error =>
    IO.eprintln ("error: " ++ error.message)
    return 2
  | .ok (.compile invocation) => DLang.runCompile invocation
  | .ok (.prompt verbosity) => DLang.runPrompt verbosity (← IO.getStdin)
