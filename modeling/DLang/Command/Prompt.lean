import DLang.Compile
import DLang.Text.Backspace
import DLang.Text.Blank

/-!
# The prompt

At the prompt every line is a program of its own: it is analysed by itself, and its tree or its
error is shown.  White space around a line is dropped, empty lines are passed over, and `:quit` ends
the dialogue.  Before anything else a line is edited by the backspaces in it, and a line that they
damage breaks the dialogue off.
-/

namespace DLang.Prompt

/-- The line that ends the dialogue. -/
def quit : String :=
  ":quit"

/-- Analyses one line: the text of its tree, after a warning for each illegal character. -/
def evalLine (line : String) : Logged CompileError String := do
  let (program, illegals) ← analyzeSource line
  let warnings := illegals.map fun illegal => "warning: " ++ illegal.message ++ "\n"
  return String.join warnings ++ program.text

/-- A line as it is evaluated, if its backspaces leave one. -/
def cleanLine (line : String) : Option String :=
  (Text.applyBackspaces line.toList).map fun cs => Text.trim (String.ofList cs)

/-- What is shown for a line. -/
def answer (evaluated : Logged CompileError String) : String :=
  match evaluated.result with
  | .ok text => text ++ "\n"
  | .error error => "error: " ++ error.message ++ "\n"

/-- What is said of a line that its backspaces have damaged. -/
def damagedMessage : String :=
  "Error: a backspace cuts a character in two\n"

/-- What a dialogue leaves behind. -/
structure Dialogue where
  exitCode : Nat
  stdout : String
  stderr : String
  deriving DecidableEq, Repr

namespace Dialogue

/-- A dialogue that ends as it should. -/
def ended : Dialogue :=
  { exitCode := 0, stdout := "", stderr := "" }

/-- A dialogue that breaks off. -/
def brokenOff : Dialogue :=
  { exitCode := 101, stdout := "", stderr := damagedMessage }

/-- A dialogue with an evaluated line before it. -/
def after (dialogue : Dialogue) (evaluated : Logged CompileError String) : Dialogue :=
  { dialogue with
    stdout := answer evaluated ++ dialogue.stdout
    stderr := renderLog (.ofVerbosity 0) evaluated.events ++ dialogue.stderr }

/-- The dialogue on some lines. -/
def ofLines : List String → Dialogue
  | [] => ended
  | line :: rest =>
    match cleanLine line with
    | none => brokenOff
    | some cleaned =>
      if cleaned = quit then ended
      else if cleaned = "" then ofLines rest
      else (ofLines rest).after (evalLine cleaned)

/-- The dialogue on the lines of an input. -/
def ofInput (input : String) : Dialogue :=
  ofLines ((input.toList.splitOn '\n').map String.ofList)

end Dialogue

end DLang.Prompt
