import DLang.Command.Invocation

/-!
# Command line arguments

Two commands are understood: `compile`, with an input and options, and `repl`, which opens the
prompt.  Options may stand anywhere among the other arguments; `-v` may be repeated, also in one
word.
-/

namespace DLang

/-- What the command line asks for. -/
inductive Command where
  | compile (invocation : Invocation)
  | prompt (verbosity : Nat)
  deriving DecidableEq, Repr

/-- Why arguments are not understood. -/
inductive UsageError where
  | unknownOption (option : String)
  | missingValue (option : String)
  | unknownEmit (word : String)
  | unknownCommand (words : List String)
  deriving DecidableEq, Repr

/-- The message of a usage error. -/
def UsageError.message : UsageError → String
  | unknownOption option => "unexpected option: " ++ option
  | missingValue option => "option without a value: " ++ option
  | unknownEmit word => "cannot emit: " ++ word
  | unknownCommand words =>
    "expected 'compile' with an input, or 'repl': " ++ " ".intercalate words

/-- The product that a word names. -/
def Emit.ofWord (word : String) : Except UsageError Emit :=
  match word with
  | "tokens" => .ok .tokens
  | "ast" => .ok .tree
  | "ir" => .ok .module
  | _ => .error (.unknownEmit word)

/-- The arguments read so far. -/
structure Arguments where
  /-- The arguments that are no options. -/
  words : List String := []
  output : Option String := none
  emit : Emit := .module
  options : Options := {}
  verbosity : Nat := 0
  deriving DecidableEq, Repr

namespace Arguments

/-- How much detail a word such as `-vv` asks for. -/
def detail? (word : String) : Option Nat :=
  match word.toList with
  | '-' :: 'v' :: more => if more.all (· = 'v') then some (more.length + 1) else none
  | _ => none

/-- Reads arguments after those read so far. -/
def read (arguments : Arguments) : List String → Except UsageError Arguments
  | [] => .ok arguments
  | "--output" :: path :: rest | "-o" :: path :: rest =>
    { arguments with output := some path }.read rest
  | "--emit" :: word :: rest => do
    let emit ← Emit.ofWord word
    { arguments with emit }.read rest
  | "--opaque-pointers" :: rest =>
    { arguments with options := { arguments.options with pointers := .untyped } }.read rest
  | "--no-fallthrough-return" :: rest =>
    { arguments with options := { arguments.options with finalReturn := false } }.read rest
  | "--verbose" :: rest => { arguments with verbosity := arguments.verbosity + 1 }.read rest
  | word :: rest =>
    if let some detail := detail? word then
      { arguments with verbosity := arguments.verbosity + detail }.read rest
    else if word = "--output" ∨ word = "-o" ∨ word = "--emit" then .error (.missingValue word)
    else if word.toList.head? = some '-' ∧ word ≠ "-" then .error (.unknownOption word)
    else { arguments with words := arguments.words ++ [word] }.read rest

/-- The command that the arguments make up. -/
def command (arguments : Arguments) : Except UsageError Command :=
  match arguments.words with
  | ["compile", input] =>
    .ok <| .compile
      { input := .ofArgument input
        output := arguments.output
        emit := arguments.emit
        options := arguments.options
        verbosity := arguments.verbosity }
  | ["repl"] => .ok (.prompt arguments.verbosity)
  | words => .error (.unknownCommand words)

end Arguments

/-- The command of a list of arguments. -/
def Command.ofArguments (arguments : List String) : Except UsageError Command := do
  (← Arguments.read {} arguments).command

end DLang
