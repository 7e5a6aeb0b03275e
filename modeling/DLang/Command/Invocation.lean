import DLang.Command.Store
import DLang.Compile
import DLang.Text.Blank

/-!
# Compiling from the command line

An invocation names an input, what to produce from it, and where to put that.  `produce` makes the
text from the content of the input, and `destination` says where it goes.  `carryOut` has the steps
in their order, for any host that can read, write and keep a log.  The program runs it in the host
of the system, and `run` in one that acts on a store of files.

A run that fails writes nothing: it ends with a report, an error and what caused it, after the lines
of the log.  A run that succeeds writes the whole text to one destination.

White space at the end of the input is dropped before anything else is done with it.
-/

namespace DLang

/-- Where the source text comes from. -/
inductive Input where
  | standard
  | file (path : String)
  deriving DecidableEq, Repr

namespace Input

/-- The input that an argument names: a dash is standard input. -/
def ofArgument (argument : String) : Input :=
  if argument = "-" then .standard else .file argument

/-- The name of an input in messages. -/
def name : Input → String
  | standard => "-"
  | file path => path

end Input

/-- What to produce from the source text. -/
inductive Emit where
  /-- A listing of the tokens. -/
  | tokens
  /-- The text of the analysed tree. -/
  | tree
  /-- The text of the module. -/
  | module
  deriving DecidableEq, Repr

/-- Where the text goes. -/
inductive Destination where
  | standardOutput
  | file (path : String)
  deriving DecidableEq, Repr

/-- An error, and what caused it, the nearest cause first. -/
structure Report where
  error : String
  causes : List String
  deriving DecidableEq, Repr

namespace Report

/-- The lines of the causes: one stands by itself, more than one are numbered. -/
def causeLines : List String → List String
  | [cause] => ["    " ++ cause]
  | causes => causes.mapIdx fun i cause => "    " ++ toString i ++ ": " ++ cause

/-- The text of a report. -/
def text (report : Report) : String :=
  "Error: " ++ report.error ++ "\n\nCaused by:\n" ++
    String.join ((causeLines report.causes).map fun line => line ++ "\n")

end Report

/-- What a run can do to its surroundings.  What can fail tells the cause if it does. -/
structure Host (m : Type → Type) where
  readStandard : ExceptT String m String
  readFile (path : String) : ExceptT String m String
  /-- Writes to standard output. -/
  print (text : String) : ExceptT String m Unit
  writeFile (path text : String) : ExceptT String m Unit
  log (events : List Event) : m Unit

/-- What a run can change: the files, standard output and the log. -/
structure World where
  store : Store
  stdout : String
  events : List Event
  deriving DecidableEq, Repr

/-- The world of a store, before anything is written. -/
def World.ofStore (store : Store) : World :=
  { store, stdout := "", events := [] }

/-- The host that acts on a world.  An action that fails leaves the world as it is; standard output
takes nothing if there is a reason why it refuses. -/
def Host.ofWorld (stdin : String) (refusal : Option String) : Host (StateM World) where
  readStandard world := (.ok stdin, world)
  readFile path world := ((world.store.read path).mapError FileError.message, world)
  print text world :=
    match refusal with
    | some cause => (.error cause, world)
    | none => (.ok (), { world with stdout := world.stdout ++ text })
  writeFile path text world :=
    match world.store.write path text with
    | .ok store => (.ok (), { world with store })
    | .error error => (.error error.message, world)
  log events world := ((), { world with events := world.events ++ events })

/-- A request to compile. -/
structure Invocation where
  input : Input
  /-- The path to write to, if one is given. -/
  output : Option String
  emit : Emit
  options : Options
  /-- How often more detail in the log is asked for. -/
  verbosity : Nat
  deriving DecidableEq, Repr

/-- What a run leaves behind. -/
structure Outcome where
  exitCode : Nat
  stdout : String
  stderr : String
  store : Store
  deriving DecidableEq, Repr

namespace Invocation

/-- The text to be written, from the content of the input. -/
def produce (invocation : Invocation) (content : String) : Logged Report String :=
  let source := Text.trimEnd content
  match invocation.emit with
  | .tokens => do
    let found ← lexSource source
    return String.join (found.tokens.map fun token => token.listing ++ "\n")
  | .tree => do
    let (program, _) ← (analyzeSource source).mapError fun e => ⟨e.message, [e.cause]⟩
    return program.text ++ "\n"
  | .module =>
    (compileSource invocation.options source).mapError fun e =>
      ⟨"compiling " ++ invocation.input.name, [e.message, e.cause]⟩

/-- Where the text goes: to the given path, else beside the source if it is a module from a file,
else to standard output. -/
def destination (invocation : Invocation) : Destination :=
  match invocation.output, invocation.emit, invocation.input with
  | some path, _, _ => .file path
  | none, .module, .file path => .file (Path.withExtension path "ll")
  | none, _, _ => .standardOutput

/-- The report of an input that cannot be read. -/
def unreadable (invocation : Invocation) (cause : String) : Report :=
  ⟨"reading " ++ invocation.input.name, [cause]⟩

/-- The report of a path that cannot be written. -/
def unwritable (path cause : String) : Report :=
  ⟨"writing " ++ Text.quoted path, [cause]⟩

/-- The report of a standard output that cannot be written. -/
def unprintable (cause : String) : Report :=
  ⟨"writing to stdout", [cause]⟩

section Host

variable {m : Type → Type} [Monad m]

/-- Reads the input. -/
def readInput (host : Host m) (invocation : Invocation) : ExceptT Report m String :=
  match invocation.input with
  | .standard => host.readStandard.adapt invocation.unreadable
  | .file path => (host.readFile path).adapt invocation.unreadable

/-- Writes the text to its destination. -/
def deliver (host : Host m) (invocation : Invocation) (text : String) : ExceptT Report m Unit :=
  match invocation.destination with
  | .standardOutput => (host.print text).adapt unprintable
  | .file path => do
    (host.writeFile path text).adapt (unwritable path)
    host.log [.wroteOutput path]

/-- Carries out an invocation: reads the input, makes the text and writes it, and stops at the first
of these that fails. -/
def carryOut (host : Host m) (invocation : Invocation) : ExceptT Report m Unit := do
  let content ← invocation.readInput host
  let produced := invocation.produce content
  host.log produced.events
  let text ← ExceptT.mk (pure produced.result)
  invocation.deliver host text

end Host

/-- Runs an invocation on standard input and a store of files.  If there is a `refusal`, standard
output cannot be written, and this is why. -/
def run (invocation : Invocation) (stdin : String) (store : Store)
    (refusal : Option String := none) : Outcome :=
  let (result, world) := invocation.carryOut (.ofWorld stdin refusal) (.ofStore store)
  let log := renderLog (.ofVerbosity invocation.verbosity) world.events
  match result with
  | .ok () => { exitCode := 0, stdout := world.stdout, stderr := log, store := world.store }
  | .error report =>
    { exitCode := 1, stdout := world.stdout, stderr := log ++ report.text, store := world.store }

end Invocation

end DLang
