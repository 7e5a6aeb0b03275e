import DLang.Analysis.Program
import DLang.IR.Text
import DLang.Lowering.Program
import DLang.Parsing.Program
import DLang.Token.Scan

/-!
# From source text to a module

The stages joined together: lexing, parsing, analysis, lowering and the text of the module.  Each
function here goes one stage further than the one before it.  Illegal characters never end a run;
they are returned beside the tree.  The first error of any later stage does.
-/

namespace DLang

/-- The error of the stage that failed. -/
inductive CompileError where
  | parse (error : ParseError)
  | semantic (error : SemanticError)
  | lowering (error : LoweringError)
  deriving DecidableEq, Repr

namespace CompileError

/-- The message of the stage's own error. -/
def cause : CompileError → String
  | parse error => error.message
  | semantic error => error.message
  | lowering error => error.message

/-- The message, which names the stage. -/
def message : CompileError → String
  | parse error => "parse error: " ++ error.message
  | semantic error => "semantic error: " ++ error.message
  | lowering error => "generation error: " ++ error.message

end CompileError

/-- The choices that a compilation leaves open. -/
structure Options where
  pointers : PointerStyle := .typed
  /-- Whether a function of the program ends with a return of zero. -/
  finalReturn : Bool := true
  deriving DecidableEq, Repr

/-- Lexes a source text. -/
def lexSource {ε : Type} (source : String) : Logged ε Scan :=
  let found := scan source
  { events :=
      found.illegals.map .illegalCharacter ++
        [.lexed found.tokens.length found.illegals.length found.lines]
    result := .ok found }

/-- Lexes and parses a source text. -/
def parseSource (source : String) : Logged CompileError (Program × List IllegalCharacter) := do
  let found ← lexSource source
  let program ← .ofExcept ((parse found.tokens).result.mapError .parse)
  .report (.parsed found.tokens.length)
  return (program, found.illegals)

/-- Analyses a program by itself. -/
def Program.analyze (p : Program) : Logged SemanticError Program :=
  let visited := Analyzer.fresh.visit p
  { events := visited.analyzer.journal, result := visited.result }

/-- Parses a source text and annotates its tree. -/
def analyzeSource (source : String) : Logged CompileError (Program × List IllegalCharacter) := do
  let (program, illegals) ← parseSource source
  let annotated ← program.analyze.mapError .semantic
  return (annotated, illegals)

/-- The text of the module of an annotated program. -/
def Program.generate (options : Options) (p : Program) : Logged LoweringError String := do
  let (m, counters) ← p.lower options.finalReturn
  let text := m.text options.pointers
  .report (.lowered counters.temporaries counters.labels text.utf8ByteSize)
  return text

/-- Compiles a source text to the text of a module. -/
def compileSource (options : Options) (source : String) : Logged CompileError String := do
  let (program, _) ← analyzeSource source
  (program.generate options).mapError .lowering

end DLang
