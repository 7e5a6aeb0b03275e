import DLang.Log
import DLang.Lowering.Stmt

/-!
# Lowering programs

Each function of a program becomes a function of the module, in order, and the body of the program
becomes the function `main` at its end.  Slots are reserved at the head of a function, and those of
integers are set to zero.

A function that runs past its last statement returns zero.  For the functions of the program this
final return can be left out; `main` always has it.
-/

namespace DLang

/-- The instructions that reserve the slot of a variable or an array. -/
def VarDef.lower : VarDef → List IR.Instr
  | scalar name => [.reserve name, .store (.constant 0) (.named name)]
  | array name size => [.reserveArray name size]

/-- The lines of a function: its label, its slots, its body and its final return. -/
def functionLines (slots : List VarDef) (body : List IR.Line) (finalReturn : Bool) :
    List IR.Line :=
  [.label .entry] ++ instrLines (slots.flatMap VarDef.lower) ++ body ++
    if finalReturn then [.instr (.ret (.constant 0))] else []

/-- Lowers a function. -/
def FunctionDecl.lower (finalReturn : Bool) (f : FunctionDecl) (counters : Counters) :
    Except LoweringError (IR.Function × Counters) := do
  let body ← Stmt.lowerAll f.body counters
  return ({ name := f.name
            params := f.paramList
            lines := functionLines f.localList body.code finalReturn }, body.counters)

/-- Lowers functions in order, and reports each that was lowered. -/
def lowerFunctions (finalReturn : Bool) (functions : List FunctionDecl) (counters : Counters) :
    Logged LoweringError (List IR.Function × Counters) :=
  match functions with
  | [] => pure ([], counters)
  | f :: rest => do
    let (first, counters) ← .ofExcept (f.lower finalReturn counters)
    .report (.loweredFunction f.name f.localList.length)
    let (more, counters) ← lowerFunctions finalReturn rest counters
    return (first :: more, counters)

/-- Lowers the body of a program to the function `main`. -/
def Program.lowerMain (p : Program) (counters : Counters) :
    Except LoweringError (IR.Function × Counters) := do
  let body ← Stmt.lowerAll p.body counters
  return ({ name := "main"
            params := []
            lines := functionLines p.varDefs body.code true }, body.counters)

/-- Lowers a program to a module; the counters tell what the module uses. -/
def Program.lower (finalReturn : Bool) (p : Program) :
    Logged LoweringError (IR.Module × Counters) := do
  let (functions, counters) ←
    lowerFunctions finalReturn p.functions { temporaries := 0, labels := 0 }
  let (main, counters) ← .ofExcept (p.lowerMain counters)
  return ({ functions := functions ++ [main] }, counters)

end DLang
