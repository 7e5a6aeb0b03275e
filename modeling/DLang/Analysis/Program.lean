import DLang.Analysis.Stmt
import DLang.Log

/-!
# Analysing programs

An analyser holds a symbol table and a journal of what it did.  A visit opens a scope for the
program, declares its variables and functions in order, checks its body and leaves the scope.  A
function is declared in the scope around it, then its parameters, local variables and body are
visited in a scope of its own; so a function may call itself and those declared before it.

A visit stops at the first error, in the scope where the error was found: the scopes it opened stay
open.  An analyser can be used again, after a failure too, and then the next program is visited
inside whatever scopes were left open.
-/

namespace DLang

/-- A symbol table and a journal of the visits so far. -/
structure Analyzer where
  table : SymbolTable
  journal : List Event
  deriving DecidableEq, Repr

/-- What a visit leaves: the tree as far as it was annotated, the verdict on it, and the analyser. -/
structure Visit (α : Type) where
  tree : α
  verdict : Except SemanticError Unit
  analyzer : Analyzer

/-- The function names that the module defines or declares by itself. -/
def reservedNames : List String :=
  ["main", "printf", "scanf"]

/-- The symbol that a definition introduces. -/
def VarDef.symbol : VarDef → Symbol
  | scalar name => .var name .int
  | array name size => .array name .int size

namespace FunctionDecl

/-- The symbol that a function introduces in the scope around it. -/
def symbol (f : FunctionDecl) : Symbol :=
  .function f.name f.paramList.length

/-- The symbols that a function introduces in its own scope: parameters, then local variables. -/
def innerSymbols (f : FunctionDecl) : List Symbol :=
  f.paramList.map (fun param => .arg param .int) ++ f.localList.map VarDef.symbol

end FunctionDecl

namespace Analyzer

/-- An analyser that has visited nothing. -/
def fresh : Analyzer :=
  { table := .empty, journal := [] }

/-! ## Steps on the table, each noted in the journal -/

/-- Adds an event to the journal. -/
def note (a : Analyzer) (event : Event) : Analyzer :=
  { a with journal := a.journal ++ [event] }

/-- Opens a scope. -/
def enter (a : Analyzer) : Analyzer :=
  { a with table := a.table.enter }.note (.enteredScope a.table.enter.depth)

/-- Leaves the innermost scope. -/
def leave (a : Analyzer) : Analyzer :=
  { a with table := a.table.exit }.note (.leftScope a.table.exit.depth)

/-- Adds a symbol to the innermost scope. -/
def add (a : Analyzer) (symbol : Symbol) : Analyzer :=
  { a with table := (a.table.add? symbol).getD a.table }.note
    (.addedSymbol symbol a.table.depth)

/-- Declares a symbol, unless the innermost scope has one of its name. -/
def declare (a : Analyzer) (symbol : Symbol) : Except SemanticError Analyzer :=
  if a.table.declaresLocally symbol.name then .error (.redeclared symbol.name)
  else .ok (a.add symbol)

/-- Declares symbols in order, up to the first that cannot be declared. -/
def declareAll (a : Analyzer) : List Symbol → Visit Unit
  | [] => ⟨(), .ok (), a⟩
  | symbol :: rest =>
    match a.declare symbol with
    | .ok a' => a'.declareAll rest
    | .error error => ⟨(), .error error, a⟩

/-! ## Visits -/

/-- Visits the inside of a function, for which a scope was opened. -/
def visitInside (a : Analyzer) (f : FunctionDecl) : Visit FunctionDecl :=
  let declared := a.declareAll f.innerSymbols
  match declared.verdict with
  | .error error => ⟨f, .error error, declared.analyzer⟩
  | .ok () =>
    let body := Stmt.checkAll declared.analyzer.table f.body
    ⟨{ f with body := body.tree }, body.verdict, declared.analyzer⟩

/-- Visits a function declaration. -/
def visitFunction (a : Analyzer) (f : FunctionDecl) : Visit FunctionDecl :=
  if f.name ∈ reservedNames then ⟨f, .error (.redeclared f.name), a⟩
  else
    match a.declare f.symbol with
    | .error error => ⟨f, .error error, a⟩
    | .ok a' =>
      let inside := a'.enter.visitInside f
      match inside.verdict with
      | .error error => ⟨inside.tree, .error error, inside.analyzer⟩
      | .ok () =>
        ⟨inside.tree, .ok (),
          inside.analyzer.leave.note (.analyzedFunction f.name f.paramList.length)⟩

/-- Visits a declaration. -/
def visitDecl (a : Analyzer) : Decl → Visit Decl
  | .vars group =>
    let declared := a.declareAll (group.map VarDef.symbol)
    ⟨.vars group, declared.verdict, declared.analyzer⟩
  | .function f =>
    let visited := a.visitFunction f
    ⟨.function visited.tree, visited.verdict, visited.analyzer⟩

/-- Visits declarations in order. -/
def visitDecls (a : Analyzer) : List Decl → Visit (List Decl)
  | [] => ⟨[], .ok (), a⟩
  | decl :: rest =>
    let visited := a.visitDecl decl
    match visited.verdict with
    | .error error => ⟨visited.tree :: rest, .error error, visited.analyzer⟩
    | .ok () =>
      let others := visited.analyzer.visitDecls rest
      ⟨visited.tree :: others.tree, others.verdict, others.analyzer⟩

/-- Visits a program. -/
def visit (a : Analyzer) (p : Program) : Visit Program :=
  let declared := a.enter.visitDecls p.declarationList
  let declarations := p.declarations.map fun _ => declared.tree
  match declared.verdict with
  | .error error => ⟨{ p with declarations }, .error error, declared.analyzer⟩
  | .ok () =>
    let body := Stmt.checkAll declared.analyzer.table p.body
    match body.verdict with
    | .error error => ⟨{ declarations, body := body.tree }, .error error, declared.analyzer⟩
    | .ok () =>
      ⟨{ declarations, body := body.tree }, .ok (), declared.analyzer.leave.note .analyzed⟩

end Analyzer

/-- The annotated tree of a visit, or the error that ended it. -/
def Visit.result {α : Type} (visit : Visit α) : Except SemanticError α :=
  visit.verdict.map fun _ => visit.tree

end DLang
