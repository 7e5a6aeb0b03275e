import DLang.Symbol.Basic

/-!
# Program trees

A program is an optional list of declarations and a block of statements.  Declarations are variable
groups and functions; a function has parameters, at most one variable group and a body.

Where the grammar makes a list optional, an absent list is told apart from an empty one: a call
without arguments has `none`, and a tree built by hand may hold `some []`.  The two mean the same to
every analysis and differ in the tree's text.

Expressions, targets and statements have room for annotations: the type of an expression, the
symbol a name resolves to, and the two types of an assignment.  The parser leaves them open and the
analysis fills them in.
-/

namespace DLang

/-- The arithmetic operators. -/
inductive ArithOp where
  | add
  | sub
  | mul
  | div
  deriving DecidableEq, Repr

/-- The comparison operators. -/
inductive RelOp where
  | equal
  | notEqual
  | less
  | lessEqual
  | greater
  | greaterEqual
  deriving DecidableEq, Repr

/-- Expressions, each with an annotation for its type. -/
inductive Expr where
  | integer (value : Int32) (ty : Option Ty)
  | var (name : String) (symbol : Option Symbol) (ty : Option Ty)
  /-- An element of an array. -/
  | element (name : String) (index : Expr) (symbol : Option Symbol) (ty : Option Ty)
  | arith (op : ArithOp) (left right : Expr) (ty : Option Ty)
  | compare (op : RelOp) (left right : Expr) (ty : Option Ty)
  | call (name : String) (args : Option (List Expr)) (ty : Option Ty)
  deriving Repr, Inhabited

/-- The type with which an expression is annotated. -/
def Expr.ty : Expr → Option Ty
  | integer _ ty => ty
  | var _ _ ty => ty
  | element _ _ _ ty => ty
  | arith _ _ _ ty => ty
  | compare _ _ _ ty => ty
  | call _ _ ty => ty

/-- What an assignment can write to. -/
inductive Target where
  | var (name : String) (symbol : Option Symbol)
  | element (name : String) (index : Expr) (symbol : Option Symbol)
  deriving Repr

/-- The name that a target writes to. -/
def Target.name : Target → String
  | var name _ => name
  | element name _ _ => name

/-- Statements. -/
inductive Stmt where
  /-- An assignment, annotated with the type of its target and its own. -/
  | assign (target : Target) (value : Expr) (targetTy ty : Option Ty)
  | print (value : Expr)
  | read (name : String) (symbol : Option Symbol)
  | ret (value : Expr)
  | branch (condition : Expr) (yes : List Stmt) (no : Option (List Stmt))
  | loop (condition : Expr) (body : List Stmt)
  | block (body : List Stmt)
  deriving Repr

/-- The definition of one variable or array. -/
inductive VarDef where
  | scalar (name : String)
  | array (name : String) (size : Nat)
  deriving DecidableEq, Repr

/-- The name that a definition introduces. -/
def VarDef.name : VarDef → String
  | scalar name => name
  | array name _ => name

/-- A function declaration. -/
structure FunctionDecl where
  name : String
  params : Option (List String)
  locals : Option (List VarDef)
  body : List Stmt
  deriving Repr

namespace FunctionDecl

/-- The parameters, none if the list is absent. -/
def paramList (f : FunctionDecl) : List String :=
  f.params.getD []

/-- The definitions of the local variables, none if the group is absent. -/
def localList (f : FunctionDecl) : List VarDef :=
  f.locals.getD []

end FunctionDecl

/-- A declaration at program level. -/
inductive Decl where
  | vars (group : List VarDef)
  | function (f : FunctionDecl)
  deriving Repr

/-- A program. -/
structure Program where
  declarations : Option (List Decl)
  body : List Stmt
  deriving Repr

namespace Program

/-- The declarations, none if the list is absent. -/
def declarationList (p : Program) : List Decl :=
  p.declarations.getD []

/-- The functions that a program declares, in order. -/
def functions (p : Program) : List FunctionDecl :=
  p.declarationList.filterMap fun
    | .function f => some f
    | .vars _ => none

/-- The variables and arrays that a program declares for its own body, in order. -/
def varDefs (p : Program) : List VarDef :=
  p.declarationList.flatMap fun
    | .function _ => []
    | .vars group => group

end Program

end DLang
