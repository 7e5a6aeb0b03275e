import DLang.Analysis.Program
import DLang.Proofs.Tree.Bare

/-!
# The static rules

What makes a program well formed, said without reference to how it is checked.

* The names declared in one scope are distinct.  The scope of the program holds its variables, its
  arrays and its functions together; the scope of a function holds its parameters and its local
  variables together.
* No function has a reserved name.
* A variable stands for a variable or a parameter of its own scope, and an array for an array of its
  own scope.  Outer variables are not seen.
* A call names a function with exactly as many parameters as the call has arguments.  From inside a
  function these are the function itself and those declared before it, less the names that the
  function's own scope takes and those that an earlier variable of the program takes.
* A comparison is a truth value and everything else is an integer (`Expr.typeOf`).  Operands of
  arithmetic, indices and assigned values are integers, and conditions are truth values.

`WellTyped` states the rules for a place, given by an `Env`; `Program.WellFormed` puts them
together.  `Annotated` is the form that an accepted tree has: it follows the rules, every expression
carries its type, every name its symbol and every assignment its two types.
-/

namespace DLang

/-! ## Places -/

/-- What a place in a program can refer to. -/
structure Env where
  /-- The variables, arguments and arrays of the place's own scope. -/
  own : Symbol → Prop
  /-- The functions that can be called, by name and number of arguments. -/
  callable : String → Nat → Prop

namespace Env

/-- The place knows `name` as the variable or argument `symbol`. -/
def IsScalar (Γ : Env) (name : String) (symbol : Symbol) : Prop :=
  Γ.own symbol ∧ (symbol = .var name .int ∨ symbol = .arg name .int)

/-- The place knows `name` as the array `symbol`. -/
def IsArray (Γ : Env) (name : String) (symbol : Symbol) : Prop :=
  Γ.own symbol ∧ ∃ size, symbol = .array name .int size

end Env

/-! ## Expressions and statements -/

/-- The type of an expression: a comparison is a truth value, everything else is an integer. -/
def Expr.typeOf : Expr → Ty
  | .compare .. => .bool
  | _ => .int

/-- The rules for expressions at a place. -/
inductive Expr.WellTyped (Γ : Env) : Expr → Prop
  | integer {value : Int32} {ty : Option Ty} : WellTyped Γ (.integer value ty)
  | var {name : String} {symbol : Option Symbol} {ty : Option Ty} {found : Symbol} :
      Γ.IsScalar name found → WellTyped Γ (.var name symbol ty)
  | element {name : String} {index : Expr} {symbol : Option Symbol} {ty : Option Ty}
      {found : Symbol} :
      Γ.IsArray name found → WellTyped Γ index → index.typeOf = .int →
      WellTyped Γ (.element name index symbol ty)
  | arith {op : ArithOp} {left right : Expr} {ty : Option Ty} :
      WellTyped Γ left → left.typeOf = .int → WellTyped Γ right → right.typeOf = .int →
      WellTyped Γ (.arith op left right ty)
  | compare {op : RelOp} {left right : Expr} {ty : Option Ty} :
      WellTyped Γ left → WellTyped Γ right → WellTyped Γ (.compare op left right ty)
  | call {name : String} {args : Option (List Expr)} {ty : Option Ty} :
      Γ.callable name (args.getD []).length → (∀ e ∈ args.getD [], WellTyped Γ e) →
      WellTyped Γ (.call name args ty)

/-- The rules for targets of assignments at a place. -/
inductive Target.WellTyped (Γ : Env) : Target → Prop
  | var {name : String} {symbol : Option Symbol} {found : Symbol} :
      Γ.IsScalar name found → WellTyped Γ (.var name symbol)
  | element {name : String} {index : Expr} {symbol : Option Symbol} {found : Symbol} :
      Γ.IsArray name found → index.WellTyped Γ → index.typeOf = .int →
      WellTyped Γ (.element name index symbol)

/-- The rules for statements at a place. -/
inductive Stmt.WellTyped (Γ : Env) : Stmt → Prop
  | assign {target : Target} {value : Expr} {targetTy ty : Option Ty} :
      target.WellTyped Γ → value.WellTyped Γ → value.typeOf = .int →
      WellTyped Γ (.assign target value targetTy ty)
  | print {value : Expr} : value.WellTyped Γ → WellTyped Γ (.print value)
  | read {name : String} {symbol : Option Symbol} {found : Symbol} :
      Γ.IsScalar name found → WellTyped Γ (.read name symbol)
  | ret {value : Expr} : value.WellTyped Γ → WellTyped Γ (.ret value)
  | branch {condition : Expr} {yes : List Stmt} {no : Option (List Stmt)} :
      condition.WellTyped Γ → condition.typeOf = .bool → (∀ s ∈ yes, WellTyped Γ s) →
      (∀ s ∈ no.getD [], WellTyped Γ s) → WellTyped Γ (.branch condition yes no)
  | loop {condition : Expr} {body : List Stmt} :
      condition.WellTyped Γ → condition.typeOf = .bool → (∀ s ∈ body, WellTyped Γ s) →
      WellTyped Γ (.loop condition body)
  | block {body : List Stmt} : (∀ s ∈ body, WellTyped Γ s) → WellTyped Γ (.block body)

/-! ## Programs -/

namespace Decl

/-- The variables and arrays that a declaration introduces at program level. -/
def varDefs : Decl → List VarDef
  | .vars group => group
  | .function _ => []

/-- The functions that a declaration introduces. -/
def functions : Decl → List FunctionDecl
  | .vars _ => []
  | .function f => [f]

/-- The names that a declaration introduces in the scope of the program. -/
def names : Decl → List String
  | .vars group => group.map VarDef.name
  | .function f => [f.name]

end Decl

/-- The place inside the function `f`, which is declared after the declarations `before`. -/
def FunctionDecl.env (f : FunctionDecl) (before : List Decl) : Env where
  own symbol := symbol ∈ f.innerSymbols
  callable name arity :=
    (∃ g ∈ before.flatMap Decl.functions ++ [f], g.name = name ∧ g.paramList.length = arity) ∧
      name ∉ f.paramList ∧ name ∉ f.localList.map VarDef.name ∧
      name ∉ (before.flatMap Decl.varDefs).map VarDef.name

/-- The place of the program's own body. -/
def Program.env (p : Program) : Env where
  own symbol := symbol ∈ p.varDefs.map VarDef.symbol
  callable name arity :=
    (∃ g ∈ p.functions, g.name = name ∧ g.paramList.length = arity) ∧
      name ∉ p.varDefs.map VarDef.name

/-- The rules for a function declared after the declarations `before`. -/
structure FunctionDecl.WellFormed (f : FunctionDecl) (before : List Decl) : Prop where
  unreserved : f.name ∉ reservedNames
  distinct : (f.paramList ++ f.localList.map VarDef.name).Nodup
  body : ∀ s ∈ f.body, s.WellTyped (f.env before)

/-- The rules for programs. -/
structure Program.WellFormed (p : Program) : Prop where
  distinct : (p.declarationList.flatMap Decl.names).Nodup
  functions : ∀ before f after, p.declarationList = before ++ .function f :: after →
    f.WellFormed before
  body : ∀ s ∈ p.body, s.WellTyped p.env

/-! ## Annotated trees -/

/-- Expressions that follow the rules, with every type and every symbol in its place. -/
inductive Expr.Annotated (Γ : Env) : Expr → Prop
  | integer {value : Int32} : Annotated Γ (.integer value (some .int))
  | var {name : String} {symbol : Symbol} :
      Γ.IsScalar name symbol → Annotated Γ (.var name (some symbol) (some .int))
  | element {name : String} {index : Expr} {symbol : Symbol} :
      Γ.IsArray name symbol → Annotated Γ index → index.typeOf = .int →
      Annotated Γ (.element name index (some symbol) (some .int))
  | arith {op : ArithOp} {left right : Expr} :
      Annotated Γ left → left.typeOf = .int → Annotated Γ right → right.typeOf = .int →
      Annotated Γ (.arith op left right (some .int))
  | compare {op : RelOp} {left right : Expr} :
      Annotated Γ left → Annotated Γ right → Annotated Γ (.compare op left right (some .bool))
  | call {name : String} {args : Option (List Expr)} :
      Γ.callable name (args.getD []).length → (∀ e ∈ args.getD [], Annotated Γ e) →
      Annotated Γ (.call name args (some .int))

/-- Targets that follow the rules, with every symbol in its place. -/
inductive Target.Annotated (Γ : Env) : Target → Prop
  | var {name : String} {symbol : Symbol} :
      Γ.IsScalar name symbol → Annotated Γ (.var name (some symbol))
  | element {name : String} {index : Expr} {symbol : Symbol} :
      Γ.IsArray name symbol → index.Annotated Γ → index.typeOf = .int →
      Annotated Γ (.element name index (some symbol))

/-- Statements that follow the rules, with every type and every symbol in its place. -/
inductive Stmt.Annotated (Γ : Env) : Stmt → Prop
  | assign {target : Target} {value : Expr} :
      target.Annotated Γ → value.Annotated Γ → value.typeOf = .int →
      Annotated Γ (.assign target value (some .int) (some .int))
  | print {value : Expr} : value.Annotated Γ → Annotated Γ (.print value)
  | read {name : String} {symbol : Symbol} :
      Γ.IsScalar name symbol → Annotated Γ (.read name (some symbol))
  | ret {value : Expr} : value.Annotated Γ → Annotated Γ (.ret value)
  | branch {condition : Expr} {yes : List Stmt} {no : Option (List Stmt)} :
      condition.Annotated Γ → condition.typeOf = .bool → (∀ s ∈ yes, Annotated Γ s) →
      (∀ s ∈ no.getD [], Annotated Γ s) → Annotated Γ (.branch condition yes no)
  | loop {condition : Expr} {body : List Stmt} :
      condition.Annotated Γ → condition.typeOf = .bool → (∀ s ∈ body, Annotated Γ s) →
      Annotated Γ (.loop condition body)
  | block {body : List Stmt} : (∀ s ∈ body, Annotated Γ s) → Annotated Γ (.block body)

/-- Programs with every type and every symbol in its place. -/
structure Program.Annotated (p : Program) : Prop where
  functions : ∀ before f after, p.declarationList = before ++ .function f :: after →
    ∀ s ∈ f.body, s.Annotated (f.env before)
  body : ∀ s ∈ p.body, s.Annotated p.env

end DLang
