import DLang.Analysis.Checked

/-!
# Checking expressions

An expression is checked against the symbols in scope.

* Variables, arguments and arrays are visible only in the scope that declares them, so a function
  does not see the variables of the program.
* Functions are visible from all enclosing scopes.  A call must name one with exactly as many
  parameters as the call has arguments; this is checked before the arguments are.
* Arithmetic and indices take integers.  A comparison takes operands of comparable types, as all
  are, and is the only expression that is not an integer; so a comparison may be compared again, or
  passed as an argument.

A check only reads the symbol table: no expression and no statement changes it.
-/

namespace DLang

namespace SymbolTable

/-- The variable or argument that a name stands for in the innermost scope. -/
def scalar? (table : SymbolTable) (name : String) : Option Symbol :=
  match table.resolve name [.var, .arg] .innermost with
  | .found symbol => some symbol
  | _ => none

/-- The array that a name stands for in the innermost scope, with the type of its elements. -/
def array? (table : SymbolTable) (name : String) : Option (Symbol × Ty) :=
  match table.resolve name [.array] .innermost with
  | .found (.array found ty size) => some (.array found ty size, ty)
  | _ => none

/-- Whether a name stands for a function with the given number of parameters. -/
def hasFunction (table : SymbolTable) (name : String) (arity : Nat) : Bool :=
  match table.resolve name [.function] .enclosing with
  | .found (.function _ params) => params == arity
  | _ => false

end SymbolTable

mutual

/-- Checks an expression; the result is its type. -/
def Expr.check (table : SymbolTable) : Expr → Checked Expr Ty
  | .integer value _ => .accept (.integer value (some .int)) .int
  | .var name symbol ty =>
    match table.scalar? name with
    | some found => .accept (.var name (some found) (some .int)) .int
    | none => .reject (.var name symbol ty) (.undeclaredVariable name)
  | .element name index symbol ty =>
    match table.array? name with
    | some (found, elementTy) =>
      (index.check table).andThen (fun index' => .element name index' symbol ty)
        fun index' indexTy =>
          if indexTy = .int then
            .accept (.element name index' (some found) (some elementTy)) elementTy
          else .reject (.element name index' symbol ty) (.typeMismatch (.index name))
    | none => .reject (.element name index symbol ty) (.undeclaredVariable name)
  | .arith op left right ty =>
    (left.check table).andThen (fun left' => .arith op left' right ty) fun left' leftTy =>
      (right.check table).andThen (fun right' => .arith op left' right' ty) fun right' rightTy =>
        if leftTy = .int ∧ rightTy = .int then .accept (.arith op left' right' (some .int)) .int
        else .reject (.arith op left' right' ty) (.typeMismatch (.operand op))
  | .compare op left right ty =>
    (left.check table).andThen (fun left' => .compare op left' right ty) fun left' leftTy =>
      (right.check table).andThen (fun right' => .compare op left' right' ty) fun right' rightTy =>
        if leftTy.isComparable ∧ rightTy.isComparable then
          .accept (.compare op left' right' (some .bool)) .bool
        else .reject (.compare op left' right' ty) (.typeMismatch (.comparison op))
  | .call name none ty =>
    if table.hasFunction name 0 then .accept (.call name none (some .int)) .int
    else .reject (.call name none ty) (.undeclaredFunction name 0)
  | .call name (some args) ty =>
    if table.hasFunction name args.length then
      (Expr.checkAll table args).andThen (fun args' => .call name (some args') ty) fun args' _ =>
        .accept (.call name (some args') (some .int)) .int
    else .reject (.call name (some args) ty) (.undeclaredFunction name args.length)

/-- Checks expressions in order, whatever their types. -/
def Expr.checkAll (table : SymbolTable) : List Expr → Checked (List Expr) Unit
  | [] => .accept [] ()
  | e :: rest =>
    (e.check table).andThen (fun e' => e' :: rest) fun e' _ =>
      (Expr.checkAll table rest).map fun rest' => e' :: rest'

end

end DLang
