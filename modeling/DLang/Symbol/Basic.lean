import DLang.Text.Quoted

/-!
# Types and symbols

The language has two types: integers, and the truth values that comparisons give.  A symbol is what
a declared name stands for: a variable, an argument of a function, an array, or a function.
-/

namespace DLang

/-- The type of an expression. -/
inductive Ty where
  | int
  | bool
  deriving DecidableEq, Repr

namespace Ty

/-- The name of a type in messages. -/
def name : Ty → String
  | int => "int"
  | bool => "bool"

/-- The name of a type in the description of a symbol. -/
def label : Ty → String
  | int => "Int"
  | bool => "Bool"

/-- The machine type that holds values of a type. -/
def machine : Ty → String
  | int => "i32"
  | bool => "i1"

/-- The types whose values can be compared. -/
def isComparable : Ty → Bool
  | int | bool => true

/-- Both types are comparable, so a comparison never has a type error of its own. -/
@[simp] theorem isComparable_eq_true (ty : Ty) : ty.isComparable = true := by
  cases ty <;> rfl

end Ty

/-- What a declared name stands for. -/
inductive Symbol where
  /-- A variable of the scope that declares it. -/
  | var (name : String) (ty : Ty)
  /-- An argument of the function whose scope declares it. -/
  | arg (name : String) (ty : Ty)
  /-- An array with its number of elements and their type. -/
  | array (name : String) (ty : Ty) (size : Nat)
  /-- A function with its number of arguments. -/
  | function (name : String) (arity : Nat)
  deriving DecidableEq, Repr

/-- The kinds of symbol. -/
inductive SymbolKind where
  | var
  | arg
  | array
  | function
  deriving DecidableEq, Repr

namespace Symbol

/-- The name under which a symbol is declared. -/
def name : Symbol → String
  | var name _ => name
  | arg name _ => name
  | array name _ _ => name
  | function name _ => name

/-- The kind of a symbol. -/
def kind : Symbol → SymbolKind
  | var .. => .var
  | arg .. => .arg
  | array .. => .array
  | function .. => .function

/-- The description of a symbol in the log. -/
def describe : Symbol → String
  | var name ty =>
    "Variable \x7b name: " ++ Text.quoted name ++ ", ty: " ++ ty.label ++ " \x7d"
  | arg name ty =>
    "Argument \x7b name: " ++ Text.quoted name ++ ", ty: " ++ ty.label ++ " \x7d"
  | array name ty size =>
    "Array \x7b name: " ++ Text.quoted name ++ ", ty: " ++ ty.label ++ ", size: " ++
      toString size ++ " \x7d"
  | function name arity =>
    "Function \x7b name: " ++ Text.quoted name ++ ", args: " ++ toString arity ++ " \x7d"

end Symbol

end DLang
