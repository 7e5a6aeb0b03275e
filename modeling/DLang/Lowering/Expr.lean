import DLang.IR.Basic
import DLang.Tree.Text

/-!
# Lowering expressions

An annotated expression becomes a list of instructions and the operand that then holds its value:

* `n`          ↦ the constant itself;
* a variable   ↦ a load from its slot;  an argument ↦ its register;
* `a[i]`       ↦ `<i>`, the address of the element, a load from it;
* `l + r`      ↦ `<l>`, `<r>`, the operation;
* `l < r`      ↦ `<l>`, `<r>`, the comparison at the type that both have, or at that of integers
                 after the truth value among them is widened;
* `f(x, …)`    ↦ `<x>`, …, the call.

Indices, arguments and whatever else must be an integer are widened if they are truth values.  The
operands of arithmetic are taken as they are.

Lowering relies on the annotations of the tree and reports the first that is missing or of the wrong
sort.  The type of a node is asked for before anything inside the node is lowered.
-/

namespace DLang

/-- Why a tree cannot be lowered. -/
inductive LoweringError where
  /-- An array without the symbol of an array. -/
  | unknownArraySize (name : String)
  /-- An assignment to, or input into, something that has no slot. -/
  | invalidTarget (name : String)
  /-- A variable without a symbol, or with one of the wrong sort. -/
  | unresolvedSymbol (name : String)
  /-- An expression without a type; `node` is its text. -/
  | missingType (node : String)
  deriving DecidableEq, Repr

/-- The message of a lowering error. -/
def LoweringError.message : LoweringError → String
  | unknownArraySize name => "use of array with unknown size: " ++ name
  | invalidTarget name =>
    "assignment is only possible to variables and indexed array elements: " ++ name
  | unresolvedSymbol name => "attempt to access unresolved variable symbol: " ++ name
  | missingType node => "expression has no inferred type: " ++ node

/-- Instructions, the operand that holds their value, and the number of temporaries used up to their
end. -/
structure LoweredExpr where
  code : List IR.Instr
  value : IR.Operand
  temporaries : Nat
  deriving DecidableEq, Repr

/-- Instructions, the operands that hold their values, and the number of temporaries used up to
their end. -/
structure LoweredArgs where
  code : List IR.Instr
  values : List IR.Operand
  temporaries : Nat
  deriving DecidableEq, Repr

/-- The type of an expression, which must be annotated. -/
def Expr.requireTy (e : Expr) : Except LoweringError Ty :=
  match e.ty with
  | some ty => .ok ty
  | none => .error (.missingType e.text)

/-- The size in the symbol of an array, which must be one. -/
def requireSize (name : String) (symbol : Option Symbol) : Except LoweringError Nat :=
  match symbol with
  | some (.array _ _ size) => .ok size
  | _ => .error (.unknownArraySize name)

/-- Puts an instruction with a result after some code. -/
def emitResult (code : List IR.Instr) (temporaries : Nat) (instr : Nat → IR.Instr) : LoweredExpr :=
  { code := code ++ [instr (temporaries + 1)]
    value := .temporary (temporaries + 1)
    temporaries := temporaries + 1 }

/-- Makes an integer of a value after some code: a truth value is widened. -/
def widenAfter (code : List IR.Instr) (value : IR.Operand) (ty : Ty) (temporaries : Nat) :
    LoweredExpr :=
  match ty with
  | .int => { code, value, temporaries }
  | .bool => emitResult code temporaries fun into => .widen into value

/-- Makes an integer of a lowered expression of the given type. -/
def LoweredExpr.toInt (lowered : LoweredExpr) (ty : Ty) : LoweredExpr :=
  widenAfter lowered.code lowered.value ty lowered.temporaries

/-- A variable or an argument as a value. -/
def lowerVariable (name : String) (symbol : Option Symbol) (temporaries : Nat) :
    Except LoweringError LoweredExpr :=
  match symbol with
  | some (.var ..) => .ok (emitResult [] temporaries fun into => .load into (.named name))
  | some (.arg ..) => .ok { code := [], value := .register (.named name), temporaries }
  | _ => .error (.unresolvedSymbol name)

/-- The address of an element, whose index was lowered and has the given type. -/
def lowerAddress (name : String) (size : Nat) (index : LoweredExpr) (indexTy : Ty) : LoweredExpr :=
  let i := index.toInt indexTy
  emitResult i.code i.temporaries fun into => .elementAddress into size name i.value

/-- The operation that computes an arithmetic operator.  Division is that of unsigned numbers. -/
def ArithOp.opcode : ArithOp → IR.Opcode
  | add => .add
  | sub => .sub
  | mul => .mul
  | div => .udiv

/-- The predicate that decides a comparison. -/
def RelOp.predicate : RelOp → IR.Predicate
  | equal => .eq
  | notEqual => .ne
  | less => .slt
  | lessEqual => .sle
  | greater => .sgt
  | greaterEqual => .sge

/-- The comparison of two lowered operands with the given types. -/
def lowerComparison (op : RelOp) (left : LoweredExpr) (leftTy : Ty) (right : LoweredExpr)
    (rightTy : Ty) : LoweredExpr :=
  let code := left.code ++ right.code
  if leftTy = rightTy then
    emitResult code right.temporaries fun into =>
      .compare into op.predicate leftTy left.value right.value
  else
    let l := widenAfter code left.value leftTy right.temporaries
    let r := widenAfter l.code right.value rightTy l.temporaries
    emitResult r.code r.temporaries fun into => .compare into op.predicate .int l.value r.value

mutual

/-- Lowers an expression after `temporaries` temporaries were used. -/
def Expr.lower (e : Expr) (temporaries : Nat) : Except LoweringError LoweredExpr := do
  let _ ← e.requireTy
  match e with
  | .integer value _ => return { code := [], value := .constant value, temporaries }
  | .var name symbol _ => lowerVariable name symbol temporaries
  | .element name index symbol _ =>
    let size ← requireSize name symbol
    let i ← index.lower temporaries
    let address := lowerAddress name size i (← index.requireTy)
    return emitResult address.code address.temporaries fun into =>
      .load into (.temporary address.temporaries)
  | .arith op left right _ =>
    let l ← left.lower temporaries
    let r ← right.lower l.temporaries
    return emitResult (l.code ++ r.code) r.temporaries fun into =>
      .arith into op.opcode l.value r.value
  | .compare op left right _ =>
    let l ← left.lower temporaries
    let r ← right.lower l.temporaries
    return lowerComparison op l (← left.requireTy) r (← right.requireTy)
  | .call name none _ => return emitResult [] temporaries fun into => .call into name []
  | .call name (some args) _ =>
    let a ← Expr.lowerArgs args temporaries
    return emitResult a.code a.temporaries fun into => .call into name a.values

/-- Lowers arguments in order, each to an integer. -/
def Expr.lowerArgs (args : List Expr) (temporaries : Nat) : Except LoweringError LoweredArgs :=
  match args with
  | [] => return { code := [], values := [], temporaries }
  | e :: rest => do
    let lowered ← e.lower temporaries
    let first := lowered.toInt (← e.requireTy)
    let more ← Expr.lowerArgs rest first.temporaries
    return {
      code := first.code ++ more.code
      values := first.value :: more.values
      temporaries := more.temporaries }

end

/-- Lowers an expression to an integer. -/
def Expr.lowerInt (e : Expr) (temporaries : Nat) : Except LoweringError LoweredExpr := do
  let lowered ← e.lower temporaries
  return lowered.toInt (← e.requireTy)

end DLang
