import DLang.Lowering.Expr

/-!
# Lowering statements

A statement becomes a list of lines.  A branch and a loop take three labels each, numbered over the
whole module, before anything inside them is lowered:

* `if (c) b else d` ↦ `<c>`, a branch on it, the block `b` under the first label and `d` under the
  second, each ending with a jump to the third;  without `else` the second block is only the jump;
* `while (c) b` ↦ a jump to the first label, `<c>` under it, a branch on it, the block `b` under the
  second label ending with a jump back, and the third label.

An assignment evaluates its value before the address of its target.  Only a variable has a slot to
assign to or to read into; an argument has none.
-/

namespace DLang

/-- How many temporaries and labels were used. -/
structure Counters where
  temporaries : Nat
  labels : Nat
  deriving DecidableEq, Repr

/-- Lines of code, and what was used up to their end. -/
structure LoweredStmt where
  code : List IR.Line
  counters : Counters
  deriving DecidableEq, Repr

/-- Instructions as lines. -/
def instrLines (code : List IR.Instr) : List IR.Line :=
  code.map .instr

/-- The slot of a variable, which must be one. -/
def requireSlot (name : String) (symbol : Option Symbol) : Except LoweringError String :=
  match symbol with
  | some (.var ..) => .ok name
  | some _ => .error (.invalidTarget name)
  | none => .error (.unresolvedSymbol name)

/-- An assignment of a lowered value to a target. -/
def Target.lowerStore (target : Target) (value : LoweredExpr) : Except LoweringError LoweredExpr :=
  match target with
  | .var name symbol => do
    let slot ← requireSlot name symbol
    return { value with code := value.code ++ [.store value.value (.named slot)] }
  | .element name index symbol => do
    let size ← requireSize name symbol
    let i ← index.lower value.temporaries
    let address := lowerAddress name size i (← index.requireTy)
    return { address with
      code := value.code ++ address.code ++
        [.store value.value (.temporary address.temporaries)] }

mutual

/-- Lowers a statement after some temporaries and labels were used. -/
def Stmt.lower (stmt : Stmt) (counters : Counters) : Except LoweringError LoweredStmt :=
  match stmt with
  | .assign target value _ _ => do
    let v ← value.lowerInt counters.temporaries
    let stored ← target.lowerStore v
    return { code := instrLines stored.code
             counters := { counters with temporaries := stored.temporaries } }
  | .print value => do
    let v ← value.lowerInt counters.temporaries
    let printed := emitResult v.code v.temporaries fun into => .print into v.value
    return { code := instrLines printed.code
             counters := { counters with temporaries := printed.temporaries } }
  | .read name symbol => do
    let slot ← requireSlot name symbol
    let read := emitResult [] counters.temporaries fun into => .read into slot
    return { code := instrLines read.code
             counters := { counters with temporaries := read.temporaries } }
  | .ret value => do
    let v ← value.lowerInt counters.temporaries
    return { code := instrLines (v.code ++ [.ret v.value])
             counters := { counters with temporaries := v.temporaries } }
  | .branch condition yes no => do
    let yesLabel := .numbered .branchTrue (counters.labels + 1)
    let noLabel := .numbered .branchFalse (counters.labels + 2)
    let endLabel := .numbered .branchEnd (counters.labels + 3)
    let c ← condition.lower counters.temporaries
    let y ← Stmt.lowerAll yes { temporaries := c.temporaries, labels := counters.labels + 3 }
    let n ← Stmt.lowerElse no y.counters
    return { code :=
               instrLines (c.code ++ [.branch c.value yesLabel noLabel]) ++
               [.label yesLabel] ++ y.code ++ [.instr (.jump endLabel)] ++
               [.label noLabel] ++ n.code ++ [.instr (.jump endLabel)] ++
               [.label endLabel]
             counters := n.counters }
  | .loop condition body => do
    let headLabel := .numbered .loopHead (counters.labels + 1)
    let bodyLabel := .numbered .loopBody (counters.labels + 2)
    let endLabel := .numbered .loopEnd (counters.labels + 3)
    let c ← condition.lower counters.temporaries
    let b ← Stmt.lowerAll body { temporaries := c.temporaries, labels := counters.labels + 3 }
    return { code :=
               [.instr (.jump headLabel), .label headLabel] ++
               instrLines (c.code ++ [.branch c.value bodyLabel endLabel]) ++
               [.label bodyLabel] ++ b.code ++ [.instr (.jump headLabel)] ++
               [.label endLabel]
             counters := b.counters }
  | .block body => Stmt.lowerAll body counters

/-- Lowers statements in order. -/
def Stmt.lowerAll (body : List Stmt) (counters : Counters) : Except LoweringError LoweredStmt :=
  match body with
  | [] => return { code := [], counters }
  | stmt :: rest => do
    let first ← stmt.lower counters
    let more ← Stmt.lowerAll rest first.counters
    return { code := first.code ++ more.code, counters := more.counters }

/-- Lowers the block of an `else`, if there is one. -/
def Stmt.lowerElse (no : Option (List Stmt)) (counters : Counters) :
    Except LoweringError LoweredStmt :=
  match no with
  | none => return { code := [], counters }
  | some body => Stmt.lowerAll body counters

end

end DLang
