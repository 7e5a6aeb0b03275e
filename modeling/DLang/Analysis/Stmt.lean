import DLang.Analysis.Expr

/-!
# Checking statements

Statements are checked in order.  An assignment checks its target before its value, and both must be
integers.  The condition of a branch or a loop must be a truth value.  What is printed or returned
may be either.
-/

namespace DLang

/-- Checks a target; the result is the type of what it holds. -/
def Target.check (table : SymbolTable) : Target → Checked Target Ty
  | .var name symbol =>
    match table.scalar? name with
    | some found => .accept (.var name (some found)) .int
    | none => .reject (.var name symbol) (.undeclaredVariable name)
  | .element name index symbol =>
    match table.array? name with
    | some (found, elementTy) =>
      (index.check table).andThen (fun index' => .element name index' symbol) fun index' indexTy =>
        if indexTy = .int then .accept (.element name index' (some found)) elementTy
        else .reject (.element name index' symbol) (.typeMismatch (.index name))
    | none => .reject (.element name index symbol) (.undeclaredVariable name)

/-- Checks an expression that decides a branch or a loop. -/
def Expr.checkCondition (table : SymbolTable) (condition : Expr) : Checked Expr Unit :=
  (condition.check table).andThen id fun condition' ty =>
    if ty = .bool then .accept condition' ()
    else .reject condition' (.typeMismatch (.condition ty))

mutual

/-- Checks a statement. -/
def Stmt.check (table : SymbolTable) : Stmt → Checked Stmt Unit
  | .assign target value targetTy ty =>
    (target.check table).andThen (fun target' => .assign target' value targetTy ty)
      fun target' found =>
        (value.check table).andThen (fun value' => .assign target' value' targetTy ty)
          fun value' valueTy =>
            if found = .int ∧ valueTy = .int then
              .accept (.assign target' value' (some found) (some .int)) ()
            else
              .reject (.assign target' value' (some found) ty)
                (.typeMismatch (.assignment target.name))
  | .print value => (value.check table).andThen .print fun value' _ => .accept (.print value') ()
  | .ret value => (value.check table).andThen .ret fun value' _ => .accept (.ret value') ()
  | .read name symbol =>
    match table.scalar? name with
    | some found => .accept (.read name (some found)) ()
    | none => .reject (.read name symbol) (.undeclaredVariable name)
  | .branch condition yes none =>
    (condition.checkCondition table).andThen (fun condition' => .branch condition' yes none)
      fun condition' _ =>
        (Stmt.checkAll table yes).map fun yes' => .branch condition' yes' none
  | .branch condition yes (some no) =>
    (condition.checkCondition table).andThen (fun condition' => .branch condition' yes (some no))
      fun condition' _ =>
        (Stmt.checkAll table yes).andThen (fun yes' => .branch condition' yes' (some no))
          fun yes' _ =>
            (Stmt.checkAll table no).map fun no' => .branch condition' yes' (some no')
  | .loop condition body =>
    (condition.checkCondition table).andThen (fun condition' => .loop condition' body)
      fun condition' _ => (Stmt.checkAll table body).map fun body' => .loop condition' body'
  | .block body => (Stmt.checkAll table body).map .block

/-- Checks statements in order. -/
def Stmt.checkAll (table : SymbolTable) : List Stmt → Checked (List Stmt) Unit
  | [] => .accept [] ()
  | s :: rest =>
    (s.check table).andThen (fun s' => s' :: rest) fun s' _ =>
      (Stmt.checkAll table rest).map fun rest' => s' :: rest'

end

end DLang
