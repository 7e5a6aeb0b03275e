import DLang.Tree.Basic
import Mathlib.Tactic.Common

/-!
# Induction on trees, and trees without annotations

The trees hold lists of trees: arguments of a call, the statements of a block.  `Expr.induction` and
`Stmt.induction` are the induction principles that reach into those lists; they are the ones
`induction` uses from here on.

`bare` drops all annotations of a tree.  Two trees with the same bare form have the same declared
and used names, the same operators and the same shape, so "the same tree up to annotations" is
equality of bare forms throughout.
-/

namespace DLang

/-! ## Induction -/

/-- Induction on expressions: a call may use what holds of each of its arguments. -/
@[elab_as_elim, induction_eliminator]
theorem Expr.induction {motive : Expr → Prop}
    (integer : ∀ value ty, motive (.integer value ty))
    (var : ∀ name symbol ty, motive (.var name symbol ty))
    (element : ∀ name index symbol ty, motive index → motive (.element name index symbol ty))
    (arith : ∀ op left right ty, motive left → motive right → motive (.arith op left right ty))
    (compare : ∀ op left right ty, motive left → motive right →
      motive (.compare op left right ty))
    (call : ∀ name args ty, (∀ e ∈ args.getD [], motive e) → motive (.call name args ty))
    (e : Expr) : motive e :=
  match e with
  | .integer value ty => integer value ty
  | .var name symbol ty => var name symbol ty
  | .element name index symbol ty =>
    element name index symbol ty (induction integer var element arith compare call index)
  | .arith op left right ty =>
    arith op left right ty (induction integer var element arith compare call left)
      (induction integer var element arith compare call right)
  | .compare op left right ty =>
    compare op left right ty (induction integer var element arith compare call left)
      (induction integer var element arith compare call right)
  | .call name none ty => call name none ty fun _ h => nomatch h
  | .call name (some args) ty =>
    call name (some args) ty fun e h =>
      have _mem : e ∈ args := h
      induction integer var element arith compare call e
termination_by sizeOf e
decreasing_by
  · simp only [Expr.element.sizeOf_spec]
    omega
  · simp only [Expr.arith.sizeOf_spec]
    omega
  · simp only [Expr.arith.sizeOf_spec]
    omega
  · simp only [Expr.compare.sizeOf_spec]
    omega
  · simp only [Expr.compare.sizeOf_spec]
    omega
  · have := List.sizeOf_lt_of_mem _mem
    simp only [Expr.call.sizeOf_spec, Option.some.sizeOf_spec]
    omega

/-- Induction on statements: a branch, a loop and a block may use what holds of each statement in
them. -/
@[elab_as_elim, induction_eliminator]
theorem Stmt.induction {motive : Stmt → Prop}
    (assign : ∀ target value targetTy ty, motive (.assign target value targetTy ty))
    (print : ∀ value, motive (.print value))
    (read : ∀ name symbol, motive (.read name symbol))
    (ret : ∀ value, motive (.ret value))
    (branch : ∀ condition yes no, (∀ s ∈ yes, motive s) → (∀ s ∈ no.getD [], motive s) →
      motive (.branch condition yes no))
    (loop : ∀ condition body, (∀ s ∈ body, motive s) → motive (.loop condition body))
    (block : ∀ body, (∀ s ∈ body, motive s) → motive (.block body))
    (s : Stmt) : motive s :=
  match s with
  | .assign target value targetTy ty => assign target value targetTy ty
  | .print value => print value
  | .read name symbol => read name symbol
  | .ret value => ret value
  | .branch condition yes none =>
    branch condition yes none
      (fun s _mem => induction assign print read ret branch loop block s)
      (fun _ h => nomatch h)
  | .branch condition yes (some no) =>
    branch condition yes (some no)
      (fun s _mem => induction assign print read ret branch loop block s)
      (fun s h =>
        have _mem : s ∈ no := h
        induction assign print read ret branch loop block s)
  | .loop condition body =>
    loop condition body fun s _mem => induction assign print read ret branch loop block s
  | .block body => block body fun s _mem => induction assign print read ret branch loop block s
termination_by sizeOf s
decreasing_by
  all_goals
    have := List.sizeOf_lt_of_mem _mem
    simp only [Stmt.branch.sizeOf_spec, Stmt.loop.sizeOf_spec, Stmt.block.sizeOf_spec,
      Option.some.sizeOf_spec]
    omega

/-! ## Trees without annotations -/

mutual

/-- An expression without its annotations. -/
def Expr.bare : Expr → Expr
  | .integer value _ => .integer value none
  | .var name _ _ => .var name none none
  | .element name index _ _ => .element name index.bare none none
  | .arith op left right _ => .arith op left.bare right.bare none
  | .compare op left right _ => .compare op left.bare right.bare none
  | .call name none _ => .call name none none
  | .call name (some args) _ => .call name (some (Expr.bareAll args)) none

/-- Expressions without their annotations. -/
def Expr.bareAll : List Expr → List Expr
  | [] => []
  | e :: rest => e.bare :: Expr.bareAll rest

end

/-- A target without its annotations. -/
def Target.bare : Target → Target
  | .var name _ => .var name none
  | .element name index _ => .element name index.bare none

mutual

/-- A statement without its annotations. -/
def Stmt.bare : Stmt → Stmt
  | .assign target value _ _ => .assign target.bare value.bare none none
  | .print value => .print value.bare
  | .read name _ => .read name none
  | .ret value => .ret value.bare
  | .branch condition yes none => .branch condition.bare (Stmt.bareAll yes) none
  | .branch condition yes (some no) =>
    .branch condition.bare (Stmt.bareAll yes) (some (Stmt.bareAll no))
  | .loop condition body => .loop condition.bare (Stmt.bareAll body)
  | .block body => .block (Stmt.bareAll body)

/-- Statements without their annotations. -/
def Stmt.bareAll : List Stmt → List Stmt
  | [] => []
  | s :: rest => s.bare :: Stmt.bareAll rest

end

/-- A function whose body has no annotations. -/
def FunctionDecl.bare (f : FunctionDecl) : FunctionDecl :=
  { f with body := Stmt.bareAll f.body }

/-- A declaration without annotations. -/
def Decl.bare : Decl → Decl
  | .vars group => .vars group
  | .function f => .function f.bare

/-- A program without annotations. -/
def Program.bare (p : Program) : Program :=
  { declarations := p.declarations.map fun list => list.map Decl.bare
    body := Stmt.bareAll p.body }

@[simp] lemma Expr.bareAll_eq_map (list : List Expr) : Expr.bareAll list = list.map Expr.bare := by
  induction list with
  | nil => rfl
  | cons e rest ih => rw [Expr.bareAll, ih, List.map_cons]

@[simp] lemma Stmt.bareAll_eq_map (list : List Stmt) : Stmt.bareAll list = list.map Stmt.bare := by
  induction list with
  | nil => rfl
  | cons s rest ih => rw [Stmt.bareAll, ih, List.map_cons]

lemma Expr.bare_call (name : String) (args : Option (List Expr)) (ty : Option Ty) :
    (Expr.call name args ty).bare = .call name (args.map (List.map Expr.bare)) none := by
  cases args <;> simp [Expr.bare]

lemma Stmt.bare_branch (condition : Expr) (yes : List Stmt) (no : Option (List Stmt)) :
    (Stmt.branch condition yes no).bare =
      .branch condition.bare (yes.map Stmt.bare) (no.map (List.map Stmt.bare)) := by
  cases no <;> simp [Stmt.bare]

/-- A list that may be absent is mapped as the list that it stands for. -/
lemma getD_map_map {α β : Type} (f : α → β) (list : Option (List α)) :
    (list.map (List.map f)).getD [] = (list.getD []).map f := by
  cases list <;> rfl

end DLang
