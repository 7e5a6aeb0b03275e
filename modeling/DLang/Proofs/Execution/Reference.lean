import DLang.Proofs.Static.Bare

/-!
# What programs mean

A reference semantics of program trees, as an interpreter.

* Integers have 32 bits.  Addition, subtraction and multiplication wrap around; division is that of
  the unsigned numbers with the same bits; comparisons are those of signed numbers.
* Operands and arguments are evaluated from left to right, and the value of an assignment before the
  index of its target.
* Every activation of a function has variables of its own.  Plain variables start at zero, and the
  elements of arrays start unwritten.
* A loop tests its condition before every iteration.
* `return` ends the function that is running, or the program, with its value; a function or a
  program that runs past its last statement has the value zero.

Three things have no meaning: division by zero, an index outside the array, and reading an element
that was never written.  A computation that meets one of them ends as `Ending.undefined`.

The interpreter is given a bound, `fuel`, for the depth of calls and the iterations of each loop,
and ends as `Ending.unfinished` where the bound is too small; so a program runs to an end if it
does so with some bound (`Program.Runs`).  Annotations play no part in any of this
(`Program.run_bare`).
-/

namespace DLang

/-! ## Computations -/

/-- How a computation ends. -/
inductive Ending (α : Type) where
  | done (a : α)
  /-- It met something that has no meaning. -/
  | undefined
  /-- It needs more fuel. -/
  | unfinished

/-- Goes on after a computation that is done. -/
def Ending.bind {α β : Type} (ending : Ending α) (next : α → Ending β) : Ending β :=
  match ending with
  | .done a => next a
  | .undefined => .undefined
  | .unfinished => .unfinished

instance : Monad Ending where
  pure := .done
  bind := .bind

/-- The world around a program: what is still to be read, and what was printed. -/
structure Console where
  /-- What each read from now on will get: an integer, or nothing if there is none to read. -/
  input : Nat → Option Int32
  output : List Int32

namespace Console

/-- Prints an integer. -/
def print (console : Console) (value : Int32) : Console :=
  { console with output := console.output ++ [value] }

/-- The console after a read. -/
def next (console : Console) : Console :=
  { console with input := fun n => console.input (n + 1) }

end Console

/-- A computation with a console. -/
abbrev Run := StateT Console Ending

namespace Run

variable {α : Type}

/-- The computation without meaning. -/
def undefined : Run α :=
  fun _ => .undefined

/-- The computation that needs more fuel. -/
def unfinished : Run α :=
  fun _ => .unfinished

/-- A value that may be missing; without it the computation has no meaning. -/
def ofOption : Option α → Run α
  | some a => pure a
  | none => undefined

/-- Prints an integer. -/
def print (value : Int32) : Run Unit :=
  modify fun console => console.print value

/-- Reads an integer, if there is one to read. -/
def read : Run (Option Int32) := do
  let console ← get
  set console.next
  return console.input 0

end Run

/-! ## Operators -/

/-- The value of an arithmetic operation; division by zero has none. -/
def ArithOp.apply (op : ArithOp) (a b : Int32) : Option Int32 :=
  match op with
  | .add => some (a + b)
  | .sub => some (a - b)
  | .mul => some (a * b)
  | .div => if b = 0 then none else some (a.toUInt32 / b.toUInt32).toInt32

/-- Whether a comparison holds. -/
def RelOp.holds (op : RelOp) (a b : Int32) : Bool :=
  match op with
  | .equal => a = b
  | .notEqual => a ≠ b
  | .less => a < b
  | .lessEqual => a ≤ b
  | .greater => b < a
  | .greaterEqual => b ≤ a

/-! ## Variables -/

/-- What a variable holds. -/
inductive Cell where
  | scalar (value : Int32)
  /-- The elements of an array; those never written are missing. -/
  | array (elements : List (Option Int32))

/-- The place in an array of `size` elements that an index denotes. -/
def place? (size : Nat) (index : Int32) : Option Nat :=
  if 0 ≤ index.toInt ∧ index.toInt < size then some index.toInt.toNat else none

/-- The variables of an activation. -/
abbrev Cells := String → Option Cell

namespace Cells

/-- Gives a variable a new content. -/
def set (cells : Cells) (name : String) (cell : Cell) : Cells :=
  fun other => if other = name then some cell else cells other

/-- The value of a plain variable. -/
def scalar? (cells : Cells) (name : String) : Option Int32 :=
  match cells name with
  | some (.scalar value) => some value
  | _ => none

/-- The value of an element of an array, if the index is in range and the element was written. -/
def element? (cells : Cells) (name : String) (index : Int32) : Option Int32 :=
  match cells name with
  | some (.array elements) => (place? elements.length index).bind fun i => elements[i]?.join
  | _ => none

/-- Writes an element of an array, if the index is in range. -/
def write? (cells : Cells) (name : String) (index value : Int32) : Option Cells :=
  match cells name with
  | some (.array elements) =>
    (place? elements.length index).map fun i =>
      cells.set name (.array (elements.set i (some value)))
  | _ => none

end Cells

/-- What a variable or an array holds at first. -/
def VarDef.cell : VarDef → Cell
  | scalar _ => .scalar 0
  | array _ size => .array (List.replicate size none)

/-- The variables of a fresh activation. -/
def activation (params : List String) (args : List Int32) (locals : List VarDef) : Cells :=
  fun name =>
    List.lookup name
      (params.zip (args.map Cell.scalar) ++ locals.map fun d => (d.name, d.cell))

/-! ## Expressions -/

/-- What calls of functions do. -/
abbrev Calls := String → List Int32 → Run Int32

mutual

/-- Evaluates an expression; a comparison is one if it holds and zero if not. -/
def Expr.eval (calls : Calls) (cells : Cells) : Expr → Run Int32
  | .integer value _ => pure value
  | .var name _ _ => Run.ofOption (cells.scalar? name)
  | .element name index _ _ => do
    let i ← index.eval calls cells
    Run.ofOption (cells.element? name i)
  | .arith op left right _ => do
    let a ← left.eval calls cells
    let b ← right.eval calls cells
    Run.ofOption (op.apply a b)
  | .compare op left right _ => do
    let a ← left.eval calls cells
    let b ← right.eval calls cells
    return if op.holds a b then 1 else 0
  | .call name none _ => calls name []
  | .call name (some args) _ => do
    let values ← Expr.evalAll calls cells args
    calls name values

/-- Evaluates expressions in order. -/
def Expr.evalAll (calls : Calls) (cells : Cells) : List Expr → Run (List Int32)
  | [] => pure []
  | e :: rest => do
    let value ← e.eval calls cells
    let values ← Expr.evalAll calls cells rest
    return value :: values

end

/-! ## Statements -/

/-- How a statement ends: it goes on with the next one, or it returns. -/
inductive Flow where
  | next (cells : Cells)
  | returned (value : Int32)

/-- Repeats `body` as long as `test` is not zero, with a bound for the number of tests. -/
def repeatWhile (test : Cells → Run Int32) (body : Cells → Run Flow) : Nat → Cells → Run Flow
  | 0, _ => Run.unfinished
  | fuel + 1, cells => do
    let condition ← test cells
    if condition = 0 then return .next cells
    else
      match ← body cells with
      | .next cells' => repeatWhile test body fuel cells'
      | .returned value => return .returned value

mutual

/-- Executes a statement. -/
def Stmt.exec (calls : Calls) (fuel : Nat) : Stmt → Cells → Run Flow
  | .assign (.var name _) value _ _, cells => do
    let v ← value.eval calls cells
    return .next (cells.set name (.scalar v))
  | .assign (.element name index _) value _ _, cells => do
    let v ← value.eval calls cells
    let i ← index.eval calls cells
    let cells' ← Run.ofOption (cells.write? name i v)
    return .next cells'
  | .print value, cells => do
    let v ← value.eval calls cells
    Run.print v
    return .next cells
  | .read name _, cells => do
    match ← Run.read with
    | some v => return .next (cells.set name (.scalar v))
    | none => return .next cells
  | .ret value, cells => do
    let v ← value.eval calls cells
    return .returned v
  | .branch condition yes no, cells => do
    let v ← condition.eval calls cells
    if v = 0 then Stmt.execElse calls fuel no cells else Stmt.execAll calls fuel yes cells
  | .loop condition body, cells =>
    repeatWhile (fun cells => condition.eval calls cells)
      (fun cells => Stmt.execAll calls fuel body cells) fuel cells
  | .block body, cells => Stmt.execAll calls fuel body cells

/-- Executes statements in order, up to the first that returns. -/
def Stmt.execAll (calls : Calls) (fuel : Nat) : List Stmt → Cells → Run Flow
  | [], cells => return .next cells
  | s :: rest, cells => do
    match ← s.exec calls fuel cells with
    | .next cells' => Stmt.execAll calls fuel rest cells'
    | .returned value => return .returned value

/-- Executes the block of an `else`, if there is one. -/
def Stmt.execElse (calls : Calls) (fuel : Nat) : Option (List Stmt) → Cells → Run Flow
  | none, cells => return .next cells
  | some no, cells => Stmt.execAll calls fuel no cells

end

/-! ## Functions and programs -/

/-- Runs a body in a fresh activation. -/
def runBody (calls : Calls) (fuel : Nat) (body : List Stmt) (cells : Cells) : Run Int32 := do
  match ← Stmt.execAll calls fuel body cells with
  | .next _ => return 0
  | .returned value => return value

/-- Calls a function of the list, with a bound for the depth of calls. -/
def callAt (functions : List FunctionDecl) : Nat → Calls
  | 0, _, _ => Run.unfinished
  | fuel + 1, name, args =>
    match functions.find? fun f => f.name = name with
    | some f =>
      if f.paramList.length = args.length then
        runBody (callAt functions fuel) fuel f.body (activation f.paramList args f.localList)
      else Run.undefined
    | none => Run.undefined

namespace Program

/-- Runs a program. -/
def run (p : Program) (fuel : Nat) : Run Int32 :=
  runBody (callAt p.functions fuel) fuel p.body (activation [] [] p.varDefs)

/-- On the given input the program runs to an end, printing `output` and ending with `value`. -/
def Runs (p : Program) (input : Nat → Option Int32) (output : List Int32) (value : Int32) : Prop :=
  ∃ fuel console, p.run fuel { input, output := [] } = .done (value, console) ∧
    console.output = output

/-- What a program prints and the value it ends with, if the fuel lets it run to an end. -/
def outcome? (p : Program) (fuel : Nat) (input : Nat → Option Int32) :
    Option (List Int32 × Int32) :=
  match p.run fuel { input, output := [] } with
  | .done (value, console) => some (console.output, value)
  | .undefined => none
  | .unfinished => none

lemma runs_of_outcome? {p : Program} {fuel : Nat} {input : Nat → Option Int32}
    {output : List Int32} {value : Int32} (h : p.outcome? fuel input = some (output, value)) :
    p.Runs input output value := by
  rw [outcome?] at h
  cases hrun : p.run fuel { input, output := [] } with
  | done result =>
    rw [hrun] at h
    cases h
    exact ⟨fuel, result.2, hrun, rfl⟩
  | undefined =>
    rw [hrun] at h
    cases h
  | unfinished =>
    rw [hrun] at h
    cases h

end Program

/-! ## Annotations -/

/-- A call evaluates its arguments; there are none if the list is absent. -/
lemma Expr.eval_call (calls : Calls) (cells : Cells) (name : String) (args : Option (List Expr))
    (ty : Option Ty) :
    (Expr.call name args ty).eval calls cells =
      Expr.evalAll calls cells (args.getD []) >>= calls name := by
  cases args with
  | none =>
    rw [Expr.eval, Option.getD_none, Expr.evalAll]
    rfl
  | some args => rw [Expr.eval, Option.getD_some]

/-- Without an `else` the block is empty. -/
lemma Stmt.execElse_eq_execAll (calls : Calls) (fuel : Nat) (no : Option (List Stmt))
    (cells : Cells) :
    Stmt.execElse calls fuel no cells = Stmt.execAll calls fuel (no.getD []) cells := by
  cases no with
  | none => rw [Stmt.execElse, Option.getD_none, Stmt.execAll]
  | some no => rw [Stmt.execElse, Option.getD_some]

lemma Expr.evalAll_map_bare {calls : Calls} {cells : Cells} {list : List Expr}
    (h : ∀ e ∈ list, e.bare.eval calls cells = e.eval calls cells) :
    Expr.evalAll calls cells (list.map Expr.bare) = Expr.evalAll calls cells list := by
  induction list with
  | nil => rfl
  | cons e rest ih =>
    rw [List.map_cons, Expr.evalAll, Expr.evalAll, h e List.mem_cons_self,
      ih fun d hd => h d (List.mem_cons_of_mem e hd)]

lemma Expr.eval_bare (calls : Calls) (cells : Cells) (e : Expr) :
    e.bare.eval calls cells = e.eval calls cells := by
  induction e with
  | integer value ty => rw [Expr.bare, Expr.eval, Expr.eval]
  | var name symbol ty => rw [Expr.bare, Expr.eval, Expr.eval]
  | element name index symbol ty ih => rw [Expr.bare, Expr.eval, Expr.eval, ih]
  | arith op left right ty ihl ihr => rw [Expr.bare, Expr.eval, Expr.eval, ihl, ihr]
  | compare op left right ty ihl ihr => rw [Expr.bare, Expr.eval, Expr.eval, ihl, ihr]
  | call name args ty ih =>
    rw [Expr.bare_call, Expr.eval_call, Expr.eval_call, getD_map_map, Expr.evalAll_map_bare ih]

lemma Stmt.execAll_map_bare {calls : Calls} {fuel : Nat} {list : List Stmt}
    (h : ∀ s ∈ list, ∀ cells, s.bare.exec calls fuel cells = s.exec calls fuel cells) :
    ∀ cells, Stmt.execAll calls fuel (list.map Stmt.bare) cells =
      Stmt.execAll calls fuel list cells := by
  induction list with
  | nil => exact fun cells => rfl
  | cons s rest ih =>
    intro cells
    rw [List.map_cons, Stmt.execAll, Stmt.execAll, h s List.mem_cons_self]
    simp only [ih fun d hd => h d (List.mem_cons_of_mem s hd)]

lemma Stmt.exec_bare (calls : Calls) (fuel : Nat) (s : Stmt) :
    ∀ cells, s.bare.exec calls fuel cells = s.exec calls fuel cells := by
  induction s with
  | assign target value targetTy ty =>
    intro cells
    cases target with
    | var name symbol => rw [Stmt.bare, Target.bare, Stmt.exec, Stmt.exec, Expr.eval_bare]
    | element name index symbol =>
      rw [Stmt.bare, Target.bare, Stmt.exec, Stmt.exec, Expr.eval_bare, Expr.eval_bare]
  | print value =>
    intro cells
    rw [Stmt.bare, Stmt.exec, Stmt.exec, Expr.eval_bare]
  | read name symbol =>
    intro cells
    rw [Stmt.bare, Stmt.exec, Stmt.exec]
  | ret value =>
    intro cells
    rw [Stmt.bare, Stmt.exec, Stmt.exec, Expr.eval_bare]
  | branch condition yes no ihyes ihno =>
    intro cells
    rw [Stmt.bare_branch, Stmt.exec, Stmt.exec, Expr.eval_bare, Stmt.execElse_eq_execAll,
      Stmt.execElse_eq_execAll, getD_map_map, Stmt.execAll_map_bare ihyes,
      Stmt.execAll_map_bare ihno]
  | loop condition body ih =>
    intro cells
    rw [Stmt.bare, Stmt.exec, Stmt.exec, Stmt.bareAll_eq_map]
    simp only [Expr.eval_bare, Stmt.execAll_map_bare ih]
  | block body ih =>
    intro cells
    rw [Stmt.bare, Stmt.exec, Stmt.exec, Stmt.bareAll_eq_map, Stmt.execAll_map_bare ih]

lemma runBody_bareAll (calls : Calls) (fuel : Nat) (body : List Stmt) (cells : Cells) :
    runBody calls fuel (Stmt.bareAll body) cells = runBody calls fuel body cells := by
  rw [runBody, runBody, Stmt.bareAll_eq_map,
    Stmt.execAll_map_bare fun s _ => s.exec_bare calls fuel]

lemma callAt_map_bare (functions : List FunctionDecl) (fuel : Nat) :
    callAt (functions.map FunctionDecl.bare) fuel = callAt functions fuel := by
  induction fuel with
  | zero => rfl
  | succ fuel ih =>
    funext name args
    have hfind : (functions.map FunctionDecl.bare).find? (fun f => f.name = name) =
        (functions.find? fun f => f.name = name).map FunctionDecl.bare := by
      rw [List.find?_map]
      rfl
    rw [callAt, callAt, hfind, ih]
    cases functions.find? fun f => f.name = name with
    | none => rfl
    | some f =>
      show (if f.paramList.length = args.length then runBody _ _ (Stmt.bareAll f.body) _ else _) = _
      rw [runBody_bareAll]
      rfl

/-- A program runs as it does without annotations. -/
lemma Program.run_bare (p : Program) (fuel : Nat) : p.bare.run fuel = p.run fuel := by
  rw [Program.run, Program.run, Program.functions_bare, Program.varDefs_bare, callAt_map_bare]
  exact runBody_bareAll _ _ _ _

end DLang
