import DLang.Proofs.Lowering.Shape
import DLang.Proofs.Renaming.Trees

/-!
# Lowering commutes with renamings

Lowering writes the names of a tree into registers, slots and calls, and never asks which name it
has before it.  So the module of a renamed program is the module of the program, renamed, and an
error is about the other name (`Program.lower_rename`).

This holds of every tree, also of one that lowering rejects for a type that is missing.  The error
then shows the text of an expression, which the renaming has changed in a way that the error alone
does not tell; `SameLowering` leaves this text open.
-/

namespace DLang

/-! ## Code with other names -/

namespace IR

/-- A register with another name. -/
def Register.rename (r : Renaming) : Register → Register
  | named name => named (r name)
  | temporary number => temporary number

/-- An operand with another name. -/
def Operand.rename (r : Renaming) : Operand → Operand
  | constant value => constant value
  | register reg => register (reg.rename r)

/-- An instruction with other names. -/
def Instr.rename (r : Renaming) : Instr → Instr
  | reserve slot => reserve (r slot)
  | reserveArray slot size => reserveArray (r slot) size
  | store value address => store (value.rename r) (address.rename r)
  | load into address => load into (address.rename r)
  | elementAddress into size array index => elementAddress into size (r array) (index.rename r)
  | arith into op left right => arith into op (left.rename r) (right.rename r)
  | compare into op ty left right => compare into op ty (left.rename r) (right.rename r)
  | widen into value => widen into (value.rename r)
  | call into function args => call into (r function) (args.map (Operand.rename r))
  | print into value => print into (value.rename r)
  | read into slot => read into (r slot)
  | jump label => jump label
  | branch condition yes no => branch (condition.rename r) yes no
  | ret value => ret (value.rename r)

/-- A line with other names. -/
def Line.rename (r : Renaming) : Line → Line
  | label l => label l
  | instr i => instr (i.rename r)

/-- A function with other names in its head and in its lines. -/
def Function.rename (r : Renaming) (g : Function) : Function where
  name := r g.name
  params := g.params.map r
  lines := g.lines.map (Line.rename r)

/-- A module with other names. -/
def Module.rename (r : Renaming) (m : Module) : Module where
  functions := m.functions.map (Function.rename r)

end IR

/-- An error about another name. -/
def LoweringError.rename (r : Renaming) : LoweringError → LoweringError
  | unknownArraySize name => unknownArraySize (r name)
  | invalidTarget name => invalidTarget (r name)
  | unresolvedSymbol name => unresolvedSymbol (r name)
  | missingType node => missingType node

/-- A lowered expression with other names. -/
def LoweredExpr.rename (r : Renaming) (lowered : LoweredExpr) : LoweredExpr where
  code := lowered.code.map (IR.Instr.rename r)
  value := lowered.value.rename r
  temporaries := lowered.temporaries

/-- Lowered arguments with other names. -/
def LoweredArgs.rename (r : Renaming) (lowered : LoweredArgs) : LoweredArgs where
  code := lowered.code.map (IR.Instr.rename r)
  values := lowered.values.map (IR.Operand.rename r)
  temporaries := lowered.temporaries

/-- A lowered statement with other names. -/
def LoweredStmt.rename (r : Renaming) (lowered : LoweredStmt) : LoweredStmt where
  code := lowered.code.map (IR.Line.rename r)
  counters := lowered.counters

variable (r : Renaming)

/-! ## Parts of code -/

lemma instrLines_rename (code : List IR.Instr) :
    (instrLines code).map (IR.Line.rename r) = instrLines (code.map (IR.Instr.rename r)) := by
  simp [instrLines, IR.Line.rename]

lemma emitResult_rename (code : List IR.Instr) (t : Nat) (instr : Nat → IR.Instr) :
    (emitResult code t instr).rename r =
      emitResult (code.map (IR.Instr.rename r)) t fun into => (instr into).rename r := by
  simp [emitResult, LoweredExpr.rename, IR.Operand.rename, IR.Register.rename]

lemma widenAfter_rename (code : List IR.Instr) (value : IR.Operand) (ty : Ty) (t : Nat) :
    (widenAfter code value ty t).rename r =
      widenAfter (code.map (IR.Instr.rename r)) (value.rename r) ty t := by
  cases ty with
  | int => rfl
  | bool => exact emitResult_rename r code t _

lemma LoweredExpr.toInt_rename (lowered : LoweredExpr) (ty : Ty) :
    (lowered.toInt ty).rename r = (lowered.rename r).toInt ty :=
  widenAfter_rename r lowered.code lowered.value ty lowered.temporaries

lemma lowerAddress_rename (name : String) (size : Nat) (index : LoweredExpr) (ty : Ty) :
    (lowerAddress name size index ty).rename r =
      lowerAddress (r name) size (index.rename r) ty := by
  rw [lowerAddress, lowerAddress, emitResult_rename, ← LoweredExpr.toInt_rename]
  rfl

lemma lowerComparison_rename (op : RelOp) (left right : LoweredExpr) (leftTy rightTy : Ty) :
    (lowerComparison op left leftTy right rightTy).rename r =
      lowerComparison op (left.rename r) leftTy (right.rename r) rightTy := by
  cases leftTy <;> cases rightTy <;>
    simp [lowerComparison, widenAfter, emitResult, LoweredExpr.rename, IR.Instr.rename,
      IR.Operand.rename, IR.Register.rename]

/-! ## Results of lowering -/

/-- Two results of lowering that differ in names only, or in the text of an expression without a
type. -/
inductive SameLowering {α : Type} (onResult : α → α) :
    Except LoweringError α → Except LoweringError α → Prop
  | ok {a a' : α} : onResult a = a' → SameLowering onResult (.ok a) (.ok a')
  | error (e : LoweringError) : SameLowering onResult (.error e) (.error (e.rename r))
  | missingType (node node' : String) :
      SameLowering onResult (.error (.missingType node)) (.error (.missingType node'))

namespace SameLowering

variable {r} {α β : Type} {onResult : α → α} {onNext : β → β}

/-- Two steps agree up to names if the first does, and the second after results that do. -/
lemma bind {x x' : Except LoweringError α} {next next' : α → Except LoweringError β}
    (h : SameLowering r onResult x x')
    (hnext : ∀ a, SameLowering r onNext (next a) (next' (onResult a))) :
    SameLowering r onNext (x >>= next) (x' >>= next') := by
  cases h with
  | @ok a a' heq =>
    subst heq
    exact hnext a
  | error e => exact .error e
  | missingType node node' => exact .missingType node node'

end SameLowering

/-! ## Expressions -/

lemma Expr.ty_rename (e : Expr) : (e.rename r).ty = e.ty := by
  cases e with
  | call name args ty => cases args <;> rfl
  | _ => rfl

lemma Expr.requireTy_rename (e : Expr) :
    SameLowering r id e.requireTy (e.rename r).requireTy := by
  rw [Expr.requireTy, Expr.requireTy, e.ty_rename]
  cases e.ty with
  | none => exact .missingType _ _
  | some ty => exact .ok rfl

lemma requireSize_rename (name : String) (symbol : Option Symbol) :
    SameLowering r id (requireSize name symbol)
      (requireSize (r name) (symbol.map (Symbol.rename r))) := by
  cases symbol with
  | none => exact .error (.unknownArraySize name)
  | some symbol =>
    cases symbol with
    | array name' ty size => exact .ok rfl
    | _ => exact .error (.unknownArraySize name)

lemma lowerVariable_rename (name : String) (symbol : Option Symbol) (t : Nat) :
    SameLowering r (LoweredExpr.rename r) (lowerVariable name symbol t)
      (lowerVariable (r name) (symbol.map (Symbol.rename r)) t) := by
  cases symbol with
  | none => exact .error (.unresolvedSymbol name)
  | some symbol =>
    cases symbol with
    | var name' ty => exact .ok (emitResult_rename r [] t _)
    | arg name' ty => exact .ok rfl
    | _ => exact .error (.unresolvedSymbol name)

lemma Expr.lowerArgs_rename {args : List Expr}
    (h : ∀ e ∈ args, ∀ t,
      SameLowering r (LoweredExpr.rename r) (e.lower t) ((e.rename r).lower t)) :
    ∀ t, SameLowering r (LoweredArgs.rename r) (Expr.lowerArgs args t)
      (Expr.lowerArgs (Expr.renameAll r args) t) := by
  induction args with
  | nil =>
    intro t
    rw [Expr.renameAll, Expr.lowerArgs]
    exact .ok rfl
  | cons e rest ih =>
    intro t
    obtain ⟨he, hrest⟩ := List.forall_mem_cons.1 h
    rw [Expr.renameAll, Expr.lowerArgs, Expr.lowerArgs]
    refine .bind (he t) fun l => .bind (e.requireTy_rename r) fun ty => ?_
    have htoInt := l.toInt_rename r ty
    rw [id, ← htoInt]
    refine .bind (ih hrest _) fun more => .ok ?_
    simp [LoweredArgs.rename, LoweredExpr.rename]

/-- Expressions are lowered up to names. -/
lemma Expr.lower_rename (e : Expr) :
    ∀ t, SameLowering r (LoweredExpr.rename r) (e.lower t) ((e.rename r).lower t) := by
  induction e with
  | integer value ty =>
    intro t
    have hty := (Expr.integer value ty).requireTy_rename r
    rw [Expr.rename] at hty ⊢
    rw [Expr.lower]
    exact .bind hty fun _ => .ok rfl
  | var name symbol ty =>
    intro t
    have hty := (Expr.var name symbol ty).requireTy_rename r
    rw [Expr.rename] at hty ⊢
    rw [Expr.lower, Expr.lower]
    exact .bind hty fun _ => lowerVariable_rename r name symbol t
  | element name index symbol ty ih =>
    intro t
    have hty := (Expr.element name index symbol ty).requireTy_rename r
    rw [Expr.rename] at hty ⊢
    rw [Expr.lower, Expr.lower]
    refine .bind hty fun _ => .bind (requireSize_rename r name symbol) fun size => ?_
    refine .bind (ih t) fun i => .bind (index.requireTy_rename r) fun indexTy => .ok ?_
    rw [emitResult_rename, id, id, ← lowerAddress_rename]
    rfl
  | arith op left right ty ihl ihr =>
    intro t
    have hty := (Expr.arith op left right ty).requireTy_rename r
    rw [Expr.rename] at hty ⊢
    rw [Expr.lower, Expr.lower]
    refine .bind hty fun _ => .bind (ihl t) fun l => .bind (ihr l.temporaries) fun r' => .ok ?_
    rw [emitResult_rename, List.map_append]
    rfl
  | compare op left right ty ihl ihr =>
    intro t
    have hty := (Expr.compare op left right ty).requireTy_rename r
    rw [Expr.rename] at hty ⊢
    rw [Expr.lower, Expr.lower]
    refine .bind hty fun _ => .bind (ihl t) fun l => .bind (ihr l.temporaries) fun r' => ?_
    refine .bind (left.requireTy_rename r) fun leftTy => ?_
    refine .bind (right.requireTy_rename r) fun rightTy => .ok ?_
    exact lowerComparison_rename r op l r' leftTy rightTy
  | call name args ty ih =>
    intro t
    have hty := (Expr.call name args ty).requireTy_rename r
    cases args with
    | none =>
      rw [Expr.rename] at hty ⊢
      rw [Expr.lower, Expr.lower]
      exact .bind hty fun _ => .ok (emitResult_rename r [] t _)
    | some args =>
      rw [Expr.rename] at hty ⊢
      rw [Expr.lower, Expr.lower]
      refine .bind hty fun _ => .bind (Expr.lowerArgs_rename r ih t) fun a => .ok ?_
      rw [emitResult_rename]
      rfl

lemma Expr.lowerInt_rename (e : Expr) (t : Nat) :
    SameLowering r (LoweredExpr.rename r) (e.lowerInt t) ((e.rename r).lowerInt t) := by
  rw [Expr.lowerInt, Expr.lowerInt]
  refine .bind (e.lower_rename r t) fun l => .bind (e.requireTy_rename r) fun ty => .ok ?_
  exact l.toInt_rename r ty

/-! ## Statements -/

lemma requireSlot_rename (name : String) (symbol : Option Symbol) :
    SameLowering r r (requireSlot name symbol)
      (requireSlot (r name) (symbol.map (Symbol.rename r))) := by
  cases symbol with
  | none => exact .error (.unresolvedSymbol name)
  | some symbol =>
    cases symbol with
    | var name' ty => exact .ok rfl
    | _ => exact .error (.invalidTarget name)

lemma Target.lowerStore_rename (target : Target) (v : LoweredExpr) :
    SameLowering r (LoweredExpr.rename r) (target.lowerStore v)
      ((target.rename r).lowerStore (v.rename r)) := by
  cases target with
  | var name symbol =>
    rw [Target.rename, Target.lowerStore, Target.lowerStore]
    refine .bind (requireSlot_rename r name symbol) fun slot => .ok ?_
    simp [LoweredExpr.rename, IR.Instr.rename, IR.Register.rename]
  | element name index symbol =>
    rw [Target.rename, Target.lowerStore, Target.lowerStore]
    refine .bind (requireSize_rename r name symbol) fun size => ?_
    refine .bind (index.lower_rename r v.temporaries) fun i => ?_
    refine .bind (index.requireTy_rename r) fun ty => .ok ?_
    rw [id, id, ← lowerAddress_rename]
    simp [LoweredExpr.rename, IR.Instr.rename, IR.Register.rename]

lemma Stmt.lowerAll_rename_of_forall {body : List Stmt}
    (h : ∀ s ∈ body, ∀ c,
      SameLowering r (LoweredStmt.rename r) (s.lower c) ((s.rename r).lower c)) :
    ∀ c, SameLowering r (LoweredStmt.rename r) (Stmt.lowerAll body c)
      (Stmt.lowerAll (Stmt.renameAll r body) c) := by
  induction body with
  | nil =>
    intro c
    rw [Stmt.renameAll, Stmt.lowerAll]
    exact .ok rfl
  | cons s rest ih =>
    intro c
    obtain ⟨hs, hrest⟩ := List.forall_mem_cons.1 h
    rw [Stmt.renameAll, Stmt.lowerAll, Stmt.lowerAll]
    refine .bind (hs c) fun first => .bind (ih hrest first.counters) fun more => .ok ?_
    simp [LoweredStmt.rename]

/-- Statements are lowered up to names. -/
lemma Stmt.lower_rename (s : Stmt) :
    ∀ c, SameLowering r (LoweredStmt.rename r) (s.lower c) ((s.rename r).lower c) := by
  induction s with
  | assign target value targetTy ty =>
    intro c
    rw [Stmt.rename, Stmt.lower, Stmt.lower]
    refine .bind (value.lowerInt_rename r c.temporaries) fun v => ?_
    refine .bind (target.lowerStore_rename r v) fun stored => .ok ?_
    rw [LoweredStmt.rename, instrLines_rename]
    rfl
  | print value =>
    intro c
    rw [Stmt.rename, Stmt.lower, Stmt.lower]
    refine .bind (value.lowerInt_rename r c.temporaries) fun v => .ok ?_
    rw [LoweredStmt.rename, instrLines_rename]
    simp [emitResult, LoweredExpr.rename, IR.Instr.rename]
  | read name symbol =>
    intro c
    rw [Stmt.rename, Stmt.lower, Stmt.lower]
    refine .bind (requireSlot_rename r name symbol) fun slot => .ok ?_
    rw [LoweredStmt.rename, instrLines_rename]
    rfl
  | ret value =>
    intro c
    rw [Stmt.rename, Stmt.lower, Stmt.lower]
    refine .bind (value.lowerInt_rename r c.temporaries) fun v => .ok ?_
    rw [LoweredStmt.rename, instrLines_rename, List.map_append]
    rfl
  | branch condition yes no ihyes ihno =>
    intro c
    have hyes := Stmt.lowerAll_rename_of_forall r ihyes
    have helse : ∀ c, SameLowering r (LoweredStmt.rename r) (Stmt.lowerElse no c)
        (Stmt.lowerElse (no.map (Stmt.renameAll r)) c) := by
      intro c
      cases no with
      | none =>
        rw [Option.map_none, Stmt.lowerElse]
        exact .ok rfl
      | some no =>
        rw [Option.map_some, Stmt.lowerElse, Stmt.lowerElse]
        exact Stmt.lowerAll_rename_of_forall r ihno c
    have hrename : (Stmt.branch condition yes no).rename r =
        .branch (condition.rename r) (Stmt.renameAll r yes) (no.map (Stmt.renameAll r)) := by
      cases no <;> rfl
    rw [hrename, Stmt.lower, Stmt.lower]
    refine .bind (condition.lower_rename r c.temporaries) fun test => ?_
    refine .bind (hyes _) fun y => .bind (helse y.counters) fun n => .ok ?_
    simp [LoweredStmt.rename, LoweredExpr.rename, instrLines, IR.Line.rename, IR.Instr.rename]
  | loop condition body ih =>
    intro c
    rw [Stmt.rename, Stmt.lower, Stmt.lower]
    refine .bind (condition.lower_rename r c.temporaries) fun test => ?_
    refine .bind (Stmt.lowerAll_rename_of_forall r ih _) fun b => .ok ?_
    simp [LoweredStmt.rename, LoweredExpr.rename, instrLines, IR.Line.rename, IR.Instr.rename]
  | block body ih =>
    intro c
    rw [Stmt.rename, Stmt.lower, Stmt.lower]
    exact Stmt.lowerAll_rename_of_forall r ih c

lemma Stmt.lowerAll_rename (body : List Stmt) (c : Counters) :
    SameLowering r (LoweredStmt.rename r) (Stmt.lowerAll body c)
      (Stmt.lowerAll (Stmt.renameAll r body) c) :=
  Stmt.lowerAll_rename_of_forall r (fun s _ => s.lower_rename r) c

/-! ## Programs -/

lemma VarDef.lower_rename (d : VarDef) :
    (d.rename r).lower = d.lower.map (IR.Instr.rename r) := by
  cases d <;> rfl

lemma functionLines_rename (slots : List VarDef) (body : List IR.Line) (finalReturn : Bool) :
    (functionLines slots body finalReturn).map (IR.Line.rename r) =
      functionLines (slots.map (VarDef.rename r)) (body.map (IR.Line.rename r)) finalReturn := by
  have hslots : (slots.map (VarDef.rename r)).flatMap VarDef.lower =
      (slots.flatMap VarDef.lower).map (IR.Instr.rename r) := by
    rw [List.flatMap_map, List.map_flatMap]
    exact congrArg (fun f => slots.flatMap f) (funext fun d => d.lower_rename r)
  rw [functionLines, functionLines, hslots, ← instrLines_rename]
  cases finalReturn <;> simp [IR.Line.rename, IR.Instr.rename, IR.Operand.rename]

lemma FunctionDecl.lower_rename (f : FunctionDecl) (finalReturn : Bool) (c : Counters) :
    SameLowering r (Prod.map (IR.Function.rename r) id) (f.lower finalReturn c)
      ((f.rename r).lower finalReturn c) := by
  rw [FunctionDecl.lower, FunctionDecl.lower]
  refine .bind (Stmt.lowerAll_rename r f.body c) fun body => .ok ?_
  rw [f.paramList_rename, f.localList_rename]
  simp only [Prod.map_apply, IR.Function.rename, functionLines_rename]
  rfl

lemma lowerFunctions_rename (finalReturn : Bool) (functions : List FunctionDecl) :
    ∀ c, SameLowering r (Prod.map (List.map (IR.Function.rename r)) id)
      (lowerFunctions finalReturn functions c).result
      (lowerFunctions finalReturn (functions.map (FunctionDecl.rename r)) c).result := by
  induction functions with
  | nil => exact fun c => .ok rfl
  | cons f rest ih =>
    intro c
    rw [List.map_cons, lowerFunctions, lowerFunctions, Logged.result_bind, Logged.result_bind]
    refine .bind (f.lower_rename r finalReturn c) ?_
    rintro ⟨first, c'⟩
    simp only [Prod.map_apply, Logged.result_bind]
    exact .bind (.ok (rfl : id () = ())) fun _ => .bind (ih c') fun more => .ok rfl

lemma Program.functions_rename (p : Program) :
    (p.rename r).functions = p.functions.map (FunctionDecl.rename r) := by
  rw [Program.functions, Program.functions, p.declarationList_rename, List.filterMap_map,
    List.map_filterMap]
  refine congrArg (fun f => p.declarationList.filterMap f) (funext fun d => ?_)
  cases d <;> rfl

lemma Program.varDefs_rename (p : Program) :
    (p.rename r).varDefs = p.varDefs.map (VarDef.rename r) := by
  rw [Program.varDefs, Program.varDefs, p.declarationList_rename, List.flatMap_map,
    List.map_flatMap]
  refine congrArg (fun f => p.declarationList.flatMap f) (funext fun d => ?_)
  cases d <;> rfl

/-- The entry of the module keeps its name. -/
lemma Program.lowerMain_rename (p : Program) (c : Counters) :
    SameLowering r (Prod.map (IR.Function.rename r) id) (p.lowerMain c)
      ((p.rename r).lowerMain c) := by
  have hmain : r "main" = "main" := r.apply_of_mem_reservedNames (by decide)
  rw [Program.lowerMain, Program.lowerMain]
  refine .bind (Stmt.lowerAll_rename r p.body c) fun body => .ok ?_
  rw [p.varDefs_rename]
  simp only [Prod.map_apply, IR.Function.rename, functionLines_rename, hmain]
  rfl

/-- The module of a renamed program is that of the program, renamed. -/
lemma Program.lower_rename (p : Program) (finalReturn : Bool) :
    SameLowering r (Prod.map (IR.Module.rename r) id) (p.lower finalReturn).result
      ((p.rename r).lower finalReturn).result := by
  rw [Program.lower, Program.lower, Logged.result_bind, Logged.result_bind, p.functions_rename]
  refine .bind (lowerFunctions_rename r finalReturn p.functions _) fun lowered => ?_
  rw [Logged.result_bind, Logged.result_bind]
  refine .bind (p.lowerMain_rename r lowered.2) fun main => .ok ?_
  simp only [Prod.map_apply, IR.Module.rename, List.map_append]
  rfl

end DLang
