import DLang.Proofs.Lowering.Mentions
import DLang.Proofs.Static.Insertion

/-!
# Lowering from higher counters

The counters of temporaries and labels go through the whole of lowering, and every number in the
code of a function comes from them.  Lowering never looks at them for anything else.  So lowering
that starts with both counters higher gives the same code with higher numbers, or fails with the
same error, and leaves the counters higher by as much (`Stmt.lower_shift`, `LowersTo.shift`).
-/

namespace DLang

/-! ## Higher numbers -/

namespace IR

/-- A label, with `k` added to its number.  The label at the head of a function has none. -/
def Label.shift (k : Nat) : Label → Label
  | entry => entry
  | numbered mark number => numbered mark (number + k)

/-- Adds `n` to the numbers of temporaries and `k` to those of labels. -/
def Substitution.shift (n k : Nat) : Substitution where
  onName := id
  onTemporary := (· + n)
  onLabel := Label.shift k

end IR

/-- Counters that have gone further. -/
def Counters.shift (n k : Nat) (c : Counters) : Counters where
  temporaries := c.temporaries + n
  labels := c.labels + k

/-- A lowered expression with higher numbers. -/
def LoweredExpr.shift (n k : Nat) (lowered : LoweredExpr) : LoweredExpr where
  code := lowered.code.map (IR.Instr.subst (.shift n k))
  value := lowered.value.subst (.shift n k)
  temporaries := lowered.temporaries + n

/-- Lowered arguments with higher numbers. -/
def LoweredArgs.shift (n k : Nat) (lowered : LoweredArgs) : LoweredArgs where
  code := lowered.code.map (IR.Instr.subst (.shift n k))
  values := lowered.values.map (IR.Operand.subst (.shift n k))
  temporaries := lowered.temporaries + n

/-- A lowered statement with higher numbers. -/
def LoweredStmt.shift (n k : Nat) (lowered : LoweredStmt) : LoweredStmt where
  code := lowered.code.map (IR.Line.subst (.shift n k))
  counters := lowered.counters.shift n k

/-! ## Two runs side by side -/

/-- Two steps agree up to a change of their results if the first does, and the second after it. -/
lemma bind_eq_map_bind {ε α β : Type} {onResult : α → α} {onNext : β → β} {x x' : Except ε α}
    {next next' : α → Except ε β} (h : x' = x.map onResult)
    (hnext : ∀ a, next' (onResult a) = (next a).map onNext) :
    x' >>= next' = (x >>= next).map onNext := by
  subst h
  cases x with
  | error e => rfl
  | ok a => exact hnext a

/-- The first step may be the same in both runs. -/
lemma bind_eq_map_bind_same {ε α β : Type} {onNext : β → β} {x : Except ε α}
    {next next' : α → Except ε β} (hnext : ∀ a, next' a = (next a).map onNext) :
    x >>= next' = (x >>= next).map onNext := by
  cases x with
  | error e => rfl
  | ok a => exact hnext a

variable (n k : Nat)

/-! ## Parts of code -/

lemma instrLines_shift (code : List IR.Instr) :
    (instrLines code).map (IR.Line.subst (.shift n k)) =
      instrLines (code.map (IR.Instr.subst (.shift n k))) := by
  simp [instrLines, IR.Line.subst]

lemma emitResult_shift (code : List IR.Instr) (t : Nat) (instr : Nat → IR.Instr)
    {instr' : Nat → IR.Instr} (h : ∀ into, instr' (into + n) = (instr into).subst (.shift n k)) :
    emitResult (code.map (IR.Instr.subst (.shift n k))) (t + n) instr' =
      (emitResult code t instr).shift n k := by
  have hnext : t + n + 1 = t + 1 + n := by omega
  simp [emitResult, LoweredExpr.shift, IR.Operand.subst, IR.Register.subst,
    IR.Substitution.shift, hnext, h]

lemma widenAfter_shift (code : List IR.Instr) (value : IR.Operand) (ty : Ty) (t : Nat) :
    widenAfter (code.map (IR.Instr.subst (.shift n k))) (value.subst (.shift n k)) ty (t + n) =
      (widenAfter code value ty t).shift n k := by
  cases ty with
  | int => rfl
  | bool =>
    show emitResult _ _ (fun into => .widen into (value.subst (.shift n k))) = _
    exact emitResult_shift n k code t (fun into => .widen into value) fun _ => rfl

lemma LoweredExpr.toInt_shift (lowered : LoweredExpr) (ty : Ty) :
    (lowered.shift n k).toInt ty = (lowered.toInt ty).shift n k :=
  widenAfter_shift n k lowered.code lowered.value ty lowered.temporaries

lemma lowerAddress_shift (name : String) (size : Nat) (index : LoweredExpr) (ty : Ty) :
    lowerAddress name size (index.shift n k) ty = (lowerAddress name size index ty).shift n k := by
  rw [lowerAddress, lowerAddress, LoweredExpr.toInt_shift]
  exact emitResult_shift n k _ _ _ fun _ => rfl

lemma lowerComparison_shift (op : RelOp) (left right : LoweredExpr) (leftTy rightTy : Ty) :
    lowerComparison op (left.shift n k) leftTy (right.shift n k) rightTy =
      (lowerComparison op left leftTy right rightTy).shift n k := by
  have hcode : (left.shift n k).code ++ (right.shift n k).code =
      (left.code ++ right.code).map (IR.Instr.subst (.shift n k)) := List.map_append.symm
  simp only [lowerComparison, hcode]
  split
  · exact emitResult_shift n k _ _ _ fun _ => rfl
  · have hl : widenAfter ((left.code ++ right.code).map (IR.Instr.subst (.shift n k)))
        (left.shift n k).value leftTy (right.shift n k).temporaries =
        (widenAfter (left.code ++ right.code) left.value leftTy right.temporaries).shift n k :=
      widenAfter_shift n k _ _ _ _
    rw [hl]
    generalize widenAfter (left.code ++ right.code) left.value leftTy right.temporaries = l
    have hr : widenAfter (l.shift n k).code (right.shift n k).value rightTy
        (l.shift n k).temporaries =
        (widenAfter l.code right.value rightTy l.temporaries).shift n k :=
      widenAfter_shift n k _ _ _ _
    rw [hr]
    exact emitResult_shift n k _ _ _ fun _ => rfl

/-! ## Expressions -/

lemma lowerVariable_shift (name : String) (symbol : Option Symbol) (t : Nat) :
    lowerVariable name symbol (t + n) =
      (lowerVariable name symbol t).map (LoweredExpr.shift n k) := by
  cases symbol with
  | none => rfl
  | some symbol =>
    cases symbol with
    | var name' ty => exact congrArg Except.ok (emitResult_shift n k [] t _ fun _ => rfl)
    | _ => rfl

lemma Expr.lowerArgs_shift {args : List Expr}
    (h : ∀ e ∈ args, ∀ t, e.lower (t + n) = (e.lower t).map (LoweredExpr.shift n k)) :
    ∀ t, Expr.lowerArgs args (t + n) = (Expr.lowerArgs args t).map (LoweredArgs.shift n k) := by
  induction args with
  | nil =>
    intro t
    rw [Expr.lowerArgs, Expr.lowerArgs]
    rfl
  | cons e rest ih =>
    intro t
    obtain ⟨he, hrest⟩ := List.forall_mem_cons.1 h
    rw [Expr.lowerArgs, Expr.lowerArgs]
    refine bind_eq_map_bind (he t) fun l => bind_eq_map_bind_same fun ty => ?_
    rw [LoweredExpr.toInt_shift]
    refine bind_eq_map_bind (ih hrest _) fun more => congrArg Except.ok ?_
    simp [LoweredArgs.shift, LoweredExpr.shift]

/-- Expressions are lowered up to numbers. -/
lemma Expr.lower_shift (e : Expr) :
    ∀ t, e.lower (t + n) = (e.lower t).map (LoweredExpr.shift n k) := by
  induction e with
  | integer value ty =>
    intro t
    rw [Expr.lower, Expr.lower]
    exact bind_eq_map_bind_same fun _ => rfl
  | var name symbol ty =>
    intro t
    rw [Expr.lower, Expr.lower]
    exact bind_eq_map_bind_same fun _ => lowerVariable_shift n k name symbol t
  | element name index symbol ty ih =>
    intro t
    rw [Expr.lower, Expr.lower]
    refine bind_eq_map_bind_same fun _ => bind_eq_map_bind_same fun size => ?_
    refine bind_eq_map_bind (ih t) fun i => bind_eq_map_bind_same fun indexTy => ?_
    rw [lowerAddress_shift]
    exact congrArg Except.ok (emitResult_shift n k _ _ _ fun _ => rfl)
  | arith op left right ty ihl ihr =>
    intro t
    rw [Expr.lower, Expr.lower]
    refine bind_eq_map_bind_same fun _ => bind_eq_map_bind (ihl t) fun l => ?_
    refine bind_eq_map_bind (ihr l.temporaries) fun r => congrArg Except.ok ?_
    have hcode : (l.shift n k).code ++ (r.shift n k).code =
        (l.code ++ r.code).map (IR.Instr.subst (.shift n k)) := List.map_append.symm
    rw [hcode]
    exact emitResult_shift n k _ _ _ fun _ => rfl
  | compare op left right ty ihl ihr =>
    intro t
    rw [Expr.lower, Expr.lower]
    refine bind_eq_map_bind_same fun _ => bind_eq_map_bind (ihl t) fun l => ?_
    refine bind_eq_map_bind (ihr l.temporaries) fun r => ?_
    refine bind_eq_map_bind_same fun leftTy => bind_eq_map_bind_same fun rightTy => ?_
    exact congrArg Except.ok (lowerComparison_shift n k op l r leftTy rightTy)
  | call name args ty ih =>
    intro t
    cases args with
    | none =>
      rw [Expr.lower, Expr.lower]
      refine bind_eq_map_bind_same fun _ => ?_
      exact congrArg Except.ok (emitResult_shift n k [] t _ fun _ => rfl)
    | some args =>
      rw [Expr.lower, Expr.lower]
      refine bind_eq_map_bind_same fun _ => ?_
      refine bind_eq_map_bind (Expr.lowerArgs_shift n k ih t) fun a => ?_
      exact congrArg Except.ok (emitResult_shift n k _ _ _ fun _ => rfl)

lemma Expr.lowerInt_shift (e : Expr) (t : Nat) :
    e.lowerInt (t + n) = (e.lowerInt t).map (LoweredExpr.shift n k) := by
  rw [Expr.lowerInt, Expr.lowerInt]
  refine bind_eq_map_bind (e.lower_shift n k t) fun l => bind_eq_map_bind_same fun ty => ?_
  exact congrArg Except.ok (l.toInt_shift n k ty)

/-! ## Statements -/

lemma Target.lowerStore_shift (target : Target) (v : LoweredExpr) :
    target.lowerStore (v.shift n k) = (target.lowerStore v).map (LoweredExpr.shift n k) := by
  cases target with
  | var name symbol =>
    rw [Target.lowerStore, Target.lowerStore]
    refine bind_eq_map_bind_same fun slot => congrArg Except.ok ?_
    simp [LoweredExpr.shift, IR.Instr.subst, IR.Register.subst, IR.Substitution.shift]
  | element name index symbol =>
    rw [Target.lowerStore, Target.lowerStore]
    refine bind_eq_map_bind_same fun size => ?_
    refine bind_eq_map_bind (index.lower_shift n k v.temporaries) fun i => ?_
    refine bind_eq_map_bind_same fun ty => congrArg Except.ok ?_
    rw [lowerAddress_shift]
    simp [LoweredExpr.shift, IR.Instr.subst, IR.Register.subst, IR.Substitution.shift]

lemma Stmt.lowerAll_shift_of_forall {body : List Stmt}
    (h : ∀ s ∈ body, ∀ c : Counters,
      s.lower (c.shift n k) = (s.lower c).map (LoweredStmt.shift n k)) :
    ∀ c : Counters,
      Stmt.lowerAll body (c.shift n k) = (Stmt.lowerAll body c).map (LoweredStmt.shift n k) := by
  induction body with
  | nil =>
    intro c
    rw [Stmt.lowerAll, Stmt.lowerAll]
    rfl
  | cons s rest ih =>
    intro c
    obtain ⟨hs, hrest⟩ := List.forall_mem_cons.1 h
    rw [Stmt.lowerAll, Stmt.lowerAll]
    refine bind_eq_map_bind (hs c) fun first => ?_
    refine bind_eq_map_bind (ih hrest first.counters) fun more => congrArg Except.ok ?_
    simp [LoweredStmt.shift]

/-- The counters after a condition, with three labels taken. -/
lemma counters_shift (test : LoweredExpr) (c : Counters) :
    Counters.mk (test.shift n k).temporaries ((c.shift n k).labels + 3) =
      (Counters.mk test.temporaries (c.labels + 3)).shift n k :=
  congrArg (Counters.mk (test.temporaries + n)) (Nat.add_right_comm c.labels k 3)

/-- Statements are lowered up to numbers. -/
lemma Stmt.lower_shift (s : Stmt) : ∀ c : Counters,
    s.lower (c.shift n k) = (s.lower c).map (LoweredStmt.shift n k) := by
  induction s with
  | assign target value targetTy ty =>
    intro c
    rw [Stmt.lower, Stmt.lower]
    refine bind_eq_map_bind (value.lowerInt_shift n k c.temporaries) fun v => ?_
    refine bind_eq_map_bind (target.lowerStore_shift n k v) fun stored => congrArg Except.ok ?_
    rw [LoweredStmt.shift, instrLines_shift]
    rfl
  | print value =>
    intro c
    rw [Stmt.lower, Stmt.lower]
    refine bind_eq_map_bind (value.lowerInt_shift n k c.temporaries) fun v => congrArg Except.ok ?_
    have hprinted : emitResult (v.shift n k).code (v.shift n k).temporaries
        (fun into => .print into (v.shift n k).value) =
        (emitResult v.code v.temporaries fun into => .print into v.value).shift n k :=
      emitResult_shift n k _ _ _ fun _ => rfl
    rw [hprinted, LoweredStmt.shift, instrLines_shift]
    rfl
  | read name symbol =>
    intro c
    rw [Stmt.lower, Stmt.lower]
    refine bind_eq_map_bind_same fun slot => congrArg Except.ok ?_
    have hread : emitResult [] (c.shift n k).temporaries (fun into => .read into slot) =
        (emitResult [] c.temporaries fun into => .read into slot).shift n k :=
      emitResult_shift n k [] _ _ fun _ => rfl
    rw [hread, LoweredStmt.shift, instrLines_shift]
    rfl
  | ret value =>
    intro c
    rw [Stmt.lower, Stmt.lower]
    refine bind_eq_map_bind (value.lowerInt_shift n k c.temporaries) fun v => congrArg Except.ok ?_
    rw [LoweredStmt.shift, instrLines_shift, List.map_append]
    rfl
  | branch condition yes no ihyes ihno =>
    intro c
    have hyes := Stmt.lowerAll_shift_of_forall n k ihyes
    have helse : ∀ c : Counters,
        Stmt.lowerElse no (c.shift n k) = (Stmt.lowerElse no c).map (LoweredStmt.shift n k) := by
      intro c
      cases no with
      | none =>
        rw [Stmt.lowerElse, Stmt.lowerElse]
        rfl
      | some no =>
        rw [Stmt.lowerElse, Stmt.lowerElse]
        exact Stmt.lowerAll_shift_of_forall n k ihno c
    rw [Stmt.lower, Stmt.lower]
    refine bind_eq_map_bind (condition.lower_shift n k c.temporaries) fun test => ?_
    rw [counters_shift]
    refine bind_eq_map_bind (hyes _) fun y => ?_
    refine bind_eq_map_bind (helse y.counters) fun z => congrArg Except.ok ?_
    simp [LoweredStmt.shift, LoweredExpr.shift, instrLines, IR.Line.subst, IR.Instr.subst,
      IR.Substitution.shift, IR.Label.shift, Counters.shift, Nat.add_right_comm]
  | loop condition body ih =>
    intro c
    rw [Stmt.lower, Stmt.lower]
    refine bind_eq_map_bind (condition.lower_shift n k c.temporaries) fun test => ?_
    rw [counters_shift]
    refine bind_eq_map_bind (Stmt.lowerAll_shift_of_forall n k ih _) fun b => congrArg Except.ok ?_
    simp [LoweredStmt.shift, LoweredExpr.shift, instrLines, IR.Line.subst, IR.Instr.subst,
      IR.Substitution.shift, IR.Label.shift, Counters.shift, Nat.add_right_comm]
  | block body ih =>
    intro c
    rw [Stmt.lower, Stmt.lower]
    exact Stmt.lowerAll_shift_of_forall n k ih c

lemma Stmt.lowerAll_shift (body : List Stmt) (c : Counters) :
    Stmt.lowerAll body (c.shift n k) = (Stmt.lowerAll body c).map (LoweredStmt.shift n k) :=
  Stmt.lowerAll_shift_of_forall n k (fun s _ => s.lower_shift n k) c

/-! ## Functions -/

lemma functionLines_shift (slots : List VarDef) (body : List IR.Line) (finalReturn : Bool) :
    (functionLines slots body finalReturn).map (IR.Line.subst (.shift n k)) =
      functionLines slots (body.map (IR.Line.subst (.shift n k))) finalReturn := by
  have hslots : (slots.flatMap VarDef.lower).map (IR.Instr.subst (.shift n k)) =
      slots.flatMap VarDef.lower := by
    rw [List.map_flatMap]
    refine congrArg (fun f => slots.flatMap f) (funext fun d => ?_)
    cases d <;> rfl
  rw [functionLines, functionLines, List.map_append, List.map_append, List.map_append,
    instrLines_shift, hslots]
  cases finalReturn <;> rfl

lemma FunctionDecl.lower_shift (f : FunctionDecl) (finalReturn : Bool) (c : Counters) :
    f.lower finalReturn (c.shift n k) =
      (f.lower finalReturn c).map
        (Prod.map (IR.Function.subst (.shift n k)) (Counters.shift n k)) := by
  rw [FunctionDecl.lower, FunctionDecl.lower]
  refine bind_eq_map_bind (Stmt.lowerAll_shift n k f.body c) fun body => congrArg Except.ok ?_
  have hparams : f.paramList.map (IR.Substitution.shift n k).onName = f.paramList :=
    List.map_id f.paramList
  simp only [Prod.map_apply, IR.Function.subst, functionLines_shift, hparams]
  rfl

/-- Functions that are lowered one after another from higher counters. -/
lemma LowersTo.shift {units : List (FunctionDecl × Bool)} {c c' : Counters}
    {list : List IR.Function} (h : LowersTo units c list c') :
    LowersTo units (c.shift n k) (list.map (IR.Function.subst (.shift n k))) (c'.shift n k) := by
  induction h with
  | nil => exact .nil
  | cons hf _ ih =>
    refine .cons ?_ ih
    rw [FunctionDecl.lower_shift, hf]
    rfl

/-! ## Programs -/

/-- What a program that is a function alone is lowered to: the function, and a body without
lines. -/
lemma FunctionDecl.lower_alone {g : FunctionDecl} {finalReturn : Bool} {m : IR.Module}
    {c : Counters} (h : (g.alone.lower finalReturn).result = .ok (m, c)) :
    ∃ own, g.lower finalReturn { temporaries := 0, labels := 0 } = .ok (own, c) ∧
      m.functions =
        [own, { name := "main", params := [], lines := functionLines [] [] true }] := by
  obtain ⟨list, entry, c₁, hfunctions, hlist, hentry⟩ := Program.exists_entry_of_lower h
  cases hlist with
  | cons hown hnil =>
    cases hnil
    cases hentry
    exact ⟨_, hown, hfunctions⟩

/-- **A function in front shifts the numbers of all that follows**, by what it uses itself. -/
lemma Program.lower_withFunction {g : FunctionDecl} {p : Program} {finalReturn : Bool}
    {m : IR.Module} {c d : Counters} {own : IR.Function}
    (hg : g.lower finalReturn { temporaries := 0, labels := 0 } = .ok (own, d))
    (hp : (p.lower finalReturn).result = .ok (m, c)) :
    ((p.withFunction g).lower finalReturn).result =
      .ok (⟨own :: m.functions.map (IR.Function.subst (.shift d.temporaries d.labels))⟩,
        c.shift d.temporaries d.labels) := by
  obtain ⟨list, entry, c₁, hfunctions, hlist, hentry⟩ := Program.exists_entry_of_lower hp
  have hstart : d = Counters.shift d.temporaries d.labels { temporaries := 0, labels := 0 } := by
    simp [Counters.shift]
  have hrest := hlist.shift d.temporaries d.labels
  rw [← hstart] at hrest
  have hmain : (p.withFunction g).mainDecl.lower true (c₁.shift d.temporaries d.labels) =
      .ok (entry.subst (.shift d.temporaries d.labels), c.shift d.temporaries d.labels) := by
    show p.mainDecl.lower true (c₁.shift d.temporaries d.labels) = _
    rw [FunctionDecl.lower_shift, hentry]
    rfl
  have hall : LowersTo ((p.withFunction g).functions.map fun f => (f, finalReturn))
      { temporaries := 0, labels := 0 } _ _ := .cons hg hrest
  rw [Program.lower_of_lowersTo hall hmain, hfunctions, List.map_append]
  rfl

end DLang
