import DLang.Lowering.Program
import DLang.Proofs.Static.Rules

/-!
# The code that lowering emits

What a successful lowering of a tree is made of, construct by construct.  For expressions that are
annotated, each lemma says which parts were lowered and what was put after their code; for
statements, which labels stand around it.

Two facts about numbers follow by induction.  Lowering an expression uses only temporaries above
those used before it, and its value is in none above those used after it (`Expr.lower_bounds`).
The labels of a lowered statement have numbers above the labels used before it, up to those used
after it (`Stmt.labelsFrom_lower`).
-/

namespace DLang

/-- A result after two steps comes from a result of the first. -/
lemma exists_of_bind_eq_ok {ε α β : Type} {x : Except ε α} {f : α → Except ε β} {b : β}
    (h : x >>= f = .ok b) : ∃ a, x = .ok a ∧ f a = .ok b := by
  cases x with
  | ok a => exact ⟨a, rfl, h⟩
  | error error => cases h

/-! ## Errors of steps -/

section Errors

variable {ε α β : Type}

/-- The error of a result, if it is one. -/
def errorOf : Except ε α → Option ε
  | .ok _ => none
  | .error e => some e

lemma errorOf_eq_some_iff {x : Except ε α} {e : ε} : errorOf x = some e ↔ x = .error e := by
  cases x <;> simp [errorOf]

lemma errorOf_eq_none_iff {x : Except ε α} : errorOf x = none ↔ ∃ a, x = .ok a := by
  cases x <;> simp [errorOf]

/-- The error of two steps is that of the first, or else that of the second. -/
lemma errorOf_bind {x : Except ε α} {next : α → Except ε β} {e : Option ε}
    (h : ∀ a, x = .ok a → errorOf (next a) = e) : errorOf (x >>= next) = (errorOf x).or e := by
  cases x with
  | ok a => exact h a rfl
  | error error => rfl

/-- A second step that cannot fail does not change the error. -/
lemma errorOf_bind_left {x : Except ε α} {next : α → Except ε β}
    (h : ∀ a, x = .ok a → errorOf (next a) = none) : errorOf (x >>= next) = errorOf x := by
  rw [errorOf_bind h, Option.or_none]

/-- A first step that cannot fail leaves the error to the second. -/
lemma errorOf_bind_right {x : Except ε α} {next : α → Except ε β} {e : Option ε}
    (hx : errorOf x = none) (h : ∀ a, x = .ok a → errorOf (next a) = e) :
    errorOf (x >>= next) = e := by
  rw [errorOf_bind h, hx, Option.none_or]

end Errors

/-! ## Expressions -/

variable {Γ : Env}

/-- The annotated type of an expression is there, and it is the expression's type. -/
lemma Expr.requireTy_of_annotated {e : Expr} (h : e.Annotated Γ) :
    e.requireTy = .ok e.typeOf := by
  cases h <;> rfl

section Expressions

variable {name : String} {op : ArithOp} {rel : RelOp} {index left right e : Expr}
  {args : List Expr} {size t : Nat} {lowered : LoweredExpr}

lemma Expr.lower_integer {value : Int32} :
    (Expr.integer value (some .int)).lower t =
      .ok { code := [], value := .constant value, temporaries := t } := by
  rw [Expr.lower]
  rfl

lemma Expr.lower_var :
    (Expr.var name (some (.var name .int)) (some .int)).lower t =
      .ok (emitResult [] t fun into => .load into (.named name)) := by
  rw [Expr.lower]
  rfl

lemma Expr.lower_arg :
    (Expr.var name (some (.arg name .int)) (some .int)).lower t =
      .ok { code := [], value := .register (.named name), temporaries := t } := by
  rw [Expr.lower]
  rfl

lemma Expr.lower_element_inv {symbol : Option Symbol} {ty : Option Ty}
    (h : (Expr.element name index symbol ty).lower t = .ok lowered) :
    ∃ size i indexTy address, requireSize name symbol = .ok size ∧ index.lower t = .ok i ∧
      index.requireTy = .ok indexTy ∧ address = lowerAddress name size i indexTy ∧
      lowered = emitResult address.code address.temporaries fun into =>
        .load into (.temporary address.temporaries) := by
  rw [Expr.lower] at h
  obtain ⟨_, _, h⟩ := exists_of_bind_eq_ok h
  obtain ⟨size, hsize, h⟩ := exists_of_bind_eq_ok h
  obtain ⟨i, hi, h⟩ := exists_of_bind_eq_ok h
  obtain ⟨indexTy, hty, h⟩ := exists_of_bind_eq_ok h
  exact ⟨size, i, indexTy, _, hsize, hi, hty, rfl, (Except.ok.inj h).symm⟩

lemma Expr.exists_of_lower_element (hann : index.Annotated Γ)
    (h : (Expr.element name index (some (.array name .int size)) (some .int)).lower t =
      .ok lowered) :
    ∃ i address, index.lower t = .ok i ∧ address = lowerAddress name size i index.typeOf ∧
      lowered = emitResult address.code address.temporaries fun into =>
        .load into (.temporary address.temporaries) := by
  obtain ⟨_, i, _, address, hsize, hi, hty, haddress, hlowered⟩ := Expr.lower_element_inv h
  cases hsize
  rw [Expr.requireTy_of_annotated hann] at hty
  cases hty
  exact ⟨i, address, hi, haddress, hlowered⟩

lemma Expr.exists_of_lower_arith {ty : Option Ty}
    (h : (Expr.arith op left right ty).lower t = .ok lowered) :
    ∃ l r, left.lower t = .ok l ∧ right.lower l.temporaries = .ok r ∧
      lowered = emitResult (l.code ++ r.code) r.temporaries fun into =>
        .arith into op.opcode l.value r.value := by
  rw [Expr.lower] at h
  obtain ⟨_, _, h⟩ := exists_of_bind_eq_ok h
  obtain ⟨l, hl, h⟩ := exists_of_bind_eq_ok h
  obtain ⟨r, hr, h⟩ := exists_of_bind_eq_ok h
  exact ⟨l, r, hl, hr, (Except.ok.inj h).symm⟩

lemma Expr.lower_compare_inv {ty : Option Ty}
    (h : (Expr.compare rel left right ty).lower t = .ok lowered) :
    ∃ l r leftTy rightTy, left.lower t = .ok l ∧ right.lower l.temporaries = .ok r ∧
      left.requireTy = .ok leftTy ∧ right.requireTy = .ok rightTy ∧
      lowered = lowerComparison rel l leftTy r rightTy := by
  rw [Expr.lower] at h
  obtain ⟨_, _, h⟩ := exists_of_bind_eq_ok h
  obtain ⟨l, hl, h⟩ := exists_of_bind_eq_ok h
  obtain ⟨r, hr, h⟩ := exists_of_bind_eq_ok h
  obtain ⟨leftTy, hleft, h⟩ := exists_of_bind_eq_ok h
  obtain ⟨rightTy, hright, h⟩ := exists_of_bind_eq_ok h
  exact ⟨l, r, leftTy, rightTy, hl, hr, hleft, hright, (Except.ok.inj h).symm⟩

lemma Expr.exists_of_lower_compare (hl : left.Annotated Γ) (hr : right.Annotated Γ)
    (h : (Expr.compare rel left right (some .bool)).lower t = .ok lowered) :
    ∃ l r, left.lower t = .ok l ∧ right.lower l.temporaries = .ok r ∧
      lowered = lowerComparison rel l left.typeOf r right.typeOf := by
  obtain ⟨l, r, _, _, hlower, hlower', hlty, hrty, hlowered⟩ := Expr.lower_compare_inv h
  rw [Expr.requireTy_of_annotated hl] at hlty
  rw [Expr.requireTy_of_annotated hr] at hrty
  cases hlty
  cases hrty
  exact ⟨l, r, hlower, hlower', hlowered⟩

/-- Lowers the arguments of a call; there are none if the list is absent. -/
lemma Expr.exists_of_lower_call {args : Option (List Expr)} {ty : Option Ty}
    (h : (Expr.call name args ty).lower t = .ok lowered) :
    ∃ a, Expr.lowerArgs (args.getD []) t = .ok a ∧
      lowered = emitResult a.code a.temporaries fun into => .call into name a.values := by
  cases args with
  | none =>
    rw [Expr.lower] at h
    obtain ⟨_, _, h⟩ := exists_of_bind_eq_ok h
    refine ⟨{ code := [], values := [], temporaries := t }, ?_, (Except.ok.inj h).symm⟩
    rw [Option.getD_none, Expr.lowerArgs]
    rfl
  | some args =>
    rw [Expr.lower] at h
    obtain ⟨_, _, h⟩ := exists_of_bind_eq_ok h
    obtain ⟨a, ha, h⟩ := exists_of_bind_eq_ok h
    exact ⟨a, ha, (Except.ok.inj h).symm⟩

lemma Expr.lowerArgs_cons_inv {a : LoweredArgs} (h : Expr.lowerArgs (e :: args) t = .ok a) :
    ∃ l ty more, e.lower t = .ok l ∧ e.requireTy = .ok ty ∧
      Expr.lowerArgs args (l.toInt ty).temporaries = .ok more ∧
      a = { code := (l.toInt ty).code ++ more.code
            values := (l.toInt ty).value :: more.values
            temporaries := more.temporaries } := by
  rw [Expr.lowerArgs] at h
  obtain ⟨l, hl, h⟩ := exists_of_bind_eq_ok h
  obtain ⟨ty, hty, h⟩ := exists_of_bind_eq_ok h
  obtain ⟨more, hmore, h⟩ := exists_of_bind_eq_ok h
  exact ⟨l, ty, more, hl, hty, hmore, (Except.ok.inj h).symm⟩

lemma Expr.exists_of_lowerArgs_cons {a : LoweredArgs} (hann : e.Annotated Γ)
    (h : Expr.lowerArgs (e :: args) t = .ok a) :
    ∃ l more, e.lower t = .ok l ∧
      Expr.lowerArgs args (l.toInt e.typeOf).temporaries = .ok more ∧
      a = { code := (l.toInt e.typeOf).code ++ more.code
            values := (l.toInt e.typeOf).value :: more.values
            temporaries := more.temporaries } := by
  obtain ⟨l, _, more, hl, hty, hmore, ha⟩ := Expr.lowerArgs_cons_inv h
  rw [Expr.requireTy_of_annotated hann] at hty
  cases hty
  exact ⟨l, more, hl, hmore, ha⟩

lemma Expr.lowerInt_inv (h : e.lowerInt t = .ok lowered) :
    ∃ l ty, e.lower t = .ok l ∧ e.requireTy = .ok ty ∧ lowered = l.toInt ty := by
  rw [Expr.lowerInt] at h
  obtain ⟨l, hl, h⟩ := exists_of_bind_eq_ok h
  obtain ⟨ty, hty, h⟩ := exists_of_bind_eq_ok h
  exact ⟨l, ty, hl, hty, (Except.ok.inj h).symm⟩

lemma Expr.exists_of_lowerInt (hann : e.Annotated Γ) (h : e.lowerInt t = .ok lowered) :
    ∃ l, e.lower t = .ok l ∧ lowered = l.toInt e.typeOf := by
  obtain ⟨l, _, hl, hty, hlowered⟩ := Expr.lowerInt_inv h
  rw [Expr.requireTy_of_annotated hann] at hty
  cases hty
  exact ⟨l, hl, hlowered⟩

end Expressions

/-! ## Temporaries -/

/-- The operand is no temporary with a number above `t`. -/
def IR.Operand.Below (t : Nat) : IR.Operand → Prop
  | .constant _ => True
  | .register (.named _) => True
  | .register (.temporary number) => number ≤ t

lemma IR.Operand.Below.mono {operand : IR.Operand} {t t' : Nat} (h : operand.Below t)
    (hle : t ≤ t') : operand.Below t' := by
  match operand, h with
  | .constant _, _ => exact trivial
  | .register (.named _), _ => exact trivial
  | .register (.temporary _), hnumber => exact Nat.le_trans hnumber hle

/-- Lowered code that uses temporaries from above `t`, and has its value in one that it counts. -/
structure LoweredExpr.Bounded (t : Nat) (lowered : LoweredExpr) : Prop where
  le : t ≤ lowered.temporaries
  below : lowered.value.Below lowered.temporaries

lemma LoweredExpr.bounded_emitResult {code : List IR.Instr} {instr : Nat → IR.Instr} {t t' : Nat}
    (h : t ≤ t') : (emitResult code t' instr).Bounded t :=
  ⟨Nat.le_succ_of_le h, Nat.le_refl (t' + 1)⟩

lemma LoweredExpr.bounded_toInt {t : Nat} {lowered : LoweredExpr} {ty : Ty}
    (h : lowered.Bounded t) : (lowered.toInt ty).Bounded t := by
  rw [LoweredExpr.toInt]
  cases ty with
  | int => exact ⟨h.le, h.below⟩
  | bool =>
    rw [widenAfter]
    exact LoweredExpr.bounded_emitResult h.le

lemma LoweredExpr.le_widenAfter {code : List IR.Instr} {value : IR.Operand} {ty : Ty} {t : Nat} :
    t ≤ (widenAfter code value ty t).temporaries := by
  cases ty with
  | int => exact Nat.le_refl t
  | bool => exact Nat.le_succ t

lemma LoweredExpr.bounded_lowerAddress {t size : Nat} {name : String} {index : LoweredExpr}
    {ty : Ty} (h : index.Bounded t) : (lowerAddress name size index ty).Bounded t := by
  rw [lowerAddress]
  exact LoweredExpr.bounded_emitResult (LoweredExpr.bounded_toInt h).le

lemma LoweredExpr.bounded_lowerComparison {t : Nat} {op : RelOp} {l r : LoweredExpr} {lty rty : Ty}
    (h : t ≤ r.temporaries) : (lowerComparison op l lty r rty).Bounded t := by
  rw [lowerComparison]
  split
  · exact LoweredExpr.bounded_emitResult h
  · refine LoweredExpr.bounded_emitResult ?_
    exact Nat.le_trans h (Nat.le_trans LoweredExpr.le_widenAfter LoweredExpr.le_widenAfter)

lemma Expr.le_of_lowerArgs {args : List Expr} (hann : ∀ e ∈ args, e.Annotated Γ)
    (h : ∀ e ∈ args, ∀ t l, e.lower t = .ok l → l.Bounded t) :
    ∀ t a, Expr.lowerArgs args t = .ok a → t ≤ a.temporaries := by
  induction args with
  | nil =>
    intro t a ha
    rw [Expr.lowerArgs] at ha
    cases ha
    exact Nat.le_refl t
  | cons e rest ih =>
    intro t a ha
    obtain ⟨l, more, hl, hmore, rfl⟩ := Expr.exists_of_lowerArgs_cons (hann e List.mem_cons_self) ha
    have hfirst : (l.toInt e.typeOf).Bounded t :=
      LoweredExpr.bounded_toInt (h e List.mem_cons_self t l hl)
    have hrest := ih (fun d hd => hann d (List.mem_cons_of_mem e hd))
      (fun d hd => h d (List.mem_cons_of_mem e hd)) _ more hmore
    exact Nat.le_trans hfirst.le hrest

/-- Lowering an expression uses temporaries above those used before it. -/
lemma Expr.lower_bounds {e : Expr} (hann : e.Annotated Γ) :
    ∀ t l, e.lower t = .ok l → l.Bounded t := by
  induction hann with
  | integer =>
    intro t l h
    rw [Expr.lower_integer] at h
    cases h
    exact ⟨Nat.le_refl t, trivial⟩
  | @var name symbol hscalar =>
    intro t l h
    rcases hscalar.2 with rfl | rfl
    · rw [Expr.lower_var] at h
      cases h
      exact LoweredExpr.bounded_emitResult (Nat.le_refl t)
    · rw [Expr.lower_arg] at h
      cases h
      exact ⟨Nat.le_refl t, trivial⟩
  | @element name index symbol harray hindex _ ih =>
    intro t l h
    obtain ⟨_, size, rfl⟩ := harray
    obtain ⟨i, address, hi, rfl, rfl⟩ := Expr.exists_of_lower_element hindex h
    exact LoweredExpr.bounded_emitResult (LoweredExpr.bounded_lowerAddress (ih t i hi)).le
  | arith _ _ _ _ ihl ihr =>
    intro t lowered h
    obtain ⟨l, r, hl, hr, rfl⟩ := Expr.exists_of_lower_arith h
    exact LoweredExpr.bounded_emitResult (Nat.le_trans (ihl t l hl).le (ihr _ r hr).le)
  | compare hl hr ihl ihr =>
    intro t lowered h
    obtain ⟨l, r, hlower, hlower', rfl⟩ := Expr.exists_of_lower_compare hl hr h
    exact LoweredExpr.bounded_lowerComparison
      (Nat.le_trans (ihl t l hlower).le (ihr _ r hlower').le)
  | call _ hargs ih =>
    intro t lowered h
    obtain ⟨a, ha, rfl⟩ := Expr.exists_of_lower_call h
    exact LoweredExpr.bounded_emitResult (Expr.le_of_lowerArgs hargs ih t a ha)

/-! ## Labels -/

/-- The labels among the lines are numbered, with numbers above `a` and up to `b`. -/
def LabelsWithin (a b : Nat) (lines : List IR.Line) : Prop :=
  ∀ label, IR.Line.label label ∈ lines → ∃ mark number, label = .numbered mark number ∧
    a < number ∧ number ≤ b

namespace LabelsWithin

variable {a b c : Nat} {lines lines' : List IR.Line}

lemma nil : LabelsWithin a b [] :=
  fun _ h => nomatch h

lemma instrs (code : List IR.Instr) : LabelsWithin a b (instrLines code) := by
  intro label h
  obtain ⟨instr, _, heq⟩ := List.mem_map.1 h
  cases heq

lemma instr {i : IR.Instr} (h : LabelsWithin a b lines) : LabelsWithin a b (.instr i :: lines) := by
  intro found hmem
  rcases List.mem_cons.1 hmem with heq | hmem
  · cases heq
  · exact h found hmem

lemma label {mark : IR.Mark} {number : Nat} (hlower : a < number) (hupper : number ≤ b)
    (h : LabelsWithin a b lines) :
    LabelsWithin a b (.label (.numbered mark number) :: lines) := by
  intro found hmem
  rcases List.mem_cons.1 hmem with heq | hmem
  · cases heq
    exact ⟨mark, number, rfl, hlower, hupper⟩
  · exact h found hmem

lemma append (h : LabelsWithin a b lines) (h' : LabelsWithin a b lines') :
    LabelsWithin a b (lines ++ lines') := by
  intro found hmem
  rcases List.mem_append.1 hmem with hmem | hmem
  · exact h found hmem
  · exact h' found hmem

lemma mono {a' b' : Nat} (h : LabelsWithin a b lines) (ha : a' ≤ a) (hb : b ≤ b') :
    LabelsWithin a' b' lines := by
  intro found hmem
  obtain ⟨mark, number, heq, hlower, hupper⟩ := h found hmem
  exact ⟨mark, number, heq, by omega, by omega⟩

end LabelsWithin

/-! ## Statements -/

section Statements

variable {c : Counters} {lowered : LoweredStmt} {value condition : Expr} {body yes : List Stmt}

lemma Stmt.exists_of_lower_assign {target : Target} {targetTy ty : Option Ty}
    (h : (Stmt.assign target value targetTy ty).lower c = .ok lowered) :
    ∃ v stored, value.lowerInt c.temporaries = .ok v ∧ target.lowerStore v = .ok stored ∧
      lowered = { code := instrLines stored.code
                  counters := { c with temporaries := stored.temporaries } } := by
  rw [Stmt.lower] at h
  obtain ⟨v, hv, h⟩ := exists_of_bind_eq_ok h
  obtain ⟨stored, hstored, h⟩ := exists_of_bind_eq_ok h
  exact ⟨v, stored, hv, hstored, (Except.ok.inj h).symm⟩

lemma Target.lowerStore_element_inv {name : String} {index : Expr} {symbol : Option Symbol}
    {v stored : LoweredExpr} (h : (Target.element name index symbol).lowerStore v = .ok stored) :
    ∃ size i ty, requireSize name symbol = .ok size ∧ index.lower v.temporaries = .ok i ∧
      index.requireTy = .ok ty ∧
      stored = { lowerAddress name size i ty with
        code := v.code ++ (lowerAddress name size i ty).code ++
          [.store v.value (.temporary (lowerAddress name size i ty).temporaries)] } := by
  rw [Target.lowerStore] at h
  obtain ⟨size, hsize, h⟩ := exists_of_bind_eq_ok h
  obtain ⟨i, hi, h⟩ := exists_of_bind_eq_ok h
  obtain ⟨ty, hty, h⟩ := exists_of_bind_eq_ok h
  exact ⟨size, i, ty, hsize, hi, hty, (Except.ok.inj h).symm⟩

lemma Target.exists_of_lowerStore_element {name : String} {index : Expr} {size : Nat}
    {v stored : LoweredExpr} (hann : index.Annotated Γ)
    (h : (Target.element name index (some (.array name .int size))).lowerStore v = .ok stored) :
    ∃ i, index.lower v.temporaries = .ok i ∧
      stored = { lowerAddress name size i index.typeOf with
        code := v.code ++ (lowerAddress name size i index.typeOf).code ++
          [.store v.value (.temporary (lowerAddress name size i index.typeOf).temporaries)] } := by
  obtain ⟨_, i, _, hsize, hi, hty, hstored⟩ := Target.lowerStore_element_inv h
  cases hsize
  rw [Expr.requireTy_of_annotated hann] at hty
  cases hty
  exact ⟨i, hi, hstored⟩

/-- Only a variable has a slot, and the slot has its name. -/
lemma eq_of_requireSlot {name slot : String} {symbol : Option Symbol}
    (h : requireSlot name symbol = .ok slot) :
    slot = name ∧ ∃ found ty, symbol = some (.var found ty) := by
  unfold requireSlot at h
  split at h <;> cases h
  exact ⟨rfl, _, _, rfl⟩

lemma Target.lowerStore_var_inv {name : String} {symbol : Option Symbol} {v stored : LoweredExpr}
    (h : (Target.var name symbol).lowerStore v = .ok stored) :
    (∃ found ty, symbol = some (.var found ty)) ∧
      stored = { v with code := v.code ++ [.store v.value (.named name)] } := by
  rw [Target.lowerStore] at h
  obtain ⟨slot, hslot, hstored⟩ := exists_of_bind_eq_ok h
  obtain ⟨rfl, hsymbol⟩ := eq_of_requireSlot hslot
  exact ⟨hsymbol, (Except.ok.inj hstored).symm⟩

lemma Stmt.exists_of_lower_print (h : (Stmt.print value).lower c = .ok lowered) :
    ∃ v, value.lowerInt c.temporaries = .ok v ∧
      lowered = { code := instrLines (v.code ++ [.print (v.temporaries + 1) v.value])
                  counters := { c with temporaries := v.temporaries + 1 } } := by
  rw [Stmt.lower] at h
  obtain ⟨v, hv, h⟩ := exists_of_bind_eq_ok h
  exact ⟨v, hv, (Except.ok.inj h).symm⟩

lemma Stmt.exists_of_lower_read {name : String} {symbol : Option Symbol}
    (h : (Stmt.read name symbol).lower c = .ok lowered) :
    ∃ slot, requireSlot name symbol = .ok slot ∧
      lowered = { code := instrLines [.read (c.temporaries + 1) slot]
                  counters := { c with temporaries := c.temporaries + 1 } } := by
  rw [Stmt.lower] at h
  obtain ⟨slot, hslot, h⟩ := exists_of_bind_eq_ok h
  exact ⟨slot, hslot, (Except.ok.inj h).symm⟩

lemma Stmt.exists_of_lower_ret (h : (Stmt.ret value).lower c = .ok lowered) :
    ∃ v, value.lowerInt c.temporaries = .ok v ∧
      lowered = { code := instrLines (v.code ++ [.ret v.value])
                  counters := { c with temporaries := v.temporaries } } := by
  rw [Stmt.lower] at h
  obtain ⟨v, hv, h⟩ := exists_of_bind_eq_ok h
  exact ⟨v, hv, (Except.ok.inj h).symm⟩

lemma Stmt.lowerElse_eq_lowerAll (no : Option (List Stmt)) (c : Counters) :
    Stmt.lowerElse no c = Stmt.lowerAll (no.getD []) c := by
  cases no with
  | none =>
    rw [Stmt.lowerElse, Option.getD_none, Stmt.lowerAll]
  | some no =>
    rw [Stmt.lowerElse, Option.getD_some]

/-- The lines of a branch whose three labels have the numbers after `k`. -/
def branchLines (k : Nat) (test : LoweredExpr) (yes no : List IR.Line) : List IR.Line :=
  instrLines test.code ++
    .instr (.branch test.value (.numbered .branchTrue (k + 1)) (.numbered .branchFalse (k + 2))) ::
    .label (.numbered .branchTrue (k + 1)) :: (yes ++
    .instr (.jump (.numbered .branchEnd (k + 3))) ::
    .label (.numbered .branchFalse (k + 2)) :: (no ++
    [.instr (.jump (.numbered .branchEnd (k + 3))), .label (.numbered .branchEnd (k + 3))]))

/-- The lines of a loop from its test on, whose three labels have the numbers after `k`. -/
def loopLines (k : Nat) (test : LoweredExpr) (body : List IR.Line) : List IR.Line :=
  instrLines test.code ++
    .instr (.branch test.value (.numbered .loopBody (k + 2)) (.numbered .loopEnd (k + 3))) ::
    .label (.numbered .loopBody (k + 2)) :: (body ++
    [.instr (.jump (.numbered .loopHead (k + 1))), .label (.numbered .loopEnd (k + 3))])

lemma Stmt.exists_of_lower_branch {no : Option (List Stmt)}
    (h : (Stmt.branch condition yes no).lower c = .ok lowered) :
    ∃ test y n, condition.lower c.temporaries = .ok test ∧
      Stmt.lowerAll yes { temporaries := test.temporaries, labels := c.labels + 3 } = .ok y ∧
      Stmt.lowerAll (no.getD []) y.counters = .ok n ∧
      lowered = { code := branchLines c.labels test y.code n.code, counters := n.counters } := by
  rw [Stmt.lower] at h
  obtain ⟨test, htest, h⟩ := exists_of_bind_eq_ok h
  obtain ⟨y, hy, h⟩ := exists_of_bind_eq_ok h
  obtain ⟨n, hn, h⟩ := exists_of_bind_eq_ok h
  rw [Stmt.lowerElse_eq_lowerAll] at hn
  refine ⟨test, y, n, htest, hy, hn, ?_⟩
  rw [← Except.ok.inj h]
  simp [branchLines, instrLines]

lemma Stmt.exists_of_lower_loop (h : (Stmt.loop condition body).lower c = .ok lowered) :
    ∃ test b, condition.lower c.temporaries = .ok test ∧
      Stmt.lowerAll body { temporaries := test.temporaries, labels := c.labels + 3 } = .ok b ∧
      lowered = { code := .instr (.jump (.numbered .loopHead (c.labels + 1))) ::
                    .label (.numbered .loopHead (c.labels + 1)) ::
                    loopLines c.labels test b.code
                  counters := b.counters } := by
  rw [Stmt.lower] at h
  obtain ⟨test, htest, h⟩ := exists_of_bind_eq_ok h
  obtain ⟨b, hb, h⟩ := exists_of_bind_eq_ok h
  refine ⟨test, b, htest, hb, ?_⟩
  rw [← Except.ok.inj h]
  simp [loopLines, instrLines]

lemma Stmt.exists_of_lowerAll_cons {s : Stmt} {rest : List Stmt}
    (h : Stmt.lowerAll (s :: rest) c = .ok lowered) :
    ∃ first more, s.lower c = .ok first ∧ Stmt.lowerAll rest first.counters = .ok more ∧
      lowered = { code := first.code ++ more.code, counters := more.counters } := by
  rw [Stmt.lowerAll] at h
  obtain ⟨first, hfirst, h⟩ := exists_of_bind_eq_ok h
  obtain ⟨more, hmore, h⟩ := exists_of_bind_eq_ok h
  exact ⟨first, more, hfirst, hmore, (Except.ok.inj h).symm⟩

end Statements

/-- Lowered lines whose labels have the numbers counted from `c` on. -/
structure LoweredStmt.LabelsFrom (c : Counters) (lowered : LoweredStmt) : Prop where
  le : c.labels ≤ lowered.counters.labels
  within : LabelsWithin c.labels lowered.counters.labels lowered.code

lemma Stmt.labelsFrom_lowerAll {body : List Stmt}
    (h : ∀ s ∈ body, ∀ c l, s.lower c = .ok l → l.LabelsFrom c) :
    ∀ c l, Stmt.lowerAll body c = .ok l → l.LabelsFrom c := by
  induction body with
  | nil =>
    intro c l hl
    rw [Stmt.lowerAll] at hl
    cases hl
    exact ⟨Nat.le_refl _, .nil⟩
  | cons s rest ih =>
    intro c l hl
    obtain ⟨first, more, hfirst, hmore, rfl⟩ := Stmt.exists_of_lowerAll_cons hl
    have hs := h s List.mem_cons_self c first hfirst
    have hrest := ih (fun d hd => h d (List.mem_cons_of_mem s hd)) _ more hmore
    refine ⟨Nat.le_trans hs.le hrest.le, ?_⟩
    exact (hs.within.mono (Nat.le_refl _) hrest.le).append (hrest.within.mono hs.le (Nat.le_refl _))

/-- The labels of a lowered statement are numbered from above those used before it. -/
lemma Stmt.labelsFrom_lower (s : Stmt) : ∀ c l, s.lower c = .ok l → l.LabelsFrom c := by
  induction s with
  | assign target value targetTy ty =>
    intro c l h
    obtain ⟨v, stored, _, _, rfl⟩ := Stmt.exists_of_lower_assign h
    exact ⟨Nat.le_refl _, .instrs _⟩
  | print value =>
    intro c l h
    obtain ⟨v, _, rfl⟩ := Stmt.exists_of_lower_print h
    exact ⟨Nat.le_refl _, .instrs _⟩
  | read name symbol =>
    intro c l h
    obtain ⟨slot, _, rfl⟩ := Stmt.exists_of_lower_read h
    exact ⟨Nat.le_refl _, .instrs _⟩
  | ret value =>
    intro c l h
    obtain ⟨v, _, rfl⟩ := Stmt.exists_of_lower_ret h
    exact ⟨Nat.le_refl _, .instrs _⟩
  | branch condition yes no ihyes ihno =>
    intro c l h
    obtain ⟨test, y, n, _, hy, hn, rfl⟩ := Stmt.exists_of_lower_branch h
    have hyes := Stmt.labelsFrom_lowerAll ihyes _ y hy
    have hno := Stmt.labelsFrom_lowerAll ihno _ n hn
    have hthree : c.labels + 3 ≤ y.counters.labels := hyes.le
    have hle : y.counters.labels ≤ n.counters.labels := hno.le
    refine ⟨by show c.labels ≤ n.counters.labels; omega, ?_⟩
    show LabelsWithin c.labels n.counters.labels _
    have hy : LabelsWithin c.labels n.counters.labels y.code :=
      hyes.within.mono (by show c.labels ≤ c.labels + 3; omega) hle
    have hn : LabelsWithin c.labels n.counters.labels n.code :=
      hno.within.mono (by omega) (Nat.le_refl _)
    refine (LabelsWithin.instrs _).append (.instr (.label (by omega) (by omega) ?_))
    refine hy.append (.instr (.label (by omega) (by omega) ?_))
    exact hn.append (.instr (.label (by omega) (by omega) .nil))
  | loop condition body ih =>
    intro c l h
    obtain ⟨test, b, _, hb, rfl⟩ := Stmt.exists_of_lower_loop h
    have hbody := Stmt.labelsFrom_lowerAll ih _ b hb
    have hthree : c.labels + 3 ≤ b.counters.labels := hbody.le
    refine ⟨by show c.labels ≤ b.counters.labels; omega, ?_⟩
    show LabelsWithin c.labels b.counters.labels _
    have hb : LabelsWithin c.labels b.counters.labels b.code :=
      hbody.within.mono (by show c.labels ≤ c.labels + 3; omega) (Nat.le_refl _)
    refine .instr (.label (by omega) (by omega) ?_)
    refine (LabelsWithin.instrs _).append (.instr (.label (by omega) (by omega) ?_))
    exact hb.append (.instr (.label (by omega) (by omega) .nil))
  | block body ih =>
    intro c l h
    rw [Stmt.lower] at h
    exact Stmt.labelsFrom_lowerAll ih c l h

end DLang
