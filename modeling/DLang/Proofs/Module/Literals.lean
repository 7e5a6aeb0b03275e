import DLang.Proofs.Grammar.Literals
import DLang.Proofs.Module.Registers

/-!
# The numbers of lowered code

The integers of a body come out of lowering as operands, each as often as the body has it, and the
only others are the zeros that variables start from and that a function returns at its end
(`FunctionDecl.figures_of_lower`).  They do not come out in order, since `3 * (1 + 2)` adds before
it multiplies, so lists are compared up to their order.

The length of an array stands where the array is reserved and where the address of an element is
taken.  It goes there by two ways, from the declaration and from the symbol of an element.  That
these agree is what `IR.Function.WellTyped` says of the array's register.
-/

namespace DLang

/-! ## Figures of lowered code -/

namespace IR

/-- The integer that an operand spells out. -/
def Operand.figures : Operand → List Figure
  | constant value => [.literal value]
  | register _ => []

/-- The integers that an instruction spells out, and the array of the element whose address it
takes. -/
def Instr.figures : Instr → List Figure
  | elementAddress _ _ array index => .element array :: index.figures
  | i => i.operands.flatMap fun operand => operand.1.figures

/-- The figures of a line. -/
def Line.figures : Line → List Figure
  | label _ => []
  | instr i => i.figures

end IR

/-- The figures of the code of a lowered expression, and the one that its value is for the code that
follows. -/
def LoweredExpr.figures (lowered : LoweredExpr) : List Figure :=
  lowered.code.flatMap IR.Instr.figures ++ lowered.value.figures

namespace LoweredExpr

variable {code : List IR.Instr} {value : IR.Operand} {t : Nat}

lemma figures_emitResult (instr : Nat → IR.Instr) :
    (emitResult code t instr).figures =
      code.flatMap IR.Instr.figures ++ (instr (t + 1)).figures := by
  rw [LoweredExpr.figures, emitResult, List.flatMap_append, List.flatMap_singleton]
  exact List.append_nil _

/-- Widening a value adds no figure. -/
lemma figures_widenAfter (ty : Ty) :
    (widenAfter code value ty t).figures = code.flatMap IR.Instr.figures ++ value.figures := by
  cases ty with
  | int => rfl
  | bool =>
    rw [widenAfter, figures_emitResult]
    simp [IR.Instr.figures, IR.Instr.operands]

lemma figures_toInt (lowered : LoweredExpr) (ty : Ty) :
    (lowered.toInt ty).figures = lowered.figures :=
  figures_widenAfter ty

lemma figures_lowerAddress (name : String) (size : Nat) (index : LoweredExpr) (ty : Ty) :
    (lowerAddress name size index ty).figures.Perm (.element name :: index.figures) := by
  rw [lowerAddress, figures_emitResult, ← index.figures_toInt ty]
  exact List.perm_middle

lemma figures_lowerComparison (op : RelOp) (l r : LoweredExpr) (lty rty : Ty) :
    (lowerComparison op l lty r rty).figures.Perm (l.figures ++ r.figures) := by
  rw [lowerComparison]
  split
  · rw [figures_emitResult, List.perm_iff_count]
    intro figure
    simp only [LoweredExpr.figures, IR.Instr.figures, IR.Instr.operands, List.flatMap_append,
      List.flatMap_cons, List.flatMap_nil, List.count_append, List.count_nil]
    omega
  · -- The first is widened before the second, and its figure is left for the comparison.
    dsimp only
    have hleft : (widenAfter (l.code ++ r.code) l.value lty r.temporaries).figures =
        (l.code ++ r.code).flatMap IR.Instr.figures ++ l.value.figures := figures_widenAfter lty
    generalize widenAfter (l.code ++ r.code) l.value lty r.temporaries = left at hleft ⊢
    have hright : (widenAfter left.code r.value rty left.temporaries).figures =
        left.code.flatMap IR.Instr.figures ++ r.value.figures := figures_widenAfter rty
    generalize widenAfter left.code r.value rty left.temporaries = right at hright ⊢
    rw [figures_emitResult, List.perm_iff_count]
    intro figure
    have hcount := congrArg (List.count figure) hleft
    have hcount' := congrArg (List.count figure) hright
    simp only [LoweredExpr.figures, IR.Instr.figures, IR.Instr.operands, List.flatMap_append,
      List.flatMap_cons, List.flatMap_nil, List.count_append, List.count_nil] at hcount hcount' ⊢
    omega

end LoweredExpr

lemma Expr.figures_lowerArgs {args : List Expr}
    (h : ∀ e ∈ args, ∀ t l, e.lower t = .ok l → l.figures.Perm e.figures) :
    ∀ t a, Expr.lowerArgs args t = .ok a →
      (a.code.flatMap IR.Instr.figures ++ a.values.flatMap IR.Operand.figures).Perm
        (Expr.figuresAll args) := by
  induction args with
  | nil =>
    intro t a ha
    rw [Expr.lowerArgs] at ha
    cases ha
    exact .nil
  | cons e rest ih =>
    intro t a ha
    obtain ⟨l, ty, more, hl, _, hmore, rfl⟩ := Expr.lowerArgs_cons_inv ha
    have hfirst := h e List.mem_cons_self t l hl
    have hrest := ih (fun d hd => h d (List.mem_cons_of_mem e hd)) _ more hmore
    rw [← l.figures_toInt ty] at hfirst
    rw [List.perm_iff_count] at hfirst hrest ⊢
    intro figure
    have hcount := hfirst figure
    have hcount' := hrest figure
    simp only [LoweredExpr.figures, Expr.figuresAll, List.flatMap_append, List.flatMap_cons,
      List.count_append] at hcount hcount' ⊢
    omega

/-- The figures of a lowered expression are those of the expression. -/
lemma Expr.figures_lower (e : Expr) : ∀ t l, e.lower t = .ok l → l.figures.Perm e.figures := by
  induction e with
  | integer value ty =>
    intro t l h
    rw [Expr.lower] at h
    obtain ⟨_, _, h⟩ := exists_of_bind_eq_ok h
    cases h
    exact .refl _
  | var name symbol ty =>
    intro t l h
    rw [Expr.lower] at h
    obtain ⟨_, _, h⟩ := exists_of_bind_eq_ok h
    unfold lowerVariable at h
    split at h
    · cases h
      exact .nil
    · cases h
      exact .nil
    · cases h
  | element name index symbol ty ih =>
    intro t l h
    obtain ⟨size, i, indexTy, _, _, hi, _, rfl, rfl⟩ := Expr.lower_element_inv h
    have haddress := (LoweredExpr.figures_lowerAddress name size i indexTy).trans
      ((ih t i hi).cons (.element name))
    rw [LoweredExpr.figures_emitResult]
    exact haddress
  | arith op left right ty ihl ihr =>
    intro t lowered h
    obtain ⟨l, r, hl, hr, rfl⟩ := Expr.exists_of_lower_arith h
    rw [LoweredExpr.figures_emitResult, List.perm_iff_count]
    intro figure
    have hleft := (ihl t l hl).count_eq figure
    have hright := (ihr _ r hr).count_eq figure
    simp only [LoweredExpr.figures, Expr.figures, IR.Instr.figures, IR.Instr.operands,
      List.flatMap_append, List.flatMap_cons, List.flatMap_nil, List.count_append,
      List.count_nil] at hleft hright ⊢
    omega
  | compare op left right ty ihl ihr =>
    intro t lowered h
    obtain ⟨l, r, _, _, hl, hr, _, _, rfl⟩ := Expr.lower_compare_inv h
    exact (LoweredExpr.figures_lowerComparison ..).trans ((ihl t l hl).append (ihr _ r hr))
  | call name args ty ih =>
    intro t lowered h
    obtain ⟨a, ha, rfl⟩ := Expr.exists_of_lower_call h
    have hargs := Expr.figures_lowerArgs ih t a ha
    rw [LoweredExpr.figures_emitResult, Expr.figures_call]
    simpa [IR.Instr.figures, IR.Instr.operands, List.flatMap_map] using hargs

lemma Expr.figures_lowerInt {e : Expr} {t : Nat} {v : LoweredExpr} (h : e.lowerInt t = .ok v) :
    v.figures.Perm e.figures := by
  obtain ⟨l, ty, hl, _, rfl⟩ := Expr.lowerInt_inv h
  rw [l.figures_toInt]
  exact e.figures_lower t l hl

/-! ## Figures of lowered statements -/

lemma figures_instrLines (code : List IR.Instr) :
    (instrLines code).flatMap IR.Line.figures = code.flatMap IR.Instr.figures := by
  rw [instrLines, List.flatMap_map]
  rfl

lemma Target.figures_lowerStore {target : Target} {v stored : LoweredExpr}
    (h : target.lowerStore v = .ok stored) :
    ((instrLines stored.code).flatMap IR.Line.figures).Perm (target.figures ++ v.figures) := by
  rw [figures_instrLines]
  cases target with
  | var name symbol =>
    obtain ⟨_, rfl⟩ := Target.lowerStore_var_inv h
    simp [LoweredExpr.figures, Target.figures, IR.Instr.figures, IR.Instr.operands,
      IR.Operand.figures]
  | element name index symbol =>
    obtain ⟨size, i, ty, _, hi, _, rfl⟩ := Target.lowerStore_element_inv h
    have haddress := (LoweredExpr.figures_lowerAddress name size i ty).trans
      ((index.figures_lower _ i hi).cons (.element name))
    have hvalue : (lowerAddress name size i ty).value.figures = [] := rfl
    rw [LoweredExpr.figures, hvalue, List.append_nil] at haddress
    rw [List.perm_iff_count]
    intro figure
    have hcount := haddress.count_eq figure
    simp only [LoweredExpr.figures, Target.figures, IR.Instr.figures, IR.Instr.operands,
      IR.Operand.figures, List.flatMap_append, List.flatMap_cons, List.flatMap_nil,
      List.count_append, List.count_nil] at hcount ⊢
    omega

lemma Stmt.figures_lowerAll {body : List Stmt}
    (h : ∀ s ∈ body, ∀ c l, s.lower c = .ok l → (l.code.flatMap IR.Line.figures).Perm s.figures) :
    ∀ c l, Stmt.lowerAll body c = .ok l →
      (l.code.flatMap IR.Line.figures).Perm (Stmt.figuresAll body) := by
  induction body with
  | nil =>
    intro c l hl
    rw [Stmt.lowerAll] at hl
    cases hl
    exact .nil
  | cons s rest ih =>
    intro c l hl
    obtain ⟨first, more, hfirst, hmore, rfl⟩ := Stmt.exists_of_lowerAll_cons hl
    have hs := h s List.mem_cons_self c first hfirst
    have hrest := ih (fun d hd => h d (List.mem_cons_of_mem s hd)) _ more hmore
    rw [Stmt.figuresAll, List.flatMap_append]
    exact hs.append hrest

/-- The figures of a lowered statement are those of the statement. -/
lemma Stmt.figures_lower (s : Stmt) :
    ∀ c l, s.lower c = .ok l → (l.code.flatMap IR.Line.figures).Perm s.figures := by
  induction s with
  | assign target value targetTy ty =>
    intro c l h
    obtain ⟨v, stored, hv, hstored, rfl⟩ := Stmt.exists_of_lower_assign h
    have hvalue := (Expr.figures_lowerInt hv).append_left target.figures
    exact (Target.figures_lowerStore hstored).trans hvalue
  | print value =>
    intro c l h
    obtain ⟨v, hv, rfl⟩ := Stmt.exists_of_lower_print h
    rw [figures_instrLines]
    simpa [LoweredExpr.figures, IR.Instr.figures, IR.Instr.operands, Stmt.figures]
      using Expr.figures_lowerInt hv
  | read name symbol =>
    intro c l h
    obtain ⟨slot, _, rfl⟩ := Stmt.exists_of_lower_read h
    exact .nil
  | ret value =>
    intro c l h
    obtain ⟨v, hv, rfl⟩ := Stmt.exists_of_lower_ret h
    rw [figures_instrLines]
    simpa [LoweredExpr.figures, IR.Instr.figures, IR.Instr.operands, Stmt.figures]
      using Expr.figures_lowerInt hv
  | branch condition yes no ihyes ihno =>
    intro c l h
    obtain ⟨test, y, n, htest, hy, hn, rfl⟩ := Stmt.exists_of_lower_branch h
    have hcondition := condition.figures_lower _ test htest
    have hbodies := (Stmt.figures_lowerAll ihyes _ y hy).append (Stmt.figures_lowerAll ihno _ n hn)
    rw [Stmt.figures_branch, branchLines]
    simpa [LoweredExpr.figures, IR.Line.figures, IR.Instr.figures, IR.Instr.operands,
      figures_instrLines] using hcondition.append hbodies
  | loop condition body ih =>
    intro c l h
    obtain ⟨test, b, htest, hb, rfl⟩ := Stmt.exists_of_lower_loop h
    have hcondition := condition.figures_lower _ test htest
    have hbody := Stmt.figures_lowerAll ih _ b hb
    rw [Stmt.figures, loopLines]
    simpa [LoweredExpr.figures, IR.Line.figures, IR.Instr.figures, IR.Instr.operands,
      figures_instrLines] using hcondition.append hbody
  | block body ih =>
    intro c l h
    rw [Stmt.lower] at h
    exact Stmt.figures_lowerAll ih c l h

/-! ## Functions -/

/-- An array with its length. -/
def VarDef.array? : VarDef → Option (String × Nat)
  | scalar _ => none
  | array name size => some (name, size)

/-- The arrays that a function declares, with their lengths. -/
def FunctionDecl.arrays (f : FunctionDecl) : List (String × Nat) :=
  f.localList.filterMap VarDef.array?

/-- The zeros that lowering adds to a function: one for each variable, and one for its final
return. -/
def FunctionDecl.zeros (finalReturn : Bool) (f : FunctionDecl) : Nat :=
  f.localList.countP (fun d => d.array?.isNone) + if finalReturn then 1 else 0

lemma figures_slots (slots : List VarDef) :
    (slots.flatMap VarDef.lower).flatMap IR.Instr.figures =
      List.replicate (slots.countP fun d => d.array?.isNone) (.literal 0) := by
  induction slots with
  | nil => rfl
  | cons d rest ih =>
    rw [List.flatMap_cons, List.flatMap_append, ih]
    cases d with
    | scalar name =>
      rw [List.countP_cons_of_pos rfl, List.replicate_succ]
      rfl
    | array name size =>
      rw [List.countP_cons_of_neg (by simp [VarDef.array?])]
      rfl

/-- A lowered function spells out the integers of its body, and zeros. -/
lemma FunctionDecl.figures_of_lower {f : FunctionDecl} {finalReturn : Bool} {c c' : Counters}
    {g : IR.Function} (h : f.lower finalReturn c = .ok (g, c')) :
    (g.lines.flatMap IR.Line.figures).Perm
      (Stmt.figuresAll f.body ++ List.replicate (f.zeros finalReturn) (.literal 0)) := by
  obtain ⟨l, hl, _, rfl⟩ := FunctionDecl.lower_inv h
  have hbody := Stmt.figures_lowerAll (fun s _ => s.figures_lower) c l hl
  have hlast : (if finalReturn then [IR.Line.instr (.ret (.constant 0))] else []).flatMap
      IR.Line.figures = List.replicate (if finalReturn then 1 else 0) (.literal 0) := by
    cases finalReturn <;> rfl
  rw [functionLines, List.flatMap_append, List.flatMap_append, List.flatMap_append, hlast,
    figures_instrLines, figures_slots, FunctionDecl.zeros, List.replicate_add, List.perm_iff_count]
  intro figure
  have hcount := hbody.count_eq figure
  have hlabel : [IR.Line.label .entry].flatMap IR.Line.figures = [] := rfl
  simp only [hlabel, List.count_append, List.count_nil]
  omega

namespace IR

/-- The array that a line reserves. -/
def Line.reserved? : Line → Option (String × Nat)
  | instr (.reserveArray slot size) => some (slot, size)
  | _ => none

/-- The array whose address a register holds. -/
def arrayRegister? : Register × ValueType → Option (String × Nat)
  | (.named name, .arrayAddress size) => some (name, size)
  | _ => none

lemma filterMap_reserved? (lines : List Line) :
    lines.filterMap Line.reserved? = (definitions lines).filterMap arrayRegister? := by
  rw [definitions, List.filterMap_filterMap]
  refine List.filterMap_congr fun line _ => ?_
  cases line with
  | label l => rfl
  | instr i => cases i <;> rfl

variable {g : Function} {style : PointerStyle}

/-- The address of an element is taken in an array that is reserved with the same length. -/
lemma Function.WellTyped.mem_reserved (hg : g.WellTyped style) {into size : Nat} {array : String}
    {index : Operand} (hi : .instr (.elementAddress into size array index) ∈ g.lines) :
    (array, size) ∈ g.lines.filterMap Line.reserved? := by
  have hregister := hg.register _ hi (.named array) (.arrayAddress size) List.mem_cons_self
  rw [filterMap_reserved?]
  rcases List.mem_append.1 hregister with hparam | hdefined
  · obtain ⟨param, _, heq⟩ := List.mem_map.1 hparam
    cases heq
  · exact List.mem_filterMap.2 ⟨_, hdefined, rfl⟩

/-- No array is reserved with two lengths. -/
lemma Function.WellTyped.eq_of_mem_reserved (hg : g.WellTyped style) {array : String}
    {size size' : Nat} (h : (array, size) ∈ g.lines.filterMap Line.reserved?)
    (h' : (array, size') ∈ g.lines.filterMap Line.reserved?) : size = size' := by
  have hregister {n : Nat} (hn : (array, n) ∈ g.lines.filterMap Line.reserved?) :
      (.named array, .arrayAddress n) ∈ g.registers := by
    rw [filterMap_reserved?] at hn
    obtain ⟨⟨r, ty⟩, hdefined, heq⟩ := List.mem_filterMap.1 hn
    unfold arrayRegister? at heq
    split at heq
    · rename_i hpair
      cases hpair
      cases heq
      exact List.mem_append_right _ hdefined
    · cases heq
  have heq := List.inj_on_of_nodup_map hg.distinct (hregister h) (hregister h') rfl
  cases heq
  rfl

end IR

/-- A lowered function reserves the arrays that are declared, in order. -/
lemma FunctionDecl.reserved_of_lower {f : FunctionDecl} {finalReturn : Bool} {c c' : Counters}
    {g : IR.Function} (h : f.lower finalReturn c = .ok (g, c')) :
    g.lines.filterMap IR.Line.reserved? = f.arrays := by
  obtain ⟨l, hl, _, rfl⟩ := FunctionDecl.lower_inv h
  obtain ⟨count, _, hnumbered⟩ := Stmt.numbered_lowerAll (fun s _ => s.numbered_lower) c l hl
  have hbody : (IR.definitions l.code).filterMap IR.arrayRegister? = [] := by
    refine List.filterMap_eq_nil_iff.2 fun definition hdefinition => ?_
    have hmem := List.mem_map_of_mem (f := Prod.fst) hdefinition
    rw [hnumbered] at hmem
    obtain ⟨number, _, hnumber⟩ := List.mem_map.1 hmem
    obtain ⟨r, ty⟩ := definition
    cases hnumber
    rfl
  rw [IR.filterMap_reserved?, definitions_functionLines, List.filterMap_append, hbody,
    List.append_nil, List.filterMap_map]
  refine List.filterMap_congr fun d _ => ?_
  cases d <;> rfl

end DLang
