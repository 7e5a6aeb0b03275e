import DLang.Proofs.Lowering.Shape
import DLang.Proofs.Module.Lines

/-!
# The temporaries that lowering uses

Every instruction of a lowered expression defines a temporary, and the temporaries are numbered in
the order of the instructions, without a gap (`Emits`).  So the code of an expression is a straight
line: it has no label, no jump and no store.  The lines of a lowered statement have all of these,
but what they define is again a gapless run of temporaries (`Numbered`).  Nothing of this depends on
annotations.
-/

namespace DLang

open IR (definitions)

/-! ## Straight code -/

/-- Each instruction defines a temporary, numbered from above `t` up to `t'` in order. -/
inductive Emits (t : Nat) : List IR.Instr → Nat → Prop
  | nil : Emits t [] t
  | snoc {t' : Nat} {code : List IR.Instr} {instr : IR.Instr} {ty : IR.ValueType} :
      Emits t code t' → instr.definition? = some (.temporary (t' + 1), ty) →
      Emits t (code ++ [instr]) (t' + 1)

namespace Emits

variable {t t' t'' : Nat} {code code' : List IR.Instr}

lemma append (h : Emits t code t') (h' : Emits t' code' t'') : Emits t (code ++ code') t'' := by
  induction h' with
  | nil => rwa [List.append_nil]
  | snoc _ hdefines ih =>
    rw [← List.append_assoc]
    exact .snoc ih hdefines

/-- An instruction with a result goes on with the next temporary. -/
lemma emitResult {instr : Nat → IR.Instr} (h : Emits t code t')
    (hinstr : ∀ n, ∃ ty, (instr n).definition? = some (.temporary n, ty)) :
    Emits t (emitResult code t' instr).code (emitResult code t' instr).temporaries := by
  obtain ⟨ty, hdefines⟩ := hinstr (t' + 1)
  exact .snoc h hdefines

lemma widenAfter {value : IR.Operand} {ty : Ty} (h : Emits t code t') :
    Emits t (widenAfter code value ty t').code (widenAfter code value ty t').temporaries := by
  cases ty with
  | int => exact h
  | bool => exact h.emitResult fun _ => ⟨_, rfl⟩

lemma toInt {lowered : LoweredExpr} {ty : Ty} (h : Emits t lowered.code lowered.temporaries) :
    Emits t (lowered.toInt ty).code (lowered.toInt ty).temporaries :=
  h.widenAfter

lemma lowerAddress {index : LoweredExpr} {name : String} {size : Nat} {ty : Ty}
    (h : Emits t index.code index.temporaries) :
    Emits t (lowerAddress name size index ty).code (lowerAddress name size index ty).temporaries :=
  h.toInt.emitResult fun _ => ⟨_, rfl⟩

lemma lowerComparison {op : RelOp} {l r : LoweredExpr} {lty rty : Ty}
    (hl : Emits t l.code l.temporaries) (hr : Emits l.temporaries r.code r.temporaries) :
    Emits t (lowerComparison op l lty r rty).code (lowerComparison op l lty r rty).temporaries := by
  have hboth : Emits t (l.code ++ r.code) r.temporaries := hl.append hr
  rw [DLang.lowerComparison]
  split
  · exact hboth.emitResult fun _ => ⟨_, rfl⟩
  · exact hboth.widenAfter.widenAfter.emitResult fun _ => ⟨_, rfl⟩

/-- Straight code ends no block. -/
lemma isTerminator_eq_false (h : Emits t code t') {i : IR.Instr} (hi : i ∈ code) :
    i.isTerminator = false := by
  induction h with
  | nil => cases hi
  | snoc _ hdefines ih =>
    rcases List.mem_append.1 hi with hi | hi
    · exact ih hi
    · cases List.mem_singleton.1 hi
      exact IR.Instr.isTerminator_of_definition? hdefines

end Emits

lemma Expr.emits_lowerArgs {args : List Expr}
    (h : ∀ e ∈ args, ∀ t l, e.lower t = .ok l → Emits t l.code l.temporaries) :
    ∀ t a, Expr.lowerArgs args t = .ok a → Emits t a.code a.temporaries := by
  induction args with
  | nil =>
    intro t a ha
    rw [Expr.lowerArgs] at ha
    cases ha
    exact .nil
  | cons e rest ih =>
    intro t a ha
    obtain ⟨l, ty, more, hl, _, hmore, rfl⟩ := Expr.lowerArgs_cons_inv ha
    have hfirst : Emits t (l.toInt ty).code (l.toInt ty).temporaries :=
      (h e List.mem_cons_self t l hl).toInt
    have hrest := ih (fun d hd => h d (List.mem_cons_of_mem e hd)) _ more hmore
    exact hfirst.append hrest

/-- The code of an expression is straight. -/
lemma Expr.emits_lower (e : Expr) :
    ∀ t l, e.lower t = .ok l → Emits t l.code l.temporaries := by
  induction e with
  | integer value ty =>
    intro t l h
    rw [Expr.lower] at h
    obtain ⟨_, _, h⟩ := exists_of_bind_eq_ok h
    cases h
    exact .nil
  | var name symbol ty =>
    intro t l h
    rw [Expr.lower] at h
    obtain ⟨_, _, h⟩ := exists_of_bind_eq_ok h
    unfold lowerVariable at h
    split at h
    · cases h
      exact Emits.nil.emitResult fun _ => ⟨_, rfl⟩
    · cases h
      exact .nil
    · cases h
  | element name index symbol ty ih =>
    intro t l h
    obtain ⟨size, i, indexTy, _, _, hi, _, rfl, rfl⟩ := Expr.lower_element_inv h
    exact (ih t i hi).lowerAddress.emitResult fun _ => ⟨_, rfl⟩
  | arith op left right ty ihl ihr =>
    intro t lowered h
    obtain ⟨l, r, hl, hr, rfl⟩ := Expr.exists_of_lower_arith h
    exact ((ihl t l hl).append (ihr _ r hr)).emitResult fun _ => ⟨_, rfl⟩
  | compare op left right ty ihl ihr =>
    intro t lowered h
    obtain ⟨l, r, _, _, hl, hr, _, _, rfl⟩ := Expr.lower_compare_inv h
    exact (ihl t l hl).lowerComparison (ihr _ r hr)
  | call name args ty ih =>
    intro t lowered h
    obtain ⟨a, ha, rfl⟩ := Expr.exists_of_lower_call h
    exact (Expr.emits_lowerArgs ih t a ha).emitResult fun _ => ⟨_, rfl⟩

lemma Expr.emits_lowerInt {e : Expr} {t : Nat} {lowered : LoweredExpr}
    (h : e.lowerInt t = .ok lowered) : Emits t lowered.code lowered.temporaries := by
  obtain ⟨l, ty, hl, _, rfl⟩ := Expr.lowerInt_inv h
  exact (e.emits_lower t l hl).toInt

/-! ## Lines -/

/-- What the lines define are temporaries, numbered from above `t` up to `t'` in order. -/
def Numbered (t : Nat) (lines : List IR.Line) (t' : Nat) : Prop :=
  ∃ count, t' = t + count ∧
    (definitions lines).map Prod.fst = (List.range' (t + 1) count).map IR.Register.temporary

namespace Numbered

variable {t t' t'' : Nat} {lines lines' : List IR.Line}

lemma nil : Numbered t [] t :=
  ⟨0, rfl, rfl⟩

lemma append (h : Numbered t lines t') (h' : Numbered t' lines' t'') :
    Numbered t (lines ++ lines') t'' := by
  obtain ⟨m, rfl, hlines⟩ := h
  obtain ⟨n, rfl, hlines'⟩ := h'
  refine ⟨m + n, by omega, ?_⟩
  have hstart : t + m + 1 = t + 1 + m := by omega
  rw [IR.definitions_append, List.map_append, hlines, hlines', hstart, ← List.map_append,
    List.range'_append_1]

/-- Lines without a result do not count. -/
lemma label (h : Numbered t lines t') (l : IR.Label) : Numbered t (.label l :: lines) t' :=
  h

lemma instr {i : IR.Instr} (h : Numbered t lines t') (hi : i.definition? = none) :
    Numbered t (.instr i :: lines) t' := by
  obtain ⟨count, hcount, hlines⟩ := h
  refine ⟨count, hcount, ?_⟩
  rwa [IR.definitions_instr, hi]

lemma of_emits {code : List IR.Instr} (h : Emits t code t') : Numbered t (instrLines code) t' := by
  induction h with
  | nil => exact .nil
  | @snoc t' code i ty _ hdefines ih =>
    rw [instrLines, List.map_append]
    refine ih.append ⟨1, rfl, ?_⟩
    rw [List.map_singleton, IR.definitions_instr, hdefines]
    rfl

/-- Straight code, then an instruction without a result. -/
lemma of_emits_snoc {code : List IR.Instr} {i : IR.Instr} (h : Emits t code t')
    (hi : i.definition? = none) : Numbered t (instrLines (code ++ [i])) t' := by
  rw [instrLines, List.map_append]
  exact (of_emits h).append (nil.instr hi)

end Numbered

lemma Target.numbered_lowerStore {target : Target} {v stored : LoweredExpr} {t : Nat}
    (hv : Emits t v.code v.temporaries) (h : target.lowerStore v = .ok stored) :
    Numbered t (instrLines stored.code) stored.temporaries := by
  cases target with
  | var name symbol =>
    obtain ⟨_, rfl⟩ := Target.lowerStore_var_inv h
    exact .of_emits_snoc hv rfl
  | element name index symbol =>
    obtain ⟨size, i, ty, _, hi, _, rfl⟩ := Target.lowerStore_element_inv h
    exact .of_emits_snoc (hv.append (index.emits_lower _ i hi).lowerAddress) rfl

lemma Stmt.numbered_lowerAll {body : List Stmt}
    (h : ∀ s ∈ body, ∀ c l, s.lower c = .ok l →
      Numbered c.temporaries l.code l.counters.temporaries) :
    ∀ c l, Stmt.lowerAll body c = .ok l → Numbered c.temporaries l.code l.counters.temporaries := by
  induction body with
  | nil =>
    intro c l hl
    rw [Stmt.lowerAll] at hl
    cases hl
    exact .nil
  | cons s rest ih =>
    intro c l hl
    obtain ⟨first, more, hfirst, hmore, rfl⟩ := Stmt.exists_of_lowerAll_cons hl
    have hs := h s List.mem_cons_self c first hfirst
    have hrest := ih (fun d hd => h d (List.mem_cons_of_mem s hd)) _ more hmore
    exact hs.append hrest

/-- What the lines of a statement define are temporaries, numbered without a gap. -/
lemma Stmt.numbered_lower (s : Stmt) :
    ∀ c l, s.lower c = .ok l → Numbered c.temporaries l.code l.counters.temporaries := by
  induction s with
  | assign target value targetTy ty =>
    intro c l h
    obtain ⟨v, stored, hv, hstored, rfl⟩ := Stmt.exists_of_lower_assign h
    exact target.numbered_lowerStore (Expr.emits_lowerInt hv) hstored
  | print value =>
    intro c l h
    obtain ⟨v, hv, rfl⟩ := Stmt.exists_of_lower_print h
    exact .of_emits (.snoc (Expr.emits_lowerInt hv) rfl)
  | read name symbol =>
    intro c l h
    obtain ⟨slot, _, rfl⟩ := Stmt.exists_of_lower_read h
    exact .of_emits (Emits.nil.snoc rfl)
  | ret value =>
    intro c l h
    obtain ⟨v, hv, rfl⟩ := Stmt.exists_of_lower_ret h
    exact .of_emits_snoc (Expr.emits_lowerInt hv) rfl
  | branch condition yes no ihyes ihno =>
    intro c l h
    obtain ⟨test, y, n, htest, hy, hn, rfl⟩ := Stmt.exists_of_lower_branch h
    have hcondition := Numbered.of_emits (condition.emits_lower _ test htest)
    have hyes := Stmt.numbered_lowerAll ihyes _ y hy
    have hno := Stmt.numbered_lowerAll ihno _ n hn
    have hend := hno.append ((Numbered.nil.label (.numbered .branchEnd (c.labels + 3))).instr
      (i := .jump (.numbered .branchEnd (c.labels + 3))) rfl)
    have hrest := hyes.append ((hend.label (.numbered .branchFalse (c.labels + 2))).instr
      (i := .jump (.numbered .branchEnd (c.labels + 3))) rfl)
    exact hcondition.append ((hrest.label _).instr rfl)
  | loop condition body ih =>
    intro c l h
    obtain ⟨test, b, htest, hb, rfl⟩ := Stmt.exists_of_lower_loop h
    have hcondition := Numbered.of_emits (condition.emits_lower _ test htest)
    have hbody := Stmt.numbered_lowerAll ih _ b hb
    have hrest := hbody.append ((Numbered.nil.label (.numbered .loopEnd (c.labels + 3))).instr
      (i := .jump (.numbered .loopHead (c.labels + 1))) rfl)
    exact ((hcondition.append ((hrest.label _).instr rfl)).label _).instr rfl
  | block body ih =>
    intro c l h
    rw [Stmt.lower] at h
    exact Stmt.numbered_lowerAll ih c l h

/-! ## Slots -/

/-- The type of what a slot holds. -/
def VarDef.slotType : VarDef → IR.ValueType
  | scalar _ => .address
  | array _ size => .arrayAddress size

/-- A slot is reserved first, and nothing else is defined there. -/
lemma VarDef.exists_of_lower (d : VarDef) :
    ∃ i rest, d.lower = i :: rest ∧ i.isReservation = true ∧
      i.definition? = some (.named d.name, d.slotType) ∧
      ∀ j ∈ rest, j.definition? = none ∧ j.isTerminator = false := by
  cases d with
  | scalar name =>
    refine ⟨_, _, rfl, rfl, rfl, ?_⟩
    intro j hj
    cases List.mem_singleton.1 hj
    exact ⟨rfl, rfl⟩
  | array name size => exact ⟨_, _, rfl, rfl, rfl, fun j hj => nomatch hj⟩

lemma isTerminator_slots {slots : List VarDef} {i : IR.Instr}
    (h : i ∈ slots.flatMap VarDef.lower) : i.isTerminator = false := by
  obtain ⟨d, _, hi⟩ := List.mem_flatMap.1 h
  obtain ⟨first, rest, hlower, _, hdefines, hrest⟩ := d.exists_of_lower
  rw [hlower] at hi
  rcases List.mem_cons.1 hi with rfl | hi
  · exact IR.Instr.isTerminator_of_definition? hdefines
  · exact (hrest i hi).2

end DLang
