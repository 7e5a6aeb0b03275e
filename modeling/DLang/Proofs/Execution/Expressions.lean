import DLang.Proofs.Execution.Simulation
import DLang.Proofs.Grammar.Plain

/-!
# The code of expressions

Running the code of an expression computes its value: the operand that lowering names holds it
afterwards, and of the registers only temporaries numbered above those used before have changed.
That is why the value of a left operand is still there when the right one has been computed.

The result is for plain expressions, whose values are all integers (`Expr.Plain.simulated`), and for
conditions, whose value is a truth value in the machine (`Expr.PlainCondition.simulates`).  What
calls do is a hypothesis, `CallsSimulated`.
-/

namespace DLang

open IR (Registers Slot State)

/-! ## Operators -/

/-- The operation of an arithmetic operator computes it. -/
lemma compute_opcode (op : ArithOp) (a b : Int32) : IR.compute op.opcode a b = op.apply a b := by
  cases op <;> rfl

/-- The predicate of a comparison decides it on the words of signed numbers. -/
lemma icmp_predicate (op : RelOp) (a b : Int32) :
    IR.icmp op.predicate a.toBitVec b.toBitVec = op.holds a b := by
  cases op with
  | equal => simp [IR.icmp, RelOp.predicate, RelOp.holds, Int32.toBitVec_inj]
  | notEqual => simp [IR.icmp, RelOp.predicate, RelOp.holds, Int32.toBitVec_inj]
  | less => exact Bool.decide_coe _ |>.symm
  | lessEqual => exact Bool.decide_coe _ |>.symm
  | greater => exact Bool.decide_coe _ |>.symm
  | greaterEqual => exact Bool.decide_coe _ |>.symm

lemma instrLines_append (code code' : List IR.Instr) (rest : List IR.Line) :
    instrLines (code ++ code') ++ rest = instrLines code ++ (instrLines code' ++ rest) := by
  rw [instrLines, instrLines, instrLines, List.map_append, List.append_assoc]

lemma instrLines_emitResult (code : List IR.Instr) (t : Nat) (instr : Nat → IR.Instr)
    (rest : List IR.Line) :
    instrLines (emitResult code t instr).code ++ rest =
      instrLines code ++ .instr (instr (t + 1)) :: rest :=
  instrLines_append code [instr (t + 1)] rest

/-! ## Simulated expressions -/

/-- The call instruction does what calls do, for the functions that can be called. -/
def CallsSimulated (m : IR.Module) (bound : Nat) (callable : String → Nat → Prop) (calls : Calls) :
    Prop :=
  ∀ name values, callable name values.length → ∀ lines rest registers slots callers console into
    operands, registers.ints? operands = some values →
    Simulates m bound
      (.running ⟨lines, .instr (.call into name operands) :: rest, registers, slots⟩ callers
        console) (calls name values) console fun v console' s' =>
      s' = .running ⟨lines, rest, registers.set (.temporary into) (.int v), slots⟩ callers console'

section Expressions

variable (m : IR.Module) (bound : Nat) (calls : Calls) (Γ : Env) (cells : Cells)
  (lines : List IR.Line) (slots : List Slot) (callers : List (Nat × IR.Frame))

/-- Running the code of the expression, whatever stands after it, computes its value. -/
def Expr.Simulated (e : Expr) : Prop :=
  ∀ t l, e.lower t = .ok l → ∀ rest registers console, Represents Γ.own cells registers slots →
    Simulates m bound
      (.running ⟨lines, instrLines l.code ++ rest, registers, slots⟩ callers console)
      (e.eval calls cells) console fun v console' s' =>
        ∃ registers', registers.Extends t registers' ∧ registers'.int? l.value = some v ∧
          s' = .running ⟨lines, rest, registers', slots⟩ callers console'

variable {m bound calls Γ cells lines slots callers}

/-- An instruction that computes an integer into a fresh temporary, or is stuck. -/
lemma simulates_emitted {i : IR.Instr} {value : Option Int32} {t t' : Nat} {rest : List IR.Line}
    {registers registers' : Registers} {console : Console}
    (hext : registers.Extends t registers') (hle : t ≤ t')
    (hstep : IR.step m (.running ⟨lines, .instr i :: rest, registers', slots⟩ callers console) =
      value.map fun v => .running
        ⟨lines, rest, registers'.set (.temporary (t' + 1)) (.int v), slots⟩ callers console) :
    Simulates m bound (.running ⟨lines, .instr i :: rest, registers', slots⟩ callers console)
      (Run.ofOption value) console fun v console' s' =>
        ∃ registers'', registers.Extends t registers'' ∧
          registers''.int? (.temporary (t' + 1)) = some v ∧
          s' = .running ⟨lines, rest, registers'', slots⟩ callers console' := by
  refine .ofOption ?_ ?_
  · rintro v rfl
    exact ⟨_, hstep, _, hext.set (by omega), Registers.int?_temporary, rfl⟩
  · rintro rfl
    exact hstep

/-- Two operands in order: the value of the first is still there after the second. -/
lemma Expr.Simulated.both {left right : Expr} {t : Nat} {l r : LoweredExpr} {β : Type}
    {f : Int32 → Int32 → Run β} {post : β → Console → State → Prop} {rest : List IR.Line}
    {registers : Registers} {console : Console}
    (hleft : left.Simulated m bound calls Γ cells lines slots callers)
    (hright : right.Simulated m bound calls Γ cells lines slots callers)
    (hl : left.lower t = .ok l) (hr : right.lower l.temporaries = .ok r) (hbounds : l.Bounded t)
    (hrep : Represents Γ.own cells registers slots)
    (hf : ∀ a b registers' console', registers.Extends t registers' →
      registers'.int? l.value = some a → registers'.int? r.value = some b →
      Simulates m bound (.running ⟨lines, rest, registers', slots⟩ callers console') (f a b)
        console' post) :
    Simulates m bound
      (.running ⟨lines, instrLines (l.code ++ r.code) ++ rest, registers, slots⟩ callers console)
      (left.eval calls cells >>= fun a => right.eval calls cells >>= fun b => f a b) console
      post := by
  rw [instrLines_append]
  refine (hleft t l hl _ registers console hrep).bind ?_
  rintro a console' _ ⟨registers', hext, ha, rfl⟩
  refine (hright _ r hr rest registers' console' (hrep.of_named hext.named)).bind ?_
  rintro b console'' _ ⟨registers'', hext', hb, rfl⟩
  refine hf a b registers'' console'' (hext.trans hbounds.le hext') ?_ hb
  rw [hext'.int? hbounds.below, ha]

/-- Arguments in order: all values are there at the end. -/
lemma Expr.simulates_evalAll {args : List Expr} (hann : ∀ e ∈ args, e.Annotated Γ)
    (hplain : ∀ e ∈ args, e.Plain)
    (h : ∀ e ∈ args, e.Simulated m bound calls Γ cells lines slots callers) :
    ∀ t a, Expr.lowerArgs args t = .ok a → ∀ rest registers console,
      Represents Γ.own cells registers slots →
      Simulates m bound
        (.running ⟨lines, instrLines a.code ++ rest, registers, slots⟩ callers console)
        (Expr.evalAll calls cells args) console fun values console' s' =>
          ∃ registers', registers.Extends t registers' ∧ registers'.ints? a.values = some values ∧
            values.length = args.length ∧
            s' = .running ⟨lines, rest, registers', slots⟩ callers console' := by
  induction args with
  | nil =>
    intro t a ha rest registers console hrep
    rw [Expr.lowerArgs] at ha
    cases ha
    rw [Expr.evalAll]
    exact .pure ⟨registers, .refl t registers, rfl, rfl, rfl⟩
  | cons e args ih =>
    intro t a ha rest registers console hrep
    have hann' := hann e List.mem_cons_self
    obtain ⟨l, more, hl, hmore, rfl⟩ := Expr.exists_of_lowerArgs_cons hann' ha
    rw [(hplain e List.mem_cons_self).typeOf] at hmore ⊢
    have hbounds := Expr.lower_bounds hann' t l hl
    rw [Expr.evalAll]
    show Simulates m bound (.running ⟨lines, instrLines (l.code ++ more.code) ++ rest, registers,
      slots⟩ callers console) _ console _
    rw [instrLines_append]
    refine (h e List.mem_cons_self t l hl _ registers console hrep).bind ?_
    rintro v console' _ ⟨registers', hext, hv, rfl⟩
    refine (ih (fun d hd => hann d (List.mem_cons_of_mem e hd))
      (fun d hd => hplain d (List.mem_cons_of_mem e hd))
      (fun d hd => h d (List.mem_cons_of_mem e hd)) _ more hmore rest registers' console'
      (hrep.of_named hext.named)).bind ?_
    rintro values console'' _ ⟨registers'', hext', hvalues, hlength, rfl⟩
    refine .pure ⟨registers'', hext.trans hbounds.le hext', ?_, ?_, rfl⟩
    · show registers''.ints? (l.value :: more.values) = _
      rw [Registers.ints?, hext'.int? hbounds.below, hv, hvalues]
      rfl
    · rw [List.length_cons, List.length_cons, hlength]

lemma Expr.simulated_var {name : String} {symbol : Symbol} (hsymbol : Γ.IsScalar name symbol) :
    (Expr.var name (some symbol) (some .int)).Simulated m bound calls Γ cells lines slots
      callers := by
  intro t l hl rest registers console hrep
  obtain ⟨hown, rfl | rfl⟩ := hsymbol
  · rw [Expr.lower_var] at hl
    cases hl
    obtain ⟨k, hpointer, hload⟩ := hrep.load_var hown
    rw [Expr.eval, ← hload]
    exact simulates_emitted (.refl t registers) (Nat.le_refl t) (IR.step_load hpointer)
  · rw [Expr.lower_arg] at hl
    cases hl
    obtain ⟨v, hcell, hregister⟩ := hrep.arg hown
    rw [Expr.eval, Cells.scalar?, hcell]
    refine .pure ⟨registers, .refl t registers, ?_, rfl⟩
    rw [Registers.int?, Registers.read, hregister]

lemma Expr.simulated_element {name : String} {size : Nat} {index : Expr}
    (hown : Γ.own (.array name .int size)) (hplain : index.Plain) (hann : index.Annotated Γ)
    (h : index.Simulated m bound calls Γ cells lines slots callers) :
    (Expr.element name index (some (.array name .int size)) (some .int)).Simulated m bound calls Γ
      cells lines slots callers := by
  intro t l hl rest registers console hrep
  obtain ⟨i, address, hi, rfl, rfl⟩ := Expr.exists_of_lower_element hann hl
  have hbounds := Expr.lower_bounds hann t i hi
  obtain ⟨k, hpointer, hload⟩ := hrep.load_element hown
  rw [hplain.typeOf, Expr.eval, instrLines_emitResult, lowerAddress, instrLines_emitResult]
  refine (h t i hi _ registers console hrep).bind ?_
  rintro v console' _ ⟨registers', hext, hv, rfl⟩
  have hpointer' : registers' (.named name) = some (.pointer k 0) :=
    (hext.named name).trans hpointer
  refine .step (IR.step_elementAddress hv hpointer') ?_
  rw [← hload]
  exact simulates_emitted (hext.set (Nat.lt_succ_of_le hbounds.le)) (Nat.le_succ_of_le hbounds.le)
    (IR.step_load (Registers.set_self _))

lemma Expr.simulated_arith {op : ArithOp} {left right : Expr} (hannLeft : left.Annotated Γ)
    (hannRight : right.Annotated Γ)
    (hleft : left.Simulated m bound calls Γ cells lines slots callers)
    (hright : right.Simulated m bound calls Γ cells lines slots callers) :
    (Expr.arith op left right (some .int)).Simulated m bound calls Γ cells lines slots callers := by
  intro t lowered hlowered rest registers console hrep
  obtain ⟨l, r, hl, hr, rfl⟩ := Expr.exists_of_lower_arith hlowered
  have hbounds := Expr.lower_bounds hannLeft t l hl
  have hbounds' := Expr.lower_bounds hannRight _ r hr
  rw [Expr.eval, instrLines_emitResult]
  refine hleft.both hright hl hr hbounds hrep ?_
  intro a b registers' console' hext ha hb
  rw [← compute_opcode]
  exact simulates_emitted hext (Nat.le_trans hbounds.le hbounds'.le) (IR.step_arith ha hb)

lemma Expr.simulated_call (hcalls : CallsSimulated m bound Γ.callable calls) {name : String}
    {args : Option (List Expr)} (hcallable : Γ.callable name (args.getD []).length)
    (hplain : ∀ e ∈ args.getD [], e.Plain) (hann : ∀ e ∈ args.getD [], e.Annotated Γ)
    (h : ∀ e ∈ args.getD [], e.Simulated m bound calls Γ cells lines slots callers) :
    (Expr.call name args (some .int)).Simulated m bound calls Γ cells lines slots callers := by
  intro t lowered hlowered rest registers console hrep
  obtain ⟨a, ha, rfl⟩ := Expr.exists_of_lower_call hlowered
  have hle := Expr.le_of_lowerArgs hann (fun e he => Expr.lower_bounds (hann e he)) t a ha
  rw [Expr.eval_call, instrLines_emitResult]
  refine (Expr.simulates_evalAll hann hplain h t a ha _ registers console hrep).bind ?_
  rintro values console' _ ⟨registers', hext, hvalues, hlength, rfl⟩
  rw [← hlength] at hcallable
  refine (hcalls name values hcallable lines rest registers' slots callers console' _ _
    hvalues).imp ?_
  rintro v console'' _ rfl
  exact ⟨_, hext.set (Nat.lt_succ_of_le hle), Registers.int?_temporary, rfl⟩

/-- The code of a plain expression computes its value. -/
theorem Expr.Plain.simulated (hcalls : CallsSimulated m bound Γ.callable calls) {e : Expr}
    (hplain : e.Plain) (hann : e.Annotated Γ) :
    e.Simulated m bound calls Γ cells lines slots callers := by
  induction hplain with
  | integer =>
    cases hann
    intro t l hl rest registers console hrep
    rw [Expr.lower_integer] at hl
    cases hl
    rw [Expr.eval]
    exact .pure ⟨registers, .refl t registers, rfl, rfl⟩
  | var =>
    obtain _ | hsymbol := hann
    exact Expr.simulated_var hsymbol
  | element hindex ih =>
    obtain _ | _ | ⟨⟨hown, size, rfl⟩, hannIndex, _⟩ := hann
    exact Expr.simulated_element hown hindex hannIndex (ih hannIndex)
  | arith _ _ ihl ihr =>
    obtain _ | _ | _ | ⟨hannLeft, _, hannRight, _⟩ := hann
    exact Expr.simulated_arith hannLeft hannRight (ihl hannLeft) (ihr hannRight)
  | call hargs ih =>
    obtain _ | _ | _ | _ | _ | ⟨hcallable, hannArgs⟩ := hann
    exact Expr.simulated_call hcalls hcallable hargs hannArgs fun e he => ih e he (hannArgs e he)

/-- The code of a condition computes whether it holds. -/
theorem Expr.PlainCondition.simulates (hcalls : CallsSimulated m bound Γ.callable calls) {e : Expr}
    (hplain : e.PlainCondition) (hann : e.Annotated Γ) {t : Nat} {test : LoweredExpr}
    (htest : e.lower t = .ok test) {rest : List IR.Line} {registers : Registers} {console : Console}
    (hrep : Represents Γ.own cells registers slots) :
    Simulates m bound
      (.running ⟨lines, instrLines test.code ++ rest, registers, slots⟩ callers console)
      (e.eval calls cells) console fun v console' s' =>
        ∃ registers' holds, registers.Extends t registers' ∧
          registers'.bool? test.value = some holds ∧ v = (if holds then 1 else 0) ∧
          s' = .running ⟨lines, rest, registers', slots⟩ callers console' := by
  obtain ⟨hplainLeft, hplainRight⟩ := hplain
  obtain _ | _ | _ | _ | ⟨hannLeft, hannRight⟩ := hann
  obtain ⟨l, r, hl, hr, rfl⟩ := Expr.exists_of_lower_compare hannLeft hannRight htest
  have hbounds := Expr.lower_bounds hannLeft t l hl
  have hbounds' := Expr.lower_bounds hannRight _ r hr
  rw [hplainLeft.typeOf, hplainRight.typeOf, lowerComparison, if_pos rfl, Expr.eval,
    instrLines_emitResult]
  refine (hplainLeft.simulated hcalls hannLeft).both (hplainRight.simulated hcalls hannRight) hl hr
    hbounds hrep ?_
  intro a b registers' console' hext ha hb
  refine .step (IR.step_compare ha hb) (.pure ⟨_, _, hext.set ?_, Registers.bool?_temporary, ?_,
    rfl⟩)
  · exact Nat.lt_succ_of_le (Nat.le_trans hbounds.le hbounds'.le)
  · rw [icmp_predicate]

end Expressions

end DLang
