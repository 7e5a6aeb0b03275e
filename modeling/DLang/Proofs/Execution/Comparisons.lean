import DLang.Proofs.Execution.Expressions
import DLang.Proofs.Lowering.Acceptance

/-!
# Comparisons of comparisons

In a tree, unlike in a source text, the operands of a comparison may be comparisons themselves.  As
a number, a comparison is one if it holds and zero if not: that is its value where it is printed,
returned or passed on, and where it is compared with an integer.  This file says of which
comparisons the code agrees with that.

If an operand is an integer, it does: the other one is widened where necessary, and the two are
compared as numbers (`steps_comparisonOf_of_ne`).  Two comparisons are compared as they are, as
words of one bit.  The order of such words is the signed one, in which a set bit is minus one; so
"less" and "greater" change places (`icmp_ofBool`), and equality is not affected.  Hence the code
disagrees where two comparisons with different truth values are compared by order, and nowhere else
(`comparison_numeric_iff`).
-/

namespace DLang

open IR (Registers Slot State Steps step)

/-! ## Numbers -/

namespace IR.Registers

variable {registers registers' : Registers} {t : Nat}

/-- The number that an operand of the given type stands for.  A truth value is one or zero. -/
def number? (registers : Registers) (ty : Ty) (operand : Operand) : Option Int32 :=
  match ty with
  | .int => registers.int? operand
  | .bool => (registers.bool? operand).map fun holds => if holds then 1 else 0

lemma Extends.number? {operand : Operand} (h : registers.Extends t registers')
    (hbelow : operand.Below t) (ty : Ty) :
    registers'.number? ty operand = registers.number? ty operand := by
  cases ty with
  | int => exact h.int? hbelow
  | bool => rw [Registers.number?, Registers.number?, bool?, bool?, h.read hbelow]

lemma exists_of_number?_bool {operand : Operand} {a : Int32}
    (h : registers.number? .bool operand = some a) :
    ∃ holds : Bool, registers.bool? operand = some holds ∧ a = if holds then 1 else 0 := by
  obtain ⟨holds, hholds, ha⟩ := Option.map_eq_some_iff.1 h
  exact ⟨holds, hholds, ha.symm⟩

end IR.Registers

/-- Words of one bit are ordered the other way round. -/
lemma icmp_ofBool (op : RelOp) (x y : Bool) :
    IR.icmp op.predicate (BitVec.ofBool x) (BitVec.ofBool y) =
      op.holds (if y then 1 else 0) (if x then 1 else 0) := by
  cases op <;> cases x <;> cases y <;> decide

/-- Which comparisons of ones and zeros may be turned round. -/
lemma RelOp.holds_swap_iff (op : RelOp) (x y : Bool) :
    (op.holds (if y then 1 else 0) (if x then 1 else 0) =
        op.holds (if x then 1 else 0) (if y then 1 else 0)) ↔
      op = .equal ∨ op = .notEqual ∨
        (if x then 1 else 0 : Int32) = if y then 1 else 0 := by
  cases op <;> cases x <;> cases y <;> decide

/-! ## The code after the operands -/

/-- The instructions of a comparison after those of its operands, which leave their values in `left`
and `right` and have used `t` temporaries. -/
def comparisonOf (op : RelOp) (left : IR.Operand) (leftTy : Ty) (right : IR.Operand)
    (rightTy : Ty) (t : Nat) : LoweredExpr :=
  lowerComparison op { code := [], value := left, temporaries := t } leftTy
    { code := [], value := right, temporaries := t } rightTy

lemma widenAfter_append (code : List IR.Instr) (value : IR.Operand) (ty : Ty) (t : Nat) :
    widenAfter code value ty t =
      { widenAfter [] value ty t with code := code ++ (widenAfter [] value ty t).code } := by
  cases ty with
  | int => rw [widenAfter, widenAfter, List.append_nil]
  | bool => rfl

lemma lowerComparison_append (op : RelOp) (l r : LoweredExpr) (leftTy rightTy : Ty) :
    lowerComparison op l leftTy r rightTy =
      { comparisonOf op l.value leftTy r.value rightTy r.temporaries with
        code := l.code ++ r.code ++
          (comparisonOf op l.value leftTy r.value rightTy r.temporaries).code } := by
  cases leftTy <;> cases rightTy <;>
    simp [lowerComparison, comparisonOf, widenAfter, emitResult]

section Steps

variable {m : IR.Module} {lines rest : List IR.Line} {registers : Registers} {slots : List Slot}
  {callers : List (Nat × IR.Frame)} {console : Console} {t : Nat} {a b : Int32}

/-- The integer that is made of an operand is the number that the operand stands for. -/
lemma steps_widenAfter {ty : Ty} {value : IR.Operand} (h : registers.number? ty value = some a)
    (t : Nat) :
    ∃ n registers', Steps m n
        (.running ⟨lines, instrLines (widenAfter [] value ty t).code ++ rest, registers, slots⟩
          callers console)
        (.running ⟨lines, rest, registers', slots⟩ callers console) ∧
      registers.Extends t registers' ∧
      registers'.int? (widenAfter [] value ty t).value = some a := by
  cases ty with
  | int => exact ⟨0, registers, .refl _, .refl t registers, h⟩
  | bool =>
    obtain ⟨holds, hholds, rfl⟩ := Registers.exists_of_number?_bool h
    exact ⟨1, _, .single (IR.step_widen hholds),
      (Registers.Extends.refl t registers).set (Nat.lt_succ_self t), Registers.int?_temporary⟩

/-- Operands of two types are compared as numbers, after the truth value among them is widened. -/
lemma steps_comparisonOf_of_ne {op : RelOp} {left right : IR.Operand} {leftTy rightTy : Ty}
    (hne : leftTy ≠ rightTy) (hleft : registers.number? leftTy left = some a)
    (hright : registers.number? rightTy right = some b) (hbelow : left.Below t)
    (hbelow' : right.Below t) :
    ∃ n registers', Steps m n
        (.running ⟨lines, instrLines (comparisonOf op left leftTy right rightTy t).code ++ rest,
          registers, slots⟩ callers console)
        (.running ⟨lines, rest, registers', slots⟩ callers console) ∧
      registers'.bool? (comparisonOf op left leftTy right rightTy t).value =
        some (op.holds a b) := by
  let l := widenAfter [] left leftTy t
  let r := widenAfter [] right rightTy l.temporaries
  have hoperand : LoweredExpr.Bounded t { code := [], value := left, temporaries := t } :=
    ⟨Nat.le_refl t, hbelow⟩
  have hbounded : l.Bounded t := LoweredExpr.bounded_toInt hoperand
  have hcomparison : comparisonOf op left leftTy right rightTy t =
      emitResult (l.code ++ r.code) r.temporaries fun into =>
        .compare into op.predicate .int l.value r.value := by
    rw [comparisonOf, lowerComparison, if_neg hne]
    dsimp only
    rw [List.append_nil, widenAfter_append (widenAfter [] left leftTy t).code]
  rw [hcomparison, instrLines_emitResult, instrLines_append]
  obtain ⟨n, registers₁, hsteps, hext, hl⟩ := steps_widenAfter hleft t
  have hright₁ : registers₁.number? rightTy right = some b := by
    rw [hext.number? hbelow', hright]
  obtain ⟨k, registers₂, hsteps', hext', hr⟩ := steps_widenAfter hright₁ l.temporaries
  have hl₂ : registers₂.int? l.value = some a := by
    rw [hext'.int? hbounded.below, hl]
  refine ⟨_, _, hsteps.trans (hsteps'.trans (.single (IR.step_compare hl₂ hr))), ?_⟩
  rw [← icmp_predicate]
  exact Registers.bool?_temporary

/-- What a comparison computes, given the numbers that its operands stand for: two truth values are
compared the other way round. -/
lemma steps_comparisonOf {op : RelOp} {left right : IR.Operand} {leftTy rightTy : Ty}
    (hleft : registers.number? leftTy left = some a)
    (hright : registers.number? rightTy right = some b) (hbelow : left.Below t)
    (hbelow' : right.Below t) :
    ∃ n registers', Steps m n
        (.running ⟨lines, instrLines (comparisonOf op left leftTy right rightTy t).code ++ rest,
          registers, slots⟩ callers console)
        (.running ⟨lines, rest, registers', slots⟩ callers console) ∧
      registers'.bool? (comparisonOf op left leftTy right rightTy t).value =
        some (if leftTy = .bool ∧ rightTy = .bool then op.holds b a else op.holds a b) := by
  by_cases hne : leftTy ≠ rightTy
  · have hmixed : ¬ (leftTy = .bool ∧ rightTy = .bool) := fun h => hne (h.1.trans h.2.symm)
    rw [if_neg hmixed]
    exact steps_comparisonOf_of_ne hne hleft hright hbelow hbelow'
  obtain rfl : leftTy = rightTy := not_not.1 hne
  cases leftTy with
  | int =>
    refine ⟨1, _, .single (IR.step_compare hleft hright), ?_⟩
    rw [if_neg (by simp), ← icmp_predicate]
    exact Registers.bool?_temporary
  | bool =>
    obtain ⟨x, hx, rfl⟩ := Registers.exists_of_number?_bool hleft
    obtain ⟨y, hy, rfl⟩ := Registers.exists_of_number?_bool hright
    refine ⟨1, _, .single (IR.step_compare_bool hx hy), ?_⟩
    rw [if_pos ⟨rfl, rfl⟩, ← icmp_ofBool]
    exact Registers.bool?_temporary

end Steps

/-! ## The expressions of a program -/

/-- The expression stands somewhere in the other one. -/
inductive Expr.Occurs (e : Expr) : Expr → Prop
  | self : Occurs e e
  | index {name : String} {index : Expr} {symbol : Option Symbol} {ty : Option Ty} :
      Occurs e index → Occurs e (.element name index symbol ty)
  | arithLeft {op : ArithOp} {left right : Expr} {ty : Option Ty} :
      Occurs e left → Occurs e (.arith op left right ty)
  | arithRight {op : ArithOp} {left right : Expr} {ty : Option Ty} :
      Occurs e right → Occurs e (.arith op left right ty)
  | compareLeft {op : RelOp} {left right : Expr} {ty : Option Ty} :
      Occurs e left → Occurs e (.compare op left right ty)
  | compareRight {op : RelOp} {left right : Expr} {ty : Option Ty} :
      Occurs e right → Occurs e (.compare op left right ty)
  | arg {name : String} {args : Option (List Expr)} {ty : Option Ty} {arg : Expr} :
      arg ∈ args.getD [] → Occurs e arg → Occurs e (.call name args ty)

/-- The expression stands somewhere in the statement. -/
inductive Stmt.Contains (e : Expr) : Stmt → Prop
  | index {name : String} {index value : Expr} {symbol : Option Symbol} {targetTy ty : Option Ty} :
      e.Occurs index → Contains e (.assign (.element name index symbol) value targetTy ty)
  | value {target : Target} {value : Expr} {targetTy ty : Option Ty} :
      e.Occurs value → Contains e (.assign target value targetTy ty)
  | print {value : Expr} : e.Occurs value → Contains e (.print value)
  | ret {value : Expr} : e.Occurs value → Contains e (.ret value)
  | branchCondition {condition : Expr} {yes : List Stmt} {no : Option (List Stmt)} :
      e.Occurs condition → Contains e (.branch condition yes no)
  | yes {condition : Expr} {yes : List Stmt} {no : Option (List Stmt)} {s : Stmt} :
      s ∈ yes → Contains e s → Contains e (.branch condition yes no)
  | no {condition : Expr} {yes : List Stmt} {no : Option (List Stmt)} {s : Stmt} :
      s ∈ no.getD [] → Contains e s → Contains e (.branch condition yes no)
  | loopCondition {condition : Expr} {body : List Stmt} :
      e.Occurs condition → Contains e (.loop condition body)
  | body {condition : Expr} {body : List Stmt} {s : Stmt} :
      s ∈ body → Contains e s → Contains e (.loop condition body)
  | block {body : List Stmt} {s : Stmt} : s ∈ body → Contains e s → Contains e (.block body)

/-- The expression stands somewhere in the program. -/
inductive Program.Contains (e : Expr) (p : Program) : Prop
  | function {f : FunctionDecl} {s : Stmt} :
      f ∈ p.functions → s ∈ f.body → s.Contains e → Contains e p
  | body {s : Stmt} : s ∈ p.body → s.Contains e → Contains e p

variable {Γ : Env}

lemma Expr.Occurs.annotated {e whole : Expr} (h : e.Occurs whole) (hann : whole.Annotated Γ) :
    e.Annotated Γ := by
  induction h with
  | self => exact hann
  | index _ ih =>
    cases hann with
    | element _ hindex _ => exact ih hindex
  | arithLeft _ ih =>
    cases hann with
    | arith hleft _ _ _ => exact ih hleft
  | arithRight _ ih =>
    cases hann with
    | arith _ _ hright _ => exact ih hright
  | compareLeft _ ih =>
    cases hann with
    | compare hleft _ => exact ih hleft
  | compareRight _ ih =>
    cases hann with
    | compare _ hright => exact ih hright
  | arg hmem _ ih =>
    cases hann with
    | call _ hargs => exact ih (hargs _ hmem)

lemma Stmt.Contains.annotated {e : Expr} {s : Stmt} (h : s.Contains e) (hann : s.Annotated Γ) :
    e.Annotated Γ := by
  induction h with
  | index hindex =>
    cases hann with
    | assign htarget _ _ =>
      cases htarget with
      | element _ hann _ => exact hindex.annotated hann
  | value hvalue =>
    cases hann with
    | assign _ hann _ => exact hvalue.annotated hann
  | print hvalue =>
    cases hann with
    | print hann => exact hvalue.annotated hann
  | ret hvalue =>
    cases hann with
    | ret hann => exact hvalue.annotated hann
  | branchCondition hcondition =>
    cases hann with
    | branch hann _ _ _ => exact hcondition.annotated hann
  | yes hmem _ ih =>
    cases hann with
    | branch _ _ hyes _ => exact ih (hyes _ hmem)
  | no hmem _ ih =>
    cases hann with
    | branch _ _ _ hno => exact ih (hno _ hmem)
  | loopCondition hcondition =>
    cases hann with
    | loop hann _ _ => exact hcondition.annotated hann
  | body hmem _ ih =>
    cases hann with
    | loop _ _ hbody => exact ih (hbody _ hmem)
  | block hmem _ ih =>
    cases hann with
    | block hbody => exact ih (hbody _ hmem)

/-- Every expression of an annotated program is annotated, in the place where it stands. -/
lemma Program.Contains.exists_annotated {e : Expr} {p : Program} (h : p.Contains e)
    (hann : p.Annotated) : ∃ Γ : Env, e.Annotated Γ := by
  cases h with
  | @function f s hf hs hcontains =>
    obtain ⟨before, after, hsplit⟩ := p.mem_functions_iff.1 hf
    exact ⟨_, hcontains.annotated (hann.functions before f after hsplit s hs)⟩
  | body hs hcontains => exact ⟨_, hcontains.annotated (hann.body _ hs)⟩

/-! ## Comparisons as numbers -/

/-- **When a comparison has its numeric meaning.**  In a program that analysis accepts, take a
comparison, wherever it stands and whatever its operands are.  It is lowered to the code of its
operands and some instructions after it.  In whatever state these are reached, let `a` and `b` be
the numbers that the operands stand for, a comparison being one if it holds and zero if not.  Then
the instructions compute a truth value, and this tells whether the comparison holds between `a` and
`b` if and only if the operands are not both comparisons, or it is one of equality, or `a` and `b`
are equal.  Between two comparisons it is the comparison turned round. -/
theorem comparison_numeric_iff {p annotated : Program}
    (haccepted : (Analyzer.fresh.visit p).result = .ok annotated) {op : RelOp} {left right : Expr}
    {ty : Option Ty} (hnode : annotated.Contains (.compare op left right ty)) (t : Nat) :
    ∃ l r lowered tail, left.lower t = .ok l ∧ right.lower l.temporaries = .ok r ∧
      (Expr.compare op left right ty).lower t = .ok lowered ∧
      lowered.code = l.code ++ r.code ++ tail ∧
      ∀ m lines rest registers slots callers console a b,
        registers.number? left.typeOf l.value = some a →
        registers.number? right.typeOf r.value = some b →
        ∃ n registers' holds,
          Steps m n
            (.running ⟨lines, instrLines tail ++ rest, registers, slots⟩ callers console)
            (.running ⟨lines, rest, registers', slots⟩ callers console) ∧
          registers'.bool? lowered.value = some holds ∧
          (holds = op.holds a b ↔
            ¬ (left.typeOf = .bool ∧ right.typeOf = .bool) ∨ op = .equal ∨ op = .notEqual ∨
              a = b) ∧
          (left.typeOf = .bool ∧ right.typeOf = .bool → holds = op.holds b a) := by
  obtain ⟨_, _, hann⟩ := Analyzer.of_result_eq_ok haccepted
  obtain ⟨Γ, hnodeAnn⟩ := hnode.exists_annotated hann
  obtain ⟨lowered, hlowered⟩ := Expr.lowersUnless_lower hnodeAnn t
  cases hnodeAnn with
  | compare hannLeft hannRight =>
    obtain ⟨l, r, hl, hr, rfl⟩ := Expr.exists_of_lower_compare hannLeft hannRight hlowered
    have hbounds := Expr.lower_bounds hannLeft t l hl
    have hbounds' := Expr.lower_bounds hannRight _ r hr
    rw [lowerComparison_append] at hlowered
    refine ⟨l, r, _, _, hl, hr, hlowered, rfl, ?_⟩
    intro m lines rest registers slots callers console a b ha hb
    have hbelow : l.value.Below r.temporaries := hbounds.below.mono hbounds'.le
    obtain ⟨n, registers', hsteps, hvalue⟩ := steps_comparisonOf ha hb hbelow hbounds'.below
    refine ⟨n, registers', _, hsteps, hvalue, ?_, fun hboth => if_pos hboth⟩
    by_cases hboth : left.typeOf = .bool ∧ right.typeOf = .bool
    · rw [hboth.1] at ha
      rw [hboth.2] at hb
      obtain ⟨x, _, rfl⟩ := Registers.exists_of_number?_bool ha
      obtain ⟨y, _, rfl⟩ := Registers.exists_of_number?_bool hb
      rw [if_pos hboth, RelOp.holds_swap_iff, or_iff_right (not_not.2 hboth)]
    · rw [if_neg hboth]
      exact iff_of_true rfl (.inl hboth)

/-- `print((1 == 1) < 2)`. -/
def mixedComparison : Program where
  declarations := none
  body :=
    [.print (.compare .less
      (.compare .equal (.integer 1 none) (.integer 1 none) none) (.integer 2 none) none)]

/-- The comparison with two, reached after `1 == 1` was found to hold. -/
theorem comparison_numeric_mixed :
    let left : Expr :=
      .compare .equal (.integer 1 (some .int)) (.integer 1 (some .int)) (some .bool)
    let node : Expr := .compare .less left (.integer 2 (some .int)) (some .bool)
    let registers : Registers := fun r => if r = .temporary 1 then some (.bool true) else none
    let console : Console := { input := fun _ => none, output := [] }
    ∃ annotated lowered tail n registers',
      (Analyzer.fresh.visit mixedComparison).result = .ok annotated ∧ annotated.Contains node ∧
        node.lower 0 = .ok lowered ∧
        lowered.code = [.compare 1 .eq .int (.constant 1) (.constant 1)] ++ tail ∧
        Steps ⟨[]⟩ n (.running ⟨[], instrLines tail ++ [], registers, []⟩ [] console)
          (.running ⟨[], [], registers', []⟩ [] console) ∧
        registers'.bool? lowered.value = some true := by
  intro left node registers console
  have haccepted : (Analyzer.fresh.visit mixedComparison).result =
      .ok { declarations := none, body := [.print node] } := rfl
  have hnode : Program.Contains node { declarations := none, body := [.print node] } :=
    .body List.mem_cons_self (.print .self)
  obtain ⟨l, r, lowered, tail, hl, hr, hlowered, hcode, hrun⟩ :=
    comparison_numeric_iff haccepted hnode 0
  cases hl
  cases hr
  obtain ⟨n, registers', holds, hsteps, hvalue, hnumeric, _⟩ :=
    hrun ⟨[]⟩ [] [] registers [] [] console 1 2 rfl rfl
  have hholds : holds = true := hnumeric.2 (.inl (by decide))
  rw [hholds] at hvalue
  exact ⟨_, lowered, tail, n, registers', haccepted, hnode, hlowered, hcode, hsteps, hvalue⟩

/-- `print((1 == 1) < (1 == 2))`. -/
def orderedComparisons : Program where
  declarations := none
  body :=
    [.print (.compare .less (.compare .equal (.integer 1 none) (.integer 1 none) none)
      (.compare .equal (.integer 1 none) (.integer 2 none) none) none)]

/-- The module of the program, which compares two truth values in order. -/
def orderedModule : IR.Module where
  functions :=
    [{ name := "main"
       params := []
       lines :=
         [.label .entry,
           .instr (.compare 1 .eq .int (.constant 1) (.constant 1)),
           .instr (.compare 2 .eq .int (.constant 1) (.constant 2)),
           .instr (.compare 3 .slt .bool (.temporary 1) (.temporary 2)),
           .instr (.widen 4 (.temporary 3)),
           .instr (.print 5 (.temporary 4)),
           .instr (.ret (.constant 0))] }]

/-- The program prints that one is not less than zero, and its module prints that it is. -/
theorem orderedComparisons_misprinted :
    ∃ annotated counters, (Analyzer.fresh.visit orderedComparisons).result = .ok annotated ∧
      (annotated.lower true).result = .ok (orderedModule, counters) ∧
      orderedComparisons.Runs (fun _ => none) [0] 0 ∧
      orderedModule.Runs (fun _ => none) [1] 0 := by
  have houtcome : orderedComparisons.outcome? 4 (fun _ => none) = some ([0], 0) := by
    decide +kernel
  refine ⟨_, _, rfl, rfl, Program.runs_of_outcome? houtcome, ?_⟩
  refine ⟨_, 6, { input := fun _ => none, output := [1] }, rfl, ?_, rfl⟩
  exact .head rfl (.head rfl (.head rfl (.head rfl (.head rfl (.head rfl (.refl _))))))

end DLang
