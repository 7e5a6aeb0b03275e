import DLang.Proofs.Compilation.Stages
import DLang.Proofs.Module.Format
import DLang.Proofs.Module.Operands
import DLang.Proofs.Static.Analysis
import DLang.Proofs.Static.PlainTrees

/-!
# Source texts have no type errors

The grammar allows comparisons only as conditions, and as conditions only comparisons.  So the types
in a source text always fit: analysis can reject it only for its names.  And in a module that is
compiled from a source text, truth values stay where they arise: a comparison compares integers, and
its result goes into a branch.  The instruction that widens a truth value does not occur.

Both follow from the shape of the tree.  The first is `Analyzer.faultsNames_visit`.  For the second,
the code of plain trees is followed construct by construct; the annotations tell lowering that every
expression but a condition is an integer, so it never has anything to widen.
-/

namespace DLang

/-! ## Code on integers -/

/-- The instruction neither widens a truth value nor compares two of them. -/
def IR.Instr.OnIntegers : IR.Instr → Prop
  | .widen _ _ => False
  | .compare _ _ ty _ _ => ty = .int
  | _ => True

/-- No line widens a truth value or compares two of them. -/
def OnIntegers (lines : List IR.Line) : Prop :=
  ∀ i, .instr i ∈ lines → i.OnIntegers

namespace OnIntegers

variable {lines lines' : List IR.Line}

lemma nil : OnIntegers [] :=
  fun _ h => nomatch h

lemma instr {i : IR.Instr} (hi : i.OnIntegers) (h : OnIntegers lines) :
    OnIntegers (.instr i :: lines) := by
  intro j hj
  rcases List.mem_cons.1 hj with heq | hj
  · cases heq
    exact hi
  · exact h j hj

lemma label {l : IR.Label} (h : OnIntegers lines) : OnIntegers (.label l :: lines) := by
  intro j hj
  rcases List.mem_cons.1 hj with heq | hj
  · cases heq
  · exact h j hj

lemma append (h : OnIntegers lines) (h' : OnIntegers lines') : OnIntegers (lines ++ lines') := by
  intro i hi
  rcases List.mem_append.1 hi with hi | hi
  · exact h i hi
  · exact h' i hi

lemma instrs {code : List IR.Instr} (h : ∀ i ∈ code, i.OnIntegers) :
    OnIntegers (instrLines code) := by
  intro i hi
  obtain ⟨j, hj, heq⟩ := List.mem_map.1 hi
  cases heq
  exact h i hj

end OnIntegers

/-! ## Expressions -/

variable {Γ : Env}

lemma onIntegers_snoc {code : List IR.Instr} {i : IR.Instr} (hcode : ∀ j ∈ code, j.OnIntegers)
    (hi : i.OnIntegers) : ∀ j ∈ code ++ [i], j.OnIntegers :=
  List.forall_mem_append.2 ⟨hcode, List.forall_mem_singleton.2 hi⟩

lemma Expr.onIntegers_lowerArgs {args : List Expr}
    (h : ∀ e ∈ args, e.Annotated Γ ∧ e.Plain ∧
      ∀ t l, e.lower t = .ok l → ∀ i ∈ l.code, i.OnIntegers) :
    ∀ t a, Expr.lowerArgs args t = .ok a → ∀ i ∈ a.code, i.OnIntegers := by
  induction args with
  | nil =>
    intro t a ha
    rw [Expr.lowerArgs] at ha
    cases ha
    exact fun _ hi => by cases hi
  | cons e rest ih =>
    intro t a ha
    obtain ⟨⟨hann, hplain, hlower⟩, hrest⟩ := List.forall_mem_cons.1 h
    obtain ⟨l, more, hl, hmore, rfl⟩ := Expr.exists_of_lowerArgs_cons hann ha
    rw [hplain.typeOf] at hmore ⊢
    exact List.forall_mem_append.2 ⟨hlower t l hl, ih hrest _ more hmore⟩

/-- An index that is an integer needs no widening. -/
lemma onIntegers_lowerAddress {index : LoweredExpr} (h : ∀ i ∈ index.code, i.OnIntegers)
    (name : String) (size : Nat) :
    ∀ i ∈ (lowerAddress name size index .int).code, i.OnIntegers :=
  onIntegers_snoc h trivial

/-- The code of a plain expression. -/
lemma Expr.Plain.onIntegers_lower {e : Expr} (hplain : e.Plain) (hann : e.Annotated Γ) :
    ∀ t l, e.lower t = .ok l → ∀ i ∈ l.code, i.OnIntegers := by
  induction hplain with
  | integer =>
    intro t l h
    cases hann
    rw [Expr.lower_integer] at h
    cases h
    exact fun _ hi => nomatch hi
  | var =>
    intro t l h
    cases hann with
    | var hscalar =>
      obtain ⟨_, rfl | rfl⟩ := hscalar
      · rw [Expr.lower_var] at h
        cases h
        exact List.forall_mem_singleton.2 trivial
      · rw [Expr.lower_arg] at h
        cases h
        exact fun _ hi => nomatch hi
  | element hplain ih =>
    intro t l h
    cases hann with
    | element harray hindex _ =>
      obtain ⟨_, size, rfl⟩ := harray
      obtain ⟨i, address, hi, rfl, rfl⟩ := Expr.exists_of_lower_element hindex h
      rw [hplain.typeOf]
      exact onIntegers_snoc (onIntegers_lowerAddress (ih hindex t i hi) _ _) trivial
  | arith _ _ ihl ihr =>
    intro t lowered h
    cases hann with
    | arith hleft _ hright _ =>
      obtain ⟨l, r, hl, hr, rfl⟩ := Expr.exists_of_lower_arith h
      have hboth := List.forall_mem_append.2 ⟨ihl hleft t l hl, ihr hright _ r hr⟩
      exact onIntegers_snoc hboth trivial
  | call hplain ih =>
    intro t lowered h
    cases hann with
    | call _ hargs =>
      obtain ⟨a, ha, rfl⟩ := Expr.exists_of_lower_call h
      have hcode := Expr.onIntegers_lowerArgs
        (fun e he => ⟨hargs e he, hplain e he, ih e he (hargs e he)⟩) t a ha
      exact onIntegers_snoc hcode trivial

lemma Expr.Plain.onIntegers_lowerInt {e : Expr} (hplain : e.Plain) (hann : e.Annotated Γ)
    {t : Nat} {lowered : LoweredExpr} (h : e.lowerInt t = .ok lowered) :
    ∀ i ∈ lowered.code, i.OnIntegers := by
  obtain ⟨l, hl, rfl⟩ := Expr.exists_of_lowerInt hann h
  rw [hplain.typeOf]
  exact hplain.onIntegers_lower hann t l hl

/-- Both operands of a condition are integers, so they are compared as integers. -/
lemma Expr.PlainCondition.onIntegers_lower {e : Expr} (hplain : e.PlainCondition)
    (hann : e.Annotated Γ) {t : Nat} {lowered : LoweredExpr} (h : e.lower t = .ok lowered) :
    ∀ i ∈ lowered.code, i.OnIntegers := by
  obtain ⟨hplainLeft, hplainRight⟩ := hplain
  cases hann with
  | compare hleft hright =>
    obtain ⟨l, r, hl, hr, rfl⟩ := Expr.exists_of_lower_compare hleft hright h
    have hboth := List.forall_mem_append.2
      ⟨hplainLeft.onIntegers_lower hleft t l hl, hplainRight.onIntegers_lower hright _ r hr⟩
    rw [hplainLeft.typeOf, hplainRight.typeOf, lowerComparison, if_pos rfl]
    exact onIntegers_snoc hboth rfl

/-! ## Statements -/

lemma Stmt.onIntegers_lowerAll {body : List Stmt}
    (h : ∀ s ∈ body, ∀ c l, s.lower c = .ok l → OnIntegers l.code) :
    ∀ c l, Stmt.lowerAll body c = .ok l → OnIntegers l.code := by
  induction body with
  | nil =>
    intro c l hl
    rw [Stmt.lowerAll] at hl
    cases hl
    exact .nil
  | cons s rest ih =>
    intro c l hl
    obtain ⟨hs, hrest⟩ := List.forall_mem_cons.1 h
    obtain ⟨first, more, hfirst, hmore, rfl⟩ := Stmt.exists_of_lowerAll_cons hl
    exact (hs c first hfirst).append (ih hrest _ more hmore)

/-- The lines of a plain statement. -/
lemma Stmt.Plain.onIntegers_lower {s : Stmt} (hplain : s.Plain) (hann : s.Annotated Γ) :
    ∀ c l, s.lower c = .ok l → OnIntegers l.code := by
  induction hplain with
  | assignVar hplainValue =>
    intro c l h
    cases hann with
    | assign _ hvalue _ =>
      obtain ⟨v, stored, hv, hstored, rfl⟩ := Stmt.exists_of_lower_assign h
      obtain ⟨_, rfl⟩ := Target.lowerStore_var_inv hstored
      exact .instrs (onIntegers_snoc (hplainValue.onIntegers_lowerInt hvalue hv) trivial)
  | @assignElement name _ _ _ _ _ hplainIndex hplainValue =>
    intro c l h
    cases hann with
    | assign htarget hvalue _ =>
      cases htarget with
      | element harray hindex _ =>
        obtain ⟨_, size, rfl⟩ := harray
        obtain ⟨v, stored, hv, hstored, rfl⟩ := Stmt.exists_of_lower_assign h
        obtain ⟨i, hi, rfl⟩ := Target.exists_of_lowerStore_element hindex hstored
        have hcode := hplainValue.onIntegers_lowerInt hvalue hv
        have haddress :=
          onIntegers_lowerAddress (hplainIndex.onIntegers_lower hindex _ i hi) name size
        rw [hplainIndex.typeOf]
        exact .instrs (onIntegers_snoc (List.forall_mem_append.2 ⟨hcode, haddress⟩) trivial)
  | print hplainValue =>
    intro c l h
    cases hann with
    | print hvalue =>
      obtain ⟨v, hv, rfl⟩ := Stmt.exists_of_lower_print h
      exact .instrs (onIntegers_snoc (hplainValue.onIntegers_lowerInt hvalue hv) trivial)
  | read =>
    intro c l h
    obtain ⟨slot, _, rfl⟩ := Stmt.exists_of_lower_read h
    exact .instr trivial .nil
  | ret hplainValue =>
    intro c l h
    cases hann with
    | ret hvalue =>
      obtain ⟨v, hv, rfl⟩ := Stmt.exists_of_lower_ret h
      exact .instrs (onIntegers_snoc (hplainValue.onIntegers_lowerInt hvalue hv) trivial)
  | branch hplainCondition _ _ ihyes ihno =>
    intro c l h
    cases hann with
    | branch hcondition _ hyes hno =>
      obtain ⟨test, y, n, htest, hy, hn, rfl⟩ := Stmt.exists_of_lower_branch h
      have htestCode := hplainCondition.onIntegers_lower hcondition htest
      have hyesCode := Stmt.onIntegers_lowerAll (fun s hs => ihyes s hs (hyes s hs)) _ y hy
      have hnoCode := Stmt.onIntegers_lowerAll (fun s hs => ihno s hs (hno s hs)) _ n hn
      refine (OnIntegers.instrs htestCode).append (.instr trivial (.label ?_))
      refine hyesCode.append (.instr trivial (.label ?_))
      exact hnoCode.append (.instr trivial (.label .nil))
  | loop hplainCondition _ ih =>
    intro c l h
    cases hann with
    | loop hcondition _ hbody =>
      obtain ⟨test, b, htest, hb, rfl⟩ := Stmt.exists_of_lower_loop h
      have htestCode := hplainCondition.onIntegers_lower hcondition htest
      have hbodyCode := Stmt.onIntegers_lowerAll (fun s hs => ih s hs (hbody s hs)) _ b hb
      refine .instr trivial (.label ?_)
      refine (OnIntegers.instrs htestCode).append (.instr trivial (.label ?_))
      exact hbodyCode.append (.instr trivial (.label .nil))
  | block _ ih =>
    intro c l h
    cases hann with
    | block hbody =>
      rw [Stmt.lower] at h
      exact Stmt.onIntegers_lowerAll (fun s hs => ih s hs (hbody s hs)) c l h

/-! ## Modules -/

lemma onIntegers_slots (slots : List VarDef) :
    OnIntegers (instrLines (slots.flatMap VarDef.lower)) := by
  have hslot (d : VarDef) : ∀ i ∈ d.lower, i.OnIntegers := by
    cases d with
    | scalar name => exact List.forall_mem_cons.2 ⟨trivial, List.forall_mem_singleton.2 trivial⟩
    | array name size => exact List.forall_mem_singleton.2 trivial
  refine .instrs fun i hi => ?_
  obtain ⟨d, _, hi⟩ := List.mem_flatMap.1 hi
  exact hslot d i hi

lemma Program.plain_of_mem_units {p : Program} (hplain : p.Plain) {finalReturn : Bool}
    {unit : FunctionDecl × Bool} (h : unit ∈ p.units finalReturn) : ∀ s ∈ unit.1.body, s.Plain := by
  rcases List.mem_append.1 h with h | h
  · obtain ⟨f, hf, rfl⟩ := List.mem_map.1 h
    exact hplain.functions f hf
  · cases List.mem_singleton.1 h
    exact hplain.body

/-- The functions of the module of a plain program. -/
lemma Program.onIntegers_of_lower {p : Program} (hann : p.Annotated) (hplain : p.Plain)
    {finalReturn : Bool} {m : IR.Module} {counters : Counters}
    (h : (p.lower finalReturn).result = .ok (m, counters)) {g : IR.Function}
    (hg : g ∈ m.functions) : OnIntegers g.lines := by
  obtain ⟨f, final, c, c', hunit, hf⟩ := (Program.lowersTo h).exists_of_mem hg
  obtain ⟨Γ, _, hbody⟩ := Program.exists_env_of_mem_units hann hunit
  have hplainBody := Program.plain_of_mem_units hplain hunit
  obtain ⟨l, hl, _, rfl⟩ := FunctionDecl.lower_inv hf
  have hlines := Stmt.onIntegers_lowerAll
    (fun s hs => (hplainBody s hs).onIntegers_lower (hbody s hs)) c l hl
  refine (((OnIntegers.nil.label).append (onIntegers_slots _)).append hlines).append ?_
  cases final with
  | true => exact .instr trivial .nil
  | false => exact .nil

/-! ## Source texts -/

/-- If the tree of a source text is rejected, then for one of its names. -/
lemma aboutName_of_parseSource {source : String} {p : Program} {illegals : List IllegalCharacter}
    (hparse : (parseSource source).result = .ok (p, illegals)) {e : SemanticError}
    (h : p.analyze.result = .error e) : e.AboutName := by
  refine Analyzer.faultsNames_visit (a := .fresh) .empty (plain_of_parseSource hparse) e ?_
  have hresult : (Analyzer.fresh.visit p).result = .error e := h
  rw [Visit.result] at hresult
  cases hverdict : (Analyzer.fresh.visit p).verdict with
  | ok _ =>
    rw [hverdict] at hresult
    cases hresult
  | error e' =>
    rw [hverdict] at hresult
    cases hresult
    rfl

/-- **Type errors cannot be reached from source texts.**  The analysis of a source text succeeds, or
it fails with a parse error, an undeclared variable, an undeclared function or a redeclared name;
and in the module of a source text that compiles, no instruction widens a truth value and every
comparison is one of integers. -/
theorem source_types_fit (source : String) :
    ((∃ annotated illegals, (analyzeSource source).result = .ok (annotated, illegals)) ∨
      (∃ e, (analyzeSource source).result = .error (.parse e)) ∨
      (∃ name, (analyzeSource source).result = .error (.semantic (.undeclaredVariable name))) ∨
      (∃ name arguments,
        (analyzeSource source).result = .error (.semantic (.undeclaredFunction name arguments))) ∨
      ∃ name, (analyzeSource source).result = .error (.semantic (.redeclared name))) ∧
    ∀ options text, (compileSource options source).result = .ok text →
      ∃ p illegals annotated m counters, (parseSource source).result = .ok (p, illegals) ∧
        p.analyze.result = .ok annotated ∧
        (annotated.lower options.finalReturn).result = .ok (m, counters) ∧
        text = m.text options.pointers ∧ m.HasText options.pointers text ∧
        ∀ g ∈ m.functions, ∀ i, .instr i ∈ g.lines →
          (∀ into value, i ≠ .widen into value) ∧
            ∀ into op ty left right, i = .compare into op ty left right → ty = .int := by
  constructor
  · rcases analyzeSource_cases source with hfailed | ⟨p, illegals, hparse, hok | ⟨e, he, hfailed⟩⟩
    · exact .inr (.inl hfailed)
    · obtain ⟨annotated, hok⟩ := hok
      exact .inl ⟨annotated, illegals, hok⟩
    · refine .inr (.inr ?_)
      cases aboutName_of_parseSource hparse he with
      | undeclaredVariable name => exact .inl ⟨name, hfailed⟩
      | undeclaredFunction name arguments => exact .inr (.inl ⟨name, arguments, hfailed⟩)
      | redeclared name => exact .inr (.inr ⟨name, hfailed⟩)
  · intro options text h
    obtain ⟨p, illegals, annotated, m, counters, hparse, hanalyze, hlower, htext⟩ :=
      exists_of_compileSource h
    obtain ⟨hbare, _, hann⟩ := Analyzer.of_result_eq_ok hanalyze
    have hplain : annotated.Plain := by
      rw [← annotated.plain_bare_iff, hbare, p.plain_bare_iff]
      exact plain_of_parseSource hparse
    refine ⟨p, illegals, annotated, m, counters, hparse, hanalyze, hlower, htext,
      IR.Module.hasText_iff.2 htext, ?_⟩
    intro g hg i hi
    have hints : i.OnIntegers := Program.onIntegers_of_lower hann hplain hlower hg i hi
    constructor
    · rintro into value rfl
      exact hints
    · rintro into op ty left right rfl
      exact hints

/-- Compares sums, elements and results of calls, in branches and in loops. -/
def comparingSource : String :=
  "max(n, m); \x7b if (n < m) \x7b return m \x7d; return n \x7d " ++
    "int x, a[3]; \x7b while (x + 1 <= a[max(x, 2)] * 2) " ++
    "\x7b if (max(x, 1) != a[0]) \x7b x = x + 1 \x7d else \x7b print(x) \x7d \x7d \x7d"

theorem source_types_fit_comparing :
    ∃ text m, (compileSource { pointers := .typed, finalReturn := true }
        comparingSource).result = .ok text ∧ text = IR.Module.text .typed m ∧
      m.HasText .typed text ∧
      ∀ g ∈ m.functions, ∀ i, .instr i ∈ g.lines →
        (∀ into value, i ≠ .widen into value) ∧
          ∀ into op ty left right, i = .compare into op ty left right → ty = .int := by
  have hcompiles : (compileSource { pointers := .typed, finalReturn := true }
      comparingSource).result.toOption.isSome := by decide +kernel
  obtain ⟨text, hsome⟩ := Option.isSome_iff_exists.1 hcompiles
  have htext := eq_ok_of_toOption_eq_some hsome
  obtain ⟨_, _, _, m, _, _, _, _, hmodule, hints⟩ :=
    (source_types_fit comparingSource).2 _ text htext
  exact ⟨text, m, htext, hmodule, hints⟩

end DLang
