import DLang.Proofs.Compilation.Stages
import DLang.Proofs.Lowering.Units
import DLang.Proofs.Module.Format
import DLang.Proofs.Static.Analysis

/-!
# The calls of a module

Lowering looks up no function: it writes a call with the name and the arguments of the tree.  That
the function is there, and has as many parameters as the call has arguments, was settled by analysis
(`Env.callable`), for each place of the program.  Functions are lowered in the order in which they
are declared, so what could be called in a function's place is what the module defines up to that
function.

The main result is `compileSource_linkage`.
-/

namespace DLang

variable {Γ : Env}

/-! ## Calls in lowered code -/

/-- A call is to a function that is allowed, by name and number of arguments. -/
def IR.Instr.CallAllowed (allowed : String → Nat → Prop) : IR.Instr → Prop
  | .call _ function args => allowed function args.length
  | _ => True

section Expressions

variable {allowed : String → Nat → Prop} {code : List IR.Instr} {t : Nat}

lemma callAllowed_emitResult {instr : Nat → IR.Instr} (h : ∀ i ∈ code, i.CallAllowed allowed)
    (hinstr : (instr (t + 1)).CallAllowed allowed) :
    ∀ i ∈ (emitResult code t instr).code, i.CallAllowed allowed := by
  intro i hi
  rcases List.mem_append.1 hi with hi | hi
  · exact h i hi
  · cases List.mem_singleton.1 hi
    exact hinstr

lemma callAllowed_widenAfter {value : IR.Operand} {ty : Ty}
    (h : ∀ i ∈ code, i.CallAllowed allowed) :
    ∀ i ∈ (widenAfter code value ty t).code, i.CallAllowed allowed := by
  cases ty with
  | int => exact h
  | bool => exact callAllowed_emitResult h trivial

lemma callAllowed_append {code' : List IR.Instr} (h : ∀ i ∈ code, i.CallAllowed allowed)
    (h' : ∀ i ∈ code', i.CallAllowed allowed) : ∀ i ∈ code ++ code', i.CallAllowed allowed :=
  List.forall_mem_append.2 ⟨h, h'⟩

lemma callAllowed_lowerAddress {name : String} {size : Nat} {index : LoweredExpr} {ty : Ty}
    (h : ∀ i ∈ index.code, i.CallAllowed allowed) :
    ∀ i ∈ (lowerAddress name size index ty).code, i.CallAllowed allowed :=
  callAllowed_emitResult (callAllowed_widenAfter h) trivial

lemma callAllowed_lowerComparison {op : RelOp} {l r : LoweredExpr} {lty rty : Ty}
    (hl : ∀ i ∈ l.code, i.CallAllowed allowed) (hr : ∀ i ∈ r.code, i.CallAllowed allowed) :
    ∀ i ∈ (lowerComparison op l lty r rty).code, i.CallAllowed allowed := by
  have hboth := callAllowed_append hl hr
  rw [lowerComparison]
  split
  · exact callAllowed_emitResult hboth trivial
  · exact callAllowed_emitResult (callAllowed_widenAfter (callAllowed_widenAfter hboth)) trivial

end Expressions

/-- A call passes as many operands as it has arguments. -/
lemma Expr.length_values_lowerArgs {args : List Expr} :
    ∀ t a, Expr.lowerArgs args t = .ok a → a.values.length = args.length := by
  induction args with
  | nil =>
    intro t a ha
    rw [Expr.lowerArgs] at ha
    cases ha
    rfl
  | cons e rest ih =>
    intro t a ha
    obtain ⟨l, ty, more, _, _, hmore, rfl⟩ := Expr.lowerArgs_cons_inv ha
    rw [List.length_cons, List.length_cons, ih _ more hmore]

lemma Expr.callAllowed_lowerArgs {args : List Expr} {allowed : String → Nat → Prop}
    (h : ∀ e ∈ args, ∀ t l, e.lower t = .ok l → ∀ i ∈ l.code, i.CallAllowed allowed) :
    ∀ t a, Expr.lowerArgs args t = .ok a → ∀ i ∈ a.code, i.CallAllowed allowed := by
  induction args with
  | nil =>
    intro t a ha
    rw [Expr.lowerArgs] at ha
    cases ha
    intro i hi
    cases hi
  | cons e rest ih =>
    intro t a ha
    obtain ⟨l, ty, more, hl, _, hmore, rfl⟩ := Expr.lowerArgs_cons_inv ha
    have hfirst := h e List.mem_cons_self t l hl
    have hrest := ih (fun d hd => h d (List.mem_cons_of_mem e hd)) _ more hmore
    exact callAllowed_append (callAllowed_widenAfter hfirst) hrest

/-- The calls in the code of an expression are those that its place allows. -/
lemma Expr.callAllowed_lower {e : Expr} (hann : e.Annotated Γ) :
    ∀ t l, e.lower t = .ok l → ∀ i ∈ l.code, i.CallAllowed Γ.callable := by
  induction hann with
  | integer =>
    intro t l h
    rw [Expr.lower_integer] at h
    cases h
    exact fun i hi => nomatch hi
  | var hscalar =>
    intro t l h
    obtain ⟨_, rfl | rfl⟩ := hscalar
    · rw [Expr.lower_var] at h
      cases h
      exact callAllowed_emitResult (fun i hi => nomatch hi) trivial
    · rw [Expr.lower_arg] at h
      cases h
      exact fun i hi => nomatch hi
  | element _ _ _ ih =>
    intro t l h
    obtain ⟨_, i, _, _, _, hi, _, rfl, rfl⟩ := Expr.lower_element_inv h
    exact callAllowed_emitResult (callAllowed_lowerAddress (ih t i hi)) trivial
  | arith _ _ _ _ ihl ihr =>
    intro t lowered h
    obtain ⟨l, r, hl, hr, rfl⟩ := Expr.exists_of_lower_arith h
    exact callAllowed_emitResult (callAllowed_append (ihl t l hl) (ihr _ r hr)) trivial
  | compare _ _ ihl ihr =>
    intro t lowered h
    obtain ⟨l, r, _, _, hl, hr, _, _, rfl⟩ := Expr.lower_compare_inv h
    exact callAllowed_lowerComparison (ihl t l hl) (ihr _ r hr)
  | @call name args hcallable _ ih =>
    intro t lowered h
    obtain ⟨a, ha, rfl⟩ := Expr.exists_of_lower_call h
    refine callAllowed_emitResult (Expr.callAllowed_lowerArgs ih t a ha) ?_
    rw [IR.Instr.CallAllowed, Expr.length_values_lowerArgs t a ha]
    exact hcallable

lemma Expr.callAllowed_lowerInt {e : Expr} (hann : e.Annotated Γ) {t : Nat} {v : LoweredExpr}
    (h : e.lowerInt t = .ok v) : ∀ i ∈ v.code, i.CallAllowed Γ.callable := by
  obtain ⟨l, ty, hl, _, rfl⟩ := Expr.lowerInt_inv h
  exact callAllowed_widenAfter (Expr.callAllowed_lower hann t l hl)

/-! ## Calls in lowered statements -/

/-- All calls among the lines are allowed. -/
def CallsAllowed (allowed : String → Nat → Prop) (lines : List IR.Line) : Prop :=
  ∀ i, .instr i ∈ lines → i.CallAllowed allowed

namespace CallsAllowed

variable {allowed : String → Nat → Prop} {lines lines' : List IR.Line}

lemma nil : CallsAllowed allowed [] :=
  fun _ h => nomatch h

lemma append (h : CallsAllowed allowed lines) (h' : CallsAllowed allowed lines') :
    CallsAllowed allowed (lines ++ lines') := by
  intro i hi
  rcases List.mem_append.1 hi with hi | hi
  · exact h i hi
  · exact h' i hi

lemma label {l : IR.Label} (h : CallsAllowed allowed lines) :
    CallsAllowed allowed (.label l :: lines) := by
  intro i hi
  rcases List.mem_cons.1 hi with heq | hi
  · cases heq
  · exact h i hi

lemma instr {i : IR.Instr} (hi : i.CallAllowed allowed) (h : CallsAllowed allowed lines) :
    CallsAllowed allowed (.instr i :: lines) := by
  intro j hj
  rcases List.mem_cons.1 hj with heq | hj
  · cases heq
    exact hi
  · exact h j hj

lemma instrs {code : List IR.Instr} (h : ∀ i ∈ code, i.CallAllowed allowed) :
    CallsAllowed allowed (instrLines code) := by
  intro i hi
  obtain ⟨j, hj, heq⟩ := List.mem_map.1 hi
  cases heq
  exact h i hj

/-- Straight code, then an instruction that is no call. -/
lemma instrs_snoc {code : List IR.Instr} {i : IR.Instr} (h : ∀ i ∈ code, i.CallAllowed allowed)
    (hi : i.CallAllowed allowed) : CallsAllowed allowed (instrLines (code ++ [i])) := by
  rw [instrLines, List.map_append]
  exact (instrs h).append (nil.instr hi)

end CallsAllowed

lemma Stmt.callsAllowed_lowerAll {body : List Stmt} {allowed : String → Nat → Prop}
    (h : ∀ s ∈ body, ∀ c l, s.lower c = .ok l → CallsAllowed allowed l.code) :
    ∀ c l, Stmt.lowerAll body c = .ok l → CallsAllowed allowed l.code := by
  induction body with
  | nil =>
    intro c l hl
    rw [Stmt.lowerAll] at hl
    cases hl
    exact .nil
  | cons s rest ih =>
    intro c l hl
    obtain ⟨first, more, hfirst, hmore, rfl⟩ := Stmt.exists_of_lowerAll_cons hl
    have hs := h s List.mem_cons_self c first hfirst
    exact hs.append (ih (fun d hd => h d (List.mem_cons_of_mem s hd)) _ more hmore)

/-- The calls in the lines of a statement are those that its place allows. -/
lemma Stmt.callsAllowed_lower {s : Stmt} (hann : s.Annotated Γ) :
    ∀ c l, s.lower c = .ok l → CallsAllowed Γ.callable l.code := by
  induction hann with
  | @assign target value htarget hvalue _ =>
    intro c l h
    obtain ⟨v, stored, hv, hstored, rfl⟩ := Stmt.exists_of_lower_assign h
    have hcode := Expr.callAllowed_lowerInt hvalue hv
    cases htarget with
    | var _ =>
      obtain ⟨_, rfl⟩ := Target.lowerStore_var_inv hstored
      exact .instrs_snoc hcode trivial
    | element _ hindex _ =>
      obtain ⟨_, i, _, _, hi, _, rfl⟩ := Target.lowerStore_element_inv hstored
      have hlowered := Expr.callAllowed_lower hindex _ i hi
      exact .instrs_snoc (callAllowed_append hcode (callAllowed_lowerAddress hlowered)) trivial
  | print hvalue =>
    intro c l h
    obtain ⟨v, hv, rfl⟩ := Stmt.exists_of_lower_print h
    exact .instrs_snoc (Expr.callAllowed_lowerInt hvalue hv) trivial
  | read _ =>
    intro c l h
    obtain ⟨slot, _, rfl⟩ := Stmt.exists_of_lower_read h
    exact .instr trivial .nil
  | ret hvalue =>
    intro c l h
    obtain ⟨v, hv, rfl⟩ := Stmt.exists_of_lower_ret h
    exact .instrs_snoc (Expr.callAllowed_lowerInt hvalue hv) trivial
  | branch hcondition _ _ _ ihyes ihno =>
    intro c l h
    obtain ⟨test, y, n, htest, hy, hn, rfl⟩ := Stmt.exists_of_lower_branch h
    have htested := CallsAllowed.instrs (Expr.callAllowed_lower hcondition _ test htest)
    have hyes := Stmt.callsAllowed_lowerAll ihyes _ y hy
    have hno := Stmt.callsAllowed_lowerAll ihno _ n hn
    exact htested.append (.instr trivial (.label (hyes.append (.instr trivial (.label
      (hno.append (.instr trivial (.label .nil))))))))
  | loop hcondition _ _ ih =>
    intro c l h
    obtain ⟨test, b, htest, hb, rfl⟩ := Stmt.exists_of_lower_loop h
    have htested := CallsAllowed.instrs (Expr.callAllowed_lower hcondition _ test htest)
    have hbody := Stmt.callsAllowed_lowerAll ih _ b hb
    exact .instr trivial (.label (htested.append (.instr trivial (.label
      (hbody.append (.instr trivial (.label .nil)))))))
  | block _ ih =>
    intro c l h
    rw [Stmt.lower] at h
    exact Stmt.callsAllowed_lowerAll ih c l h

lemma FunctionDecl.callsAllowed_of_lower {f : FunctionDecl} {finalReturn : Bool} {c c' : Counters}
    {g : IR.Function} (hann : ∀ s ∈ f.body, s.Annotated Γ)
    (h : f.lower finalReturn c = .ok (g, c')) : CallsAllowed Γ.callable g.lines := by
  obtain ⟨l, hl, _, rfl⟩ := FunctionDecl.lower_inv h
  have hslots : ∀ i ∈ f.localList.flatMap VarDef.lower, i.CallAllowed Γ.callable := by
    intro i hi
    obtain ⟨d, _, hi⟩ := List.mem_flatMap.1 hi
    cases d with
    | scalar name => rcases List.mem_pair.1 hi with rfl | rfl <;> exact trivial
    | array name size =>
      cases List.mem_singleton.1 hi
      exact trivial
  have hbody := Stmt.callsAllowed_lowerAll (fun s hs => Stmt.callsAllowed_lower (hann s hs)) c l hl
  have hhead : CallsAllowed Γ.callable
      ([.label .entry] ++ instrLines (f.localList.flatMap VarDef.lower)) :=
    .label (.instrs hslots)
  refine (hhead.append hbody).append ?_
  cases finalReturn with
  | false => exact .nil
  | true => exact .instr trivial .nil

/-! ## Declarations and functions -/

/-- The declarations around a function of the program. -/
lemma Program.exists_split_of_functions {p : Program} {before after : List FunctionDecl}
    {f : FunctionDecl} (h : p.functions = before ++ f :: after) :
    ∃ earlier later, p.declarationList = earlier ++ .function f :: later ∧
      earlier.flatMap Decl.functions = before := by
  rw [Program.functions_eq] at h
  generalize p.declarationList = list at h ⊢
  induction list generalizing before with
  | nil => simp at h
  | cons d rest ih =>
    rw [List.flatMap_cons] at h
    cases d with
    | vars group =>
      obtain ⟨earlier, later, hrest, hbefore⟩ := ih h
      exact ⟨.vars group :: earlier, later, by rw [hrest, List.cons_append], hbefore⟩
    | function f' =>
      cases before with
      | nil =>
        obtain ⟨rfl, _⟩ := List.cons.inj h
        exact ⟨[], rest, rfl, rfl⟩
      | cons first before =>
        obtain ⟨rfl, htail⟩ := List.cons.inj h
        obtain ⟨earlier, later, hrest, hbefore⟩ := ih htail
        refine ⟨.function f' :: earlier, later, by rw [hrest, List.cons_append], ?_⟩
        rw [List.flatMap_cons, hbefore]
        rfl

/-- What can be called in a function is declared up to that function, and from the body of the
program every function can. -/
lemma Program.exists_env_of_units_eq {p : Program} (hann : p.Annotated) {finalReturn : Bool}
    {before after : List (FunctionDecl × Bool)} {unit : FunctionDecl × Bool}
    (h : p.units finalReturn = before ++ unit :: after) :
    ∃ Γ : Env, (∀ s ∈ unit.1.body, s.Annotated Γ) ∧
      ∀ name arity, Γ.callable name arity → ∃ callee ∈ p.functions,
        callee ∈ (before ++ [unit]).map Prod.fst ∧ callee.name = name ∧
        callee.paramList.length = arity := by
  rw [Program.units] at h
  rcases List.eq_nil_or_concat after with rfl | ⟨rest, last, rfl⟩
  · -- The last unit is the body of the program.
    obtain ⟨rfl, hunit⟩ := List.append_inj' h rfl
    cases hunit
    refine ⟨p.env, hann.body, ?_⟩
    rintro name arity ⟨⟨callee, hcallee, hname, harity⟩, _⟩
    exact ⟨callee, hcallee, by simp [hcallee], hname, harity⟩
  · have hconcat : before ++ unit :: rest.concat last = before ++ unit :: rest ++ [last] := by simp
    obtain ⟨hfunctions, _⟩ := List.append_inj' (h.trans hconcat) rfl
    obtain ⟨earlier, tail, hsplit, rfl, htail⟩ := List.map_eq_append_iff.1 hfunctions
    obtain ⟨f, later, rfl, rfl, _⟩ := List.map_eq_cons_iff.1 htail
    obtain ⟨declared, others, hdeclarations, hearlier⟩ := Program.exists_split_of_functions hsplit
    refine ⟨f.env declared, hann.functions declared f others hdeclarations, ?_⟩
    rintro name arity ⟨⟨callee, hcallee, hname, harity⟩, _⟩
    rw [hearlier] at hcallee
    refine ⟨callee, ?_, by simpa using hcallee, hname, harity⟩
    rw [hsplit, List.append_cons]
    exact List.mem_append_left later hcallee

/-! ## Modules -/

/-- The names and the calls of a module whose entry is `entry`. -/
structure IR.Module.Linked (entry : IR.Function) (m : IR.Module) : Prop where
  /-- No two functions have one name. -/
  distinct : (m.functions.map IR.Function.name).Nodup
  /-- No function has the name of one that the module only declares. -/
  foreign : ∀ g ∈ m.functions, g.name ≠ "printf" ∧ g.name ≠ "scanf"
  /-- The entry is the one function with the name `main`. -/
  main : m.functions.filter (fun g => g.name = "main") = [entry]
  /-- A call is to a function that was defined before, or to the function that it stands in, and
  passes as many operands as that has parameters. -/
  calls : ∀ earlier g later, m.functions = earlier ++ g :: later →
    ∀ into name args, .instr (.call into name args) ∈ g.lines → name ∉ reservedNames ∧
      ∃ callee ∈ earlier ++ [g], callee.name = name ∧ callee.params.length = args.length

lemma Program.linked_of_lower {p : Program} {finalReturn : Bool} {m : IR.Module}
    {counters : Counters} (hwell : p.WellFormed) (hann : p.Annotated)
    (h : (p.lower finalReturn).result = .ok (m, counters)) :
    ∃ c entry, p.lowerMain c = .ok (entry, counters) ∧ m.Linked entry := by
  have hunreserved : ∀ f ∈ p.functions, f.name ∉ reservedNames := by
    intro f hf
    obtain ⟨before, after, hsplit⟩ := p.mem_functions_iff.1 hf
    exact (hwell.functions before f after hsplit).unreserved
  obtain ⟨list, entry, c, hfunctions, hlowers, hentry⟩ := Program.exists_entry_of_lower h
  have hname : entry.name = "main" := by
    obtain ⟨l, _, _, rfl⟩ := FunctionDecl.lower_inv hentry
    rfl
  have hnames : list.map IR.Function.name = p.functions.map FunctionDecl.name := by
    have hsignatures := congrArg (List.map Prod.fst) hlowers.map_signature
    simpa [Function.comp_def] using hsignatures
  have hlist : ∀ g ∈ list, g.name ∉ reservedNames := by
    intro g hg
    have hmem : g.name ∈ p.functions.map FunctionDecl.name := hnames ▸ List.mem_map_of_mem hg
    obtain ⟨f, hf, heq⟩ := List.mem_map.1 hmem
    exact heq ▸ hunreserved f hf
  refine ⟨c, entry, hentry, ?_, ?_, ?_, ?_⟩
  · rw [hfunctions, List.map_append, hnames, List.nodup_append]
    refine ⟨Program.nodup_names_functions hwell.distinct, List.nodup_singleton _, ?_⟩
    intro s hs s' hs'
    obtain ⟨f, hf, rfl⟩ := List.mem_map.1 hs
    rw [List.map_singleton, List.mem_singleton, hname] at hs'
    rintro rfl
    exact hunreserved f hf (hs' ▸ List.mem_cons_self)
  · intro g hg
    rw [hfunctions] at hg
    rcases List.mem_append.1 hg with hg | hg
    · have hfree := hlist g hg
      simp only [reservedNames, List.mem_cons, not_or] at hfree
      exact ⟨hfree.2.1, hfree.2.2.1⟩
    · rw [List.mem_singleton.1 hg, hname]
      decide
  · have hnone : list.filter (fun g => g.name = "main") = [] := by
      rw [List.filter_eq_nil_iff]
      intro g hg hmain
      exact hlist g hg (of_decide_eq_true hmain ▸ List.mem_cons_self)
    rw [hfunctions, List.filter_append, hnone, List.nil_append]
    simp [hname]
  · intro earlier g later hsplit into name args hcall
    have hunits := Program.lowersTo h
    rw [hsplit] at hunits
    obtain ⟨before, f, _, after, _, _, hbetween, hbefore, hf⟩ := hunits.split
    obtain ⟨Γ, hbody, hcallable⟩ := Program.exists_env_of_units_eq hann hbetween
    have hallowed := FunctionDecl.callsAllowed_of_lower hbody hf _ hcall
    obtain ⟨callee, hcallee, hmem, rfl, harity⟩ := hcallable name args.length hallowed
    refine ⟨hunreserved callee hcallee, ?_⟩
    -- The callee is found among the functions so far by its signature.
    have hsignatures := (hbefore.append (.cons hf .nil)).map_signature
    obtain ⟨unit, hunit, rfl⟩ := List.mem_map.1 hmem
    have hsignature : (unit.1.name, unit.1.paramList) ∈
        (earlier ++ [g]).map fun g => (g.name, g.params) :=
      hsignatures ▸ List.mem_map_of_mem hunit
    obtain ⟨found, hfound, heq⟩ := List.mem_map.1 hsignature
    obtain ⟨hfoundName, hfoundParams⟩ := Prod.mk.inj heq
    exact ⟨found, hfound, hfoundName, hfoundParams ▸ harity⟩

/-- **The calls of a module are linked.**  If a source text compiles, then the functions of the
module have distinct names, none of them one that the module only declares, and the one with the
name `main` is what the body of the program is lowered to.  Every call is to a function that is
defined earlier in the module or to the function that it stands in, passes as many operands as that
function has parameters, and is to none of the reserved names. -/
theorem compileSource_linkage {options : Options} {source text : String}
    (h : (compileSource options source).result = .ok text) :
    ∃ p illegals annotated m counters, (parseSource source).result = .ok (p, illegals) ∧
      p.analyze.result = .ok annotated ∧
      (annotated.lower options.finalReturn).result = .ok (m, counters) ∧
      m.HasText options.pointers text ∧
      ∃ c entry, annotated.lowerMain c = .ok (entry, counters) ∧ m.Linked entry := by
  obtain ⟨p, illegals, annotated, m, counters, hparse, hanalyze, hlower, htext⟩ :=
    exists_of_compileSource h
  obtain ⟨_, hwell, hann⟩ := Analyzer.of_result_eq_ok hanalyze
  exact ⟨p, illegals, annotated, m, counters, hparse, hanalyze, hlower,
    IR.Module.hasText_iff.2 htext, Program.linked_of_lower hwell hann hlower⟩

/-- Calls a function inside an argument of itself, inside an index, and from another function. -/
def callsSource : String :=
  "add(n, m); \x7b return n + m \x7d " ++
    "sum(n); \x7b if (n == 0) \x7b return 0 \x7d; return add(n, sum(n - 1)) \x7d " ++
    "int a[9]; \x7b a[add(1, add(2, 3))] = sum(4); print(a[6]) \x7d"

/-- Calls at any depth are linked. -/
theorem compileSource_linkage_calls :
    ∃ text m entry, (compileSource { pointers := .typed, finalReturn := true }
        callsSource).result = .ok text ∧ IR.Module.HasText .typed m text ∧ m.Linked entry := by
  have hcompiles : (compileSource { pointers := .typed, finalReturn := true }
      callsSource).result.toOption.isSome := by decide +kernel
  obtain ⟨text, hsome⟩ := Option.isSome_iff_exists.1 hcompiles
  have htext := eq_ok_of_toOption_eq_some hsome
  obtain ⟨_, _, _, m, _, _, _, _, hmodule, _, entry, _, hlinked⟩ := compileSource_linkage htext
  exact ⟨text, m, entry, htext, hmodule, hlinked⟩

end DLang
