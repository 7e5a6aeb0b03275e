import DLang.Proofs.Static.Interleaving

/-!
# One more function in front

A function that is put in front of all declarations of a program is seen at every place of it: as a
function that can be called, and as a name that is taken.  If no declaration of the program has its
name, every place keeps what it could refer to before, and can refer to one function more
(`Env.Extends`).  So what was annotated stays annotated, as it was
(`Stmt.Annotated.of_extends`).

The function itself sees nothing of what comes after it.  Hence a program is accepted with the
function in front if it is accepted without it and the function is accepted alone, and what is
generated is what would be generated from the two annotated parts put together
(`Program.generate_withFunction`).
-/

namespace DLang

/-! ## Places that can call more -/

/-- A place that knows the same names as another and can call the same functions, and maybe more. -/
structure Env.Extends (Γ' Γ : Env) : Prop where
  own : Γ'.own = Γ.own
  callable : ∀ {name : String} {arity : Nat}, Γ.callable name arity → Γ'.callable name arity

namespace Env.Extends

variable {Γ Γ' : Env} {name : String} {symbol : Symbol}

lemma isScalar (hΓ : Γ'.Extends Γ) (h : Γ.IsScalar name symbol) : Γ'.IsScalar name symbol :=
  ⟨hΓ.own ▸ h.1, h.2⟩

lemma isArray (hΓ : Γ'.Extends Γ) (h : Γ.IsArray name symbol) : Γ'.IsArray name symbol :=
  ⟨hΓ.own ▸ h.1, h.2⟩

end Env.Extends

section Extends

variable {Γ Γ' : Env} (hΓ : Γ'.Extends Γ)

include hΓ

lemma Expr.Annotated.of_extends {e : Expr} (h : e.Annotated Γ) : e.Annotated Γ' := by
  induction h with
  | integer => exact .integer
  | var hs => exact .var (hΓ.isScalar hs)
  | element hs _ hint ih => exact .element (hΓ.isArray hs) ih hint
  | arith _ hl _ hr ihl ihr => exact .arith ihl hl ihr hr
  | compare _ _ ihl ihr => exact .compare ihl ihr
  | call hcall _ ih => exact .call (hΓ.callable hcall) ih

lemma Target.Annotated.of_extends {target : Target} (h : target.Annotated Γ) :
    target.Annotated Γ' := by
  cases h with
  | var hs => exact .var (hΓ.isScalar hs)
  | element hs hindex hint => exact .element (hΓ.isArray hs) (hindex.of_extends hΓ) hint

/-- What is annotated at a place is so at a place that can call more. -/
lemma Stmt.Annotated.of_extends {s : Stmt} (h : s.Annotated Γ) : s.Annotated Γ' := by
  induction h with
  | assign htarget hvalue hint =>
    exact .assign (htarget.of_extends hΓ) (hvalue.of_extends hΓ) hint
  | print hvalue => exact .print (hvalue.of_extends hΓ)
  | read hs => exact .read (hΓ.isScalar hs)
  | ret hvalue => exact .ret (hvalue.of_extends hΓ)
  | branch hcondition hbool _ _ ihyes ihno =>
    exact .branch (hcondition.of_extends hΓ) hbool ihyes ihno
  | loop hcondition hbool _ ih => exact .loop (hcondition.of_extends hΓ) hbool ih
  | block _ ih => exact .block ih

end Extends

/-! ## Annotated trees follow the rules -/

section WellTyped

variable {Γ : Env}

lemma Expr.Annotated.wellTyped {e : Expr} (h : e.Annotated Γ) : e.WellTyped Γ := by
  induction h with
  | integer => exact .integer
  | var hs => exact .var hs
  | element hs _ hint ih => exact .element hs ih hint
  | arith _ hl _ hr ihl ihr => exact .arith ihl hl ihr hr
  | compare _ _ ihl ihr => exact .compare ihl ihr
  | call hcall _ ih => exact .call hcall ih

lemma Target.Annotated.wellTyped {target : Target} (h : target.Annotated Γ) :
    target.WellTyped Γ := by
  cases h with
  | var hs => exact .var hs
  | element hs hindex hint => exact .element hs hindex.wellTyped hint

lemma Stmt.Annotated.wellTyped {s : Stmt} (h : s.Annotated Γ) : s.WellTyped Γ := by
  induction h with
  | assign htarget hvalue hint => exact .assign htarget.wellTyped hvalue.wellTyped hint
  | print hvalue => exact .print hvalue.wellTyped
  | read hs => exact .read hs
  | ret hvalue => exact .ret hvalue.wellTyped
  | branch hcondition hbool _ _ ihyes ihno => exact .branch hcondition.wellTyped hbool ihyes ihno
  | loop hcondition hbool _ ih => exact .loop hcondition.wellTyped hbool ih
  | block _ ih => exact .block ih

end WellTyped

/-! ## The program with the function in front -/

/-- The program with a function in front of all its declarations. -/
def Program.withFunction (g : FunctionDecl) (p : Program) : Program where
  declarations := some (.function g :: p.declarationList)
  body := p.body

/-- The program that has a function and nothing else. -/
def FunctionDecl.alone (g : FunctionDecl) : Program where
  declarations := some [.function g]
  body := []

namespace Program

variable (g : FunctionDecl) (p : Program)

lemma functions_withFunction : (p.withFunction g).functions = g :: p.functions :=
  rfl

lemma varDefs_withFunction : (p.withFunction g).varDefs = p.varDefs :=
  rfl

/-- The body of the program can call the function, too. -/
lemma extends_env_withFunction : (p.withFunction g).env.Extends p.env := by
  refine ⟨rfl, ?_⟩
  rintro name arity ⟨⟨f, hf, hname, harity⟩, hvar⟩
  exact ⟨⟨f, List.mem_cons_of_mem g hf, hname, harity⟩, hvar⟩

end Program

/-- With one more function before it, a function can call one more. -/
lemma FunctionDecl.extends_env_cons (f g : FunctionDecl) (before : List Decl) :
    (f.env (.function g :: before)).Extends (f.env before) := by
  refine ⟨rfl, ?_⟩
  rintro name arity ⟨⟨h, hh, hname, harity⟩, hparam, hlocal, hvar⟩
  exact ⟨⟨h, List.mem_cons_of_mem g hh, hname, harity⟩, hparam, hlocal, hvar⟩

namespace Program

variable {g : FunctionDecl} {p : Program}

lemma wellFormed_withFunction (hp : p.WellFormed) (hpann : p.Annotated) (hg : g.alone.WellFormed)
    (hfresh : g.name ∉ p.declarationList.flatMap Decl.names) : (p.withFunction g).WellFormed := by
  obtain ⟨hnames, hfunctions, _⟩ := p.wellFormed_iff.1 hp
  rw [(perm_flatMap_names p.declarationList).mem_iff, ← p.varDefs_eq, ← p.functions_eq] at hfresh
  refine (wellFormed_iff _).2 ⟨?_, ?_, fun s hs => ?_⟩
  · rw [varDefs_withFunction, functions_withFunction, List.map_cons]
    exact List.nodup_middle.2 (List.nodup_cons.2 ⟨hfresh, hnames⟩)
  · intro before f after hsplit
    rw [functions_withFunction] at hsplit
    cases before with
    | nil =>
      obtain ⟨rfl, _⟩ := List.cons.inj hsplit
      exact (g.alone.wellFormed_iff.1 hg).2.1 [] g [] rfl
    | cons first before =>
      obtain ⟨rfl, hrest⟩ := List.cons.inj hsplit
      have hf := hfunctions before f after hrest
      refine ⟨hf.unreserved, hf.distinct, fun s hs => ?_⟩
      have hs' := hpann.of_functions hp hrest s hs
      exact (hs'.of_extends (f.extends_env_cons g (before.map Decl.function))).wellTyped
  · exact ((hpann.body s hs).of_extends (extends_env_withFunction g p)).wellTyped

lemma annotated_withFunction (hpann : p.Annotated) (hg : g.alone.Annotated) :
    (p.withFunction g).Annotated := by
  refine ⟨?_, fun s hs => (hpann.body s hs).of_extends (extends_env_withFunction g p)⟩
  intro before f after hsplit
  cases before with
  | nil =>
    cases hsplit
    exact hg.functions [] g [] rfl
  | cons d before =>
    obtain ⟨rfl, hrest⟩ := List.cons.inj hsplit
    intro s hs
    exact (hpann.functions before f after hrest s hs).of_extends (f.extends_env_cons g before)

/-- A tree that is a function alone up to annotations is one. -/
lemma exists_eq_alone {q : Program} (h : q.bare = g.alone.bare) :
    ∃ g' : FunctionDecl, q = g'.alone ∧ g'.bare = g.bare := by
  obtain ⟨declarations, body⟩ := q
  have hdeclarations : declarations.map (List.map Decl.bare) = some [.function g.bare] :=
    congrArg Program.declarations h
  have hbody : Stmt.bareAll body = [] := congrArg Program.body h
  rw [Stmt.bareAll_eq_map, List.map_eq_nil_iff] at hbody
  obtain ⟨list, rfl, hlist⟩ := Option.map_eq_some_iff.1 hdeclarations
  obtain ⟨d, rfl, hd⟩ := List.map_eq_singleton_iff.1 hlist
  cases d with
  | vars group => cases hd
  | function g' => exact ⟨g', by rw [hbody]; rfl, Decl.function.inj hd⟩

lemma bare_withFunction (g : FunctionDecl) (p : Program) :
    (p.withFunction g).bare = { declarations := some (.function g.bare :: p.bare.declarationList)
                                body := p.bare.body } := by
  rw [declarationList_bare]
  rfl

/-- Trees that are annotated and differ in annotations only give the same module. -/
lemma generate_eq_of_bare_eq {q : Program} (hp : p.Annotated) (hq : q.Annotated)
    (hpwell : p.WellFormed) (hqwell : q.WellFormed) (hbare : q.bare = p.bare) (options : Options) :
    q.generate options = p.generate options := by
  have hfunctions : q.functions.map FunctionDecl.bare = p.functions.map FunctionDecl.bare := by
    rw [← q.functions_bare, hbare, p.functions_bare]
  have hvarDefs : q.varDefs = p.varDefs := by
    rw [← q.varDefs_bare, hbare, p.varDefs_bare]
  have henv : q.env = p.env := by
    rw [← programEnv_bare q, hbare, programEnv_bare p]
  have hbody : q.body = p.body :=
    Stmt.eq_of_bareAll_eq (unambiguous_env hpwell) hp.body (henv ▸ hq.body)
      (congrArg Program.body hbare)
  exact generate_eq (functions_eq_of_map_bare_eq hp hq hpwell hqwell hfunctions) hvarDefs hbody
    options

/-- **A function in front is accepted**, if it is accepted alone and its name is free.  What is
generated is what the two annotated parts put together give. -/
lemma generate_withFunction {p' q : Program} (hp : p.analyze.result = .ok p')
    (hg : g.alone.analyze.result = .ok q)
    (hfresh : g.name ∉ p.declarationList.flatMap Decl.names) :
    ∃ (g' : FunctionDecl) (whole : Program), q = g'.alone ∧
      (p.withFunction g).analyze.result = .ok whole ∧
      ∀ options, whole.generate options = (p'.withFunction g').generate options := by
  obtain ⟨hpbare, hpwell, hpann⟩ := Analyzer.of_result_eq_ok hp
  obtain ⟨hqbare, hqwell, hqann⟩ := Analyzer.of_result_eq_ok hg
  obtain ⟨g', rfl, hg'⟩ := exists_eq_alone hqbare
  have hfresh' : g'.name ∉ p'.declarationList.flatMap Decl.names := by
    have hname : g'.bare.name = g.bare.name := congrArg FunctionDecl.name hg'
    rwa [show g'.name = g.name from hname, ← p'.names_bare, hpbare, p.names_bare]
  have hwell := wellFormed_withFunction hpwell hpann hqwell hfresh'
  have hbare : (p'.withFunction g').bare = (p.withFunction g).bare := by
    rw [bare_withFunction, bare_withFunction, hg', hpbare]
  have hverdict : (Analyzer.fresh.visit (p.withFunction g)).verdict = .ok () := by
    rwa [Analyzer.fresh_visit_ok_iff, ← wellFormed_bare_iff, ← hbare, wellFormed_bare_iff]
  have hresult : (p.withFunction g).analyze.result =
      .ok (Analyzer.fresh.visit (p.withFunction g)).tree := by
    show (Analyzer.fresh.visit (p.withFunction g)).result = _
    rw [Visit.result, hverdict]
    rfl
  obtain ⟨hwholebare, hwholewell, hwholeann⟩ := Analyzer.of_result_eq_ok hresult
  exact ⟨g', _, rfl, hresult, generate_eq_of_bare_eq (annotated_withFunction hpann hqann) hwholeann
    hwell hwholewell (hwholebare.trans hbare.symm)⟩

end Program

end DLang
