import DLang.Compile
import DLang.Proofs.Module.Linkage
import DLang.Proofs.Static.Analysis
import Mathlib.Data.List.Perm.Basic

/-!
# Variables of the program among its functions

A program declares its variables and its functions in one list, in any order.  Analysis goes through
that list from the front and has one scope for both, so the scope in which a function is checked
holds a variable of the program or not, depending on where the two stand.  This file shows that
nothing comes of it.

A function sees no variable of the program.  It might see one where it looks for a function to call,
but all names of the program's scope are distinct: a name that a function has is not that of a
variable.  So the place inside a function depends on the functions before it alone
(`functionEnv_eq`), and whether a program is well formed depends on its functions, its variables and
its body, each taken by itself (`Program.wellFormed_iff`).

An annotation is determined by the place, since a place knows a name as one symbol at most
(`Stmt.Annotated.eq_of_bare_eq`).  Two programs that differ only in how functions and variable
groups are interleaved are therefore annotated alike, and the lowered module is the same
(`Analyzer.visit_interleaved`).
-/

namespace DLang

/-- The variable groups that a program declares, in order. -/
def Program.variableGroups (p : Program) : List (List VarDef) :=
  p.declarationList.filterMap fun
    | .vars group => some group
    | .function _ => none

lemma Program.varDefs_eq_flatten (p : Program) : p.varDefs = p.variableGroups.flatten := by
  unfold Program.varDefs Program.variableGroups
  induction p.declarationList with
  | nil => rfl
  | cons d rest ih =>
    rw [List.flatMap_cons, ih, List.filterMap_cons]
    cases d <;> rfl

/-! ## Annotations are determined by the place -/

/-- The place knows a name as one symbol at most. -/
def Env.Unambiguous (Γ : Env) : Prop :=
  ∀ s s', Γ.own s → Γ.own s' → s.name = s'.name → s = s'

namespace Env.Unambiguous

variable {Γ : Env} {name : String} {s s' : Symbol}

lemma isScalar (hΓ : Γ.Unambiguous) (h : Γ.IsScalar name s) (h' : Γ.IsScalar name s') :
    s' = s := by
  have hname : s.name = name := by
    rcases h.2 with rfl | rfl <;> rfl
  have hname' : s'.name = name := by
    rcases h'.2 with rfl | rfl <;> rfl
  exact hΓ s' s h'.1 h.1 (hname'.trans hname.symm)

lemma isArray (hΓ : Γ.Unambiguous) (h : Γ.IsArray name s) (h' : Γ.IsArray name s') : s' = s := by
  obtain ⟨hown, size, rfl⟩ := h
  obtain ⟨hown', size', rfl⟩ := h'
  exact hΓ _ _ hown' hown rfl

end Env.Unambiguous

/-- Lists are equal if their images are and equal images come from equal members. -/
lemma eq_of_map_eq_map {α β : Type} {f : α → β} {list list' : List α}
    (hmap : list'.map f = list.map f)
    (hinj : ∀ a ∈ list, ∀ a' ∈ list', f a' = f a → a' = a) : list' = list := by
  induction list generalizing list' with
  | nil => exact List.map_eq_nil_iff.1 hmap
  | cons a rest ih =>
    obtain ⟨a', rest', rfl, hhead, htail⟩ := List.map_eq_cons_iff.1 hmap
    have hfirst : a' = a := hinj a List.mem_cons_self a' List.mem_cons_self hhead
    have hrest : rest' = rest := ih htail fun b hb b' hb' =>
      hinj b (List.mem_cons_of_mem a hb) b' (List.mem_cons_of_mem a' hb')
    rw [hfirst, hrest]

/-- The same for lists that may be absent. -/
lemma eq_of_map_map_eq {α β : Type} {f : α → β} {list list' : Option (List α)}
    (hmap : list'.map (List.map f) = list.map (List.map f))
    (hinj : ∀ a ∈ list.getD [], ∀ a' ∈ list'.getD [], f a' = f a → a' = a) : list' = list := by
  cases list with
  | none => exact Option.map_eq_none_iff.1 hmap
  | some list =>
    obtain ⟨list', rfl, heq⟩ := Option.map_eq_some_iff.1 hmap
    rw [eq_of_map_eq_map heq hinj]

section Annotated

variable {Γ : Env} (hΓ : Γ.Unambiguous)

include hΓ

lemma Expr.Annotated.eq_of_bare_eq {e e' : Expr} (h : e.Annotated Γ) (h' : e'.Annotated Γ)
    (hbare : e'.bare = e.bare) : e' = e := by
  induction h generalizing e' with
  | integer =>
    cases h' with
    | integer =>
      cases hbare
      rfl
    | _ => simp [Expr.bare, Expr.bare_call] at hbare
  | var hs =>
    cases h' with
    | var hs' =>
      cases hbare
      rw [hΓ.isScalar hs hs']
    | _ => simp [Expr.bare, Expr.bare_call] at hbare
  | element hs _ _ ih =>
    cases h' with
    | element hs' hindex' =>
      simp only [Expr.bare, Expr.element.injEq, and_true] at hbare
      obtain ⟨rfl, hindex⟩ := hbare
      rw [hΓ.isArray hs hs', ih hindex' hindex]
    | _ => simp [Expr.bare, Expr.bare_call] at hbare
  | arith _ _ _ _ ihl ihr =>
    cases h' with
    | arith hl' _ hr' =>
      simp only [Expr.bare, Expr.arith.injEq, and_true] at hbare
      obtain ⟨rfl, hleft, hright⟩ := hbare
      rw [ihl hl' hleft, ihr hr' hright]
    | _ => simp [Expr.bare, Expr.bare_call] at hbare
  | compare _ _ ihl ihr =>
    cases h' with
    | compare hl' hr' =>
      simp only [Expr.bare, Expr.compare.injEq, and_true] at hbare
      obtain ⟨rfl, hleft, hright⟩ := hbare
      rw [ihl hl' hleft, ihr hr' hright]
    | _ => simp [Expr.bare, Expr.bare_call] at hbare
  | call _ _ ih =>
    cases h' with
    | call _ hargs' =>
      simp only [Expr.bare_call, Expr.call.injEq, and_true] at hbare
      obtain ⟨rfl, hargs⟩ := hbare
      rw [eq_of_map_map_eq hargs fun e he e' he' heq => ih e he (hargs' e' he') heq]
    | _ => simp [Expr.bare, Expr.bare_call] at hbare

lemma Target.Annotated.eq_of_bare_eq {target target' : Target} (h : target.Annotated Γ)
    (h' : target'.Annotated Γ) (hbare : target'.bare = target.bare) : target' = target := by
  cases h with
  | var hs =>
    cases h' with
    | var hs' =>
      cases hbare
      rw [hΓ.isScalar hs hs']
    | _ => cases hbare
  | element hs hindex =>
    cases h' with
    | element hs' hindex' =>
      simp only [Target.bare, Target.element.injEq, and_true] at hbare
      obtain ⟨rfl, heq⟩ := hbare
      rw [hΓ.isArray hs hs', hindex.eq_of_bare_eq hΓ hindex' heq]
    | _ => cases hbare

/-- Two statements that are annotated at one place are equal, if they are so up to annotations. -/
lemma Stmt.Annotated.eq_of_bare_eq {s s' : Stmt} (h : s.Annotated Γ) (h' : s'.Annotated Γ)
    (hbare : s'.bare = s.bare) : s' = s := by
  induction h generalizing s' with
  | assign htarget hvalue =>
    cases h' with
    | assign htarget' hvalue' =>
      simp only [Stmt.bare, Stmt.assign.injEq, and_true] at hbare
      obtain ⟨heq, hvalueEq⟩ := hbare
      rw [htarget.eq_of_bare_eq hΓ htarget' heq, hvalue.eq_of_bare_eq hΓ hvalue' hvalueEq]
    | branch => cases (Stmt.bare_branch _ _ _).symm.trans hbare
    | _ => cases hbare
  | print hvalue =>
    cases h' with
    | print hvalue' =>
      rw [hvalue.eq_of_bare_eq hΓ hvalue' (Stmt.print.inj hbare)]
    | branch => cases (Stmt.bare_branch _ _ _).symm.trans hbare
    | _ => cases hbare
  | read hs =>
    cases h' with
    | read hs' =>
      cases hbare
      rw [hΓ.isScalar hs hs']
    | branch => cases (Stmt.bare_branch _ _ _).symm.trans hbare
    | _ => cases hbare
  | ret hvalue =>
    cases h' with
    | ret hvalue' =>
      rw [hvalue.eq_of_bare_eq hΓ hvalue' (Stmt.ret.inj hbare)]
    | branch => cases (Stmt.bare_branch _ _ _).symm.trans hbare
    | _ => cases hbare
  | branch hcondition _ _ _ ihyes ihno =>
    rw [Stmt.bare_branch] at hbare
    cases h' with
    | branch hcondition' _ hyes' hno' =>
      simp only [Stmt.bare_branch, Stmt.branch.injEq] at hbare
      obtain ⟨hcond, hyes, hno⟩ := hbare
      rw [hcondition.eq_of_bare_eq hΓ hcondition' hcond,
        eq_of_map_eq_map hyes fun s hs s' hs' heq => ihyes s hs (hyes' s' hs') heq,
        eq_of_map_map_eq hno fun s hs s' hs' heq => ihno s hs (hno' s' hs') heq]
    | _ => cases hbare
  | loop hcondition _ _ ih =>
    cases h' with
    | loop hcondition' _ hbody' =>
      simp only [Stmt.bare, Stmt.bareAll_eq_map, Stmt.loop.injEq] at hbare
      obtain ⟨hcond, hbody⟩ := hbare
      rw [hcondition.eq_of_bare_eq hΓ hcondition' hcond,
        eq_of_map_eq_map hbody fun s hs s' hs' heq => ih s hs (hbody' s' hs') heq]
    | branch => cases (Stmt.bare_branch _ _ _).symm.trans hbare
    | _ => cases hbare
  | block _ ih =>
    cases h' with
    | block hbody' =>
      simp only [Stmt.bare, Stmt.bareAll_eq_map, Stmt.block.injEq] at hbare
      rw [eq_of_map_eq_map hbare fun s hs s' hs' heq => ih s hs (hbody' s' hs') heq]
    | branch => cases (Stmt.bare_branch _ _ _).symm.trans hbare
    | _ => cases hbare

lemma Stmt.eq_of_bareAll_eq {body body' : List Stmt} (h : ∀ s ∈ body, s.Annotated Γ)
    (h' : ∀ s ∈ body', s.Annotated Γ) (hbare : Stmt.bareAll body' = Stmt.bareAll body) :
    body' = body := by
  rw [Stmt.bareAll_eq_map, Stmt.bareAll_eq_map] at hbare
  exact eq_of_map_eq_map hbare fun s hs s' hs' heq => (h s hs).eq_of_bare_eq hΓ (h' s' hs') heq

end Annotated

/-! ## Places without the variables of the program -/

/-- The place inside a function is that of the function after the functions before it. -/
lemma functionEnv_eq {f : FunctionDecl} {before : List Decl}
    (hnodup : ((before ++ [Decl.function f]).flatMap Decl.names).Nodup) :
    f.env before = f.env ((before.flatMap Decl.functions).map Decl.function) := by
  have hfunctions : ((before.flatMap Decl.functions).map Decl.function).flatMap Decl.functions =
      before.flatMap Decl.functions := by
    rw [List.flatMap_map]
    exact List.flatMap_singleton' _
  have hvarDefs :
      ((before.flatMap Decl.functions).map Decl.function).flatMap Decl.varDefs = [] := by
    rw [List.flatMap_map]
    exact List.flatMap_eq_nil_iff.2 fun _ _ => rfl
  have hcallable : (f.env before).callable =
      (f.env ((before.flatMap Decl.functions).map Decl.function)).callable := by
    funext name arity
    simp only [FunctionDecl.env, hfunctions, hvarDefs, List.map_nil, List.not_mem_nil,
      not_false_eq_true, and_true, eq_iff_iff]
    constructor
    · rintro ⟨hcall, hparam, hlocal, _⟩
      exact ⟨hcall, hparam, hlocal⟩
    · rintro ⟨hcall, hparam, hlocal⟩
      refine ⟨hcall, hparam, hlocal, ?_⟩
      -- The name is that of a function, so it is taken.
      obtain ⟨g, hg, rfl, _⟩ := hcall
      have hg' : g ∈ (before ++ [Decl.function f]).flatMap Decl.functions := by
        rw [List.flatMap_append]
        exact hg
      have hfree := notMem_varDefs_of_function hnodup hg'
      rw [List.flatMap_append, List.map_append] at hfree
      exact fun hmem => hfree (List.mem_append_left _ hmem)
  exact congrArg (Env.mk (fun symbol => symbol ∈ f.innerSymbols)) hcallable

/-- All names of the program's scope, the variables' first. -/
lemma perm_flatMap_names (list : List Decl) :
    (list.flatMap Decl.names).Perm ((list.flatMap Decl.varDefs).map VarDef.name ++
      (list.flatMap Decl.functions).map FunctionDecl.name) := by
  induction list with
  | nil => exact .nil
  | cons d rest ih =>
    rw [List.flatMap_cons, List.flatMap_cons, List.flatMap_cons, List.map_append, List.map_append]
    cases d with
    | vars group =>
      rw [List.append_assoc]
      exact ih.append_left _
    | function f => exact (ih.cons f.name).trans List.perm_middle.symm

/-- Some declarations with a function at their end, among those of a program with distinct names. -/
lemma nodup_names_of_split {list before after : List Decl} {d : Decl}
    (hnodup : (list.flatMap Decl.names).Nodup) (hsplit : list = before ++ d :: after) :
    ((before ++ [d]).flatMap Decl.names).Nodup := by
  rw [hsplit, List.append_cons, List.flatMap_append] at hnodup
  exact hnodup.of_append_left

/-- A function is well formed among declarations if it is so among the functions before it. -/
lemma FunctionDecl.wellFormed_iff {f : FunctionDecl} {before : List Decl}
    (hnodup : ((before ++ [Decl.function f]).flatMap Decl.names).Nodup) :
    f.WellFormed before ↔ f.WellFormed ((before.flatMap Decl.functions).map Decl.function) := by
  have henv := functionEnv_eq hnodup
  constructor
  · rintro ⟨hreserved, hdistinct, hbody⟩
    exact ⟨hreserved, hdistinct, henv ▸ hbody⟩
  · rintro ⟨hreserved, hdistinct, hbody⟩
    exact ⟨hreserved, hdistinct, henv ▸ hbody⟩

/-- **What decides whether a program is well formed**: its variables, its functions and its body,
each taken by itself. -/
lemma Program.wellFormed_iff (p : Program) :
    p.WellFormed ↔
      (p.varDefs.map VarDef.name ++ p.functions.map FunctionDecl.name).Nodup ∧
        (∀ before f after, p.functions = before ++ f :: after →
          f.WellFormed (before.map Decl.function)) ∧
        ∀ s ∈ p.body, s.WellTyped p.env := by
  have hnames := perm_flatMap_names p.declarationList
  rw [← p.varDefs_eq, ← p.functions_eq] at hnames
  constructor
  · rintro ⟨hdistinct, hfunctions, hbody⟩
    refine ⟨hnames.nodup_iff.1 hdistinct, ?_, hbody⟩
    intro before f after hsplit
    obtain ⟨earlier, later, hdecls, rfl⟩ := Program.exists_split_of_functions hsplit
    apply (FunctionDecl.wellFormed_iff (nodup_names_of_split hdistinct hdecls)).1
    exact hfunctions earlier f later hdecls
  · rintro ⟨hnodup, hfunctions, hbody⟩
    have hdistinct := hnames.nodup_iff.2 hnodup
    refine ⟨hdistinct, ?_, hbody⟩
    intro before f after hsplit
    apply (FunctionDecl.wellFormed_iff (nodup_names_of_split hdistinct hsplit)).2
    apply hfunctions _ f (after.flatMap Decl.functions)
    rw [p.functions_eq, hsplit, List.flatMap_append, List.flatMap_cons]
    rfl

/-- The body of each function is annotated at a place that the functions before it give. -/
lemma Program.Annotated.of_functions {p : Program} (h : p.Annotated) (hwell : p.WellFormed)
    {before after : List FunctionDecl} {f : FunctionDecl}
    (hsplit : p.functions = before ++ f :: after) :
    ∀ s ∈ f.body, s.Annotated (f.env (before.map Decl.function)) := by
  obtain ⟨earlier, later, hdecls, rfl⟩ := Program.exists_split_of_functions hsplit
  rw [← functionEnv_eq (nodup_names_of_split hwell.distinct hdecls)]
  exact h.functions earlier f later hdecls

/-! ## Interleavings -/

lemma FunctionDecl.unambiguous_env {f : FunctionDecl} {before : List Decl}
    (hdistinct : (f.paramList ++ f.localList.map VarDef.name).Nodup) :
    (f.env before).Unambiguous := by
  rw [← f.names_innerSymbols] at hdistinct
  exact fun s s' hs hs' hname => List.inj_on_of_nodup_map hdistinct hs hs' hname

lemma Program.unambiguous_env {p : Program} (hwell : p.WellFormed) : p.env.Unambiguous := by
  have hnodup := Program.nodup_names_varDefs hwell.distinct
  have hsymbols : ((p.varDefs.map VarDef.symbol).map Symbol.name).Nodup := by
    simpa [Function.comp_def] using hnodup
  exact fun s s' hs hs' hname => List.inj_on_of_nodup_map hsymbols hs hs' hname

/-- The annotated functions of a program are determined by the functions without annotations. -/
lemma Program.functions_eq_of_map_bare_eq {p q : Program} (hp : p.Annotated) (hq : q.Annotated)
    (hpwell : p.WellFormed) (hqwell : q.WellFormed)
    (hbare : q.functions.map FunctionDecl.bare = p.functions.map FunctionDecl.bare) :
    q.functions = p.functions := by
  have hlength : q.functions.length = p.functions.length := by
    simpa using congrArg List.length hbare
  refine List.ext_getElem hlength fun i hi hi' => ?_
  have hsplit : p.functions = p.functions.take i ++ p.functions[i] :: p.functions.drop (i + 1) := by
    rw [List.getElem_cons_drop, List.take_append_drop]
  have hsplit' :
      q.functions = q.functions.take i ++ q.functions[i] :: q.functions.drop (i + 1) := by
    rw [List.getElem_cons_drop, List.take_append_drop]
  have hf : q.functions[i].bare = p.functions[i].bare := by
    have := congrArg (fun list => list[i]?) hbare
    simpa [hi, hi'] using this
  have hbefore : ((q.functions.take i).map Decl.function).map Decl.bare =
      ((p.functions.take i).map Decl.function).map Decl.bare := by
    have := congrArg (fun list => (list.take i).map Decl.function) hbare
    simpa [List.map_take, Function.comp_def, Decl.bare] using this
  -- The two functions stand at the same place, and it determines the annotations of their bodies.
  have henv := functionEnv_eq_of_bare_eq hf hbefore
  have hdistinct := ((p.wellFormed_iff.1 hpwell).2.1 _ _ _ hsplit).distinct
  have hbody := hp.of_functions hpwell hsplit
  have hbody' := hq.of_functions hqwell hsplit'
  rw [henv] at hbody'
  have hbodies : q.functions[i].body = p.functions[i].body :=
    Stmt.eq_of_bareAll_eq (FunctionDecl.unambiguous_env hdistinct) hbody hbody'
      (congrArg FunctionDecl.body hf)
  generalize q.functions[i] = g at hf hbodies
  generalize p.functions[i] = f at hf hbodies
  obtain ⟨name, params, locals, body⟩ := f
  obtain ⟨name', params', locals', body'⟩ := g
  simp only [FunctionDecl.bare, FunctionDecl.mk.injEq] at hf
  obtain ⟨rfl, rfl, rfl, _⟩ := hf
  rw [show body' = body from hbodies]

/-- Lowering reads the functions, the variables and the body of a program, and nothing else. -/
lemma Program.generate_eq {p q : Program} (hfunctions : q.functions = p.functions)
    (hvarDefs : q.varDefs = p.varDefs) (hbody : q.body = p.body) (options : Options) :
    q.generate options = p.generate options := by
  simp only [Program.generate, Program.lower, Program.lowerMain, hfunctions, hvarDefs, hbody]

namespace Analyzer

/-- **Variables commute with functions.**  Take two programs with the same body, the same functions
in the same order and the same variable groups in the same order, which differ only in how functions
and groups are interleaved.  A fresh analyser accepts both or neither.  If it accepts them, every
choice of options gives the same module, or the same error, for the two annotated trees. -/
theorem visit_interleaved {p q : Program} (hbody : q.body = p.body)
    (hfunctions : q.functions = p.functions) (hgroups : q.variableGroups = p.variableGroups) :
    ((Analyzer.fresh.visit q).verdict = .ok () ↔ (Analyzer.fresh.visit p).verdict = .ok ()) ∧
      ∀ p' q', (Analyzer.fresh.visit p).result = .ok p' → (Analyzer.fresh.visit q).result = .ok q' →
        ∀ options, q'.generate options = p'.generate options := by
  have hvarDefs : q.varDefs = p.varDefs := by
    rw [q.varDefs_eq_flatten, p.varDefs_eq_flatten, hgroups]
  have henv : q.env = p.env := by
    unfold Program.env
    rw [hvarDefs, hfunctions]
  refine ⟨?_, ?_⟩
  · rw [fresh_visit_ok_iff, fresh_visit_ok_iff, q.wellFormed_iff, p.wellFormed_iff, hvarDefs,
      hfunctions, hbody, henv]
  · intro p' q' hp hq options
    obtain ⟨hpbare, hpwell, hpann⟩ := of_result_eq_ok hp
    obtain ⟨hqbare, hqwell, hqann⟩ := of_result_eq_ok hq
    have hfunctions' : q'.functions.map FunctionDecl.bare = p'.functions.map FunctionDecl.bare := by
      rw [← q'.functions_bare, ← p'.functions_bare, hqbare, hpbare, q.functions_bare,
        p.functions_bare, hfunctions]
    have hvarDefs' : q'.varDefs = p'.varDefs := by
      rw [← q'.varDefs_bare, ← p'.varDefs_bare, hqbare, hpbare, q.varDefs_bare, p.varDefs_bare,
        hvarDefs]
    have henv' : q'.env = p'.env := by
      rw [← programEnv_bare q', ← programEnv_bare p', hqbare, hpbare, programEnv_bare,
        programEnv_bare, henv]
    have hbodyBare : Stmt.bareAll q'.body = Stmt.bareAll p'.body := by
      have hqbody : Stmt.bareAll q'.body = Stmt.bareAll q.body := congrArg Program.body hqbare
      have hpbody : Stmt.bareAll p'.body = Stmt.bareAll p.body := congrArg Program.body hpbare
      rw [hqbody, hpbody, hbody]
    have hbody' : q'.body = p'.body :=
      Stmt.eq_of_bareAll_eq (Program.unambiguous_env hpwell) hpann.body (henv' ▸ hqann.body)
        hbodyBare
    exact Program.generate_eq
      (Program.functions_eq_of_map_bare_eq hpann hqann hpwell hqwell hfunctions') hvarDefs' hbody'
      options

/-- A function with a parameter that has the name of a variable of the program. -/
def identityDecl : FunctionDecl :=
  { name := "f", params := some ["x"], locals := none, body := [.ret (.var "x" none none)] }

/-- A function that calls the one before it. -/
def callerDecl : FunctionDecl :=
  { name := "g", params := none, locals := some [.scalar "v"],
    body := [.ret (.call "f" (some [.integer 1 none]) none)] }

/-- A program that uses both functions and two variables of its own. -/
def interleaving (declarations : List Decl) : Program :=
  { declarations := some declarations
    body := [.assign (.element "v" (.integer 0 none) none) (.call "g" none none) none none,
      .read "x" none] }

/-- The variables in front of the functions. -/
def variablesFirst : Program :=
  interleaving [.vars [.scalar "x"], .vars [.array "v" 2], .function identityDecl,
    .function callerDecl]

/-- Each variable after a function. -/
def functionsFirst : Program :=
  interleaving [.function identityDecl, .vars [.scalar "x"], .function callerDecl,
    .vars [.array "v" 2]]

theorem visit_variablesFirst :
    functionsFirst.declarationList.map Decl.names ≠ variablesFirst.declarationList.map Decl.names ∧
      ∃ p' q', (fresh.visit variablesFirst).result = .ok p' ∧
        (fresh.visit functionsFirst).result = .ok q' ∧
        ∀ options, q'.generate options = p'.generate options := by
  obtain ⟨-, hgenerate⟩ :=
    visit_interleaved (p := variablesFirst) (q := functionsFirst) rfl rfl rfl
  exact ⟨by decide, _, _, rfl, rfl, hgenerate _ _ rfl rfl⟩

end Analyzer

end DLang
