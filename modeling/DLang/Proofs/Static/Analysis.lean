import DLang.Proofs.Static.Bare
import DLang.Proofs.Static.Places

/-!
# Analysis is sound and complete for the static rules

A fresh analyser accepts a program exactly if the program is well formed, and then annotates it
completely (`visit_ok_iff_wellFormed`).

The invariant of a visit is what its symbol table holds.  After the declarations `before` the table
is the one scope `(before.flatMap Decl.symbols).reverse`, without repeated names; inside a function
`f` the scope `f.innerSymbols.reverse` stands in front of it.  Each step below takes the invariant
at its start, says which rule decides its verdict, and gives the invariant at its end.
-/

namespace DLang

namespace Analyzer

variable {a : Analyzer} {scope : Scope} {outer : List Scope} {before : List Decl}

/-! ## Declaring symbols -/

lemma declaresLocally_iff (htable : a.table = ⟨scope :: outer⟩) {name : String} :
    a.table.declaresLocally name = true ↔ name ∈ scope.map Symbol.name := by
  rw [htable, SymbolTable.declaresLocally]
  show (Scope.find? scope name).isSome = true ↔ _
  rw [Scope.find?, List.find?_isSome]
  simp [List.mem_map]

lemma table_add (htable : a.table = ⟨scope :: outer⟩) (symbol : Symbol) :
    (a.add symbol).table = ⟨(symbol :: scope) :: outer⟩ := by
  show (a.table.add? symbol).getD a.table = _
  rw [htable]
  rfl

/-- A symbol can be declared if its name is free in the innermost scope. -/
lemma declare_of_notMem (htable : a.table = ⟨scope :: outer⟩) {symbol : Symbol}
    (hfree : symbol.name ∉ scope.map Symbol.name) : a.declare symbol = .ok (a.add symbol) := by
  rw [declare, if_neg]
  rwa [declaresLocally_iff htable]

lemma declare_of_mem (htable : a.table = ⟨scope :: outer⟩) {symbol : Symbol}
    (htaken : symbol.name ∈ scope.map Symbol.name) :
    a.declare symbol = .error (.redeclared symbol.name) := by
  rw [declare, if_pos]
  rwa [declaresLocally_iff htable]

/-- Symbols can be declared exactly if this leaves the innermost scope without repeated names. -/
lemma declareAll_ok_iff (htable : a.table = ⟨scope :: outer⟩)
    (hscope : (scope.map Symbol.name).Nodup) (symbols : List Symbol) :
    (a.declareAll symbols).verdict = .ok () ↔
      ((symbols.reverse ++ scope).map Symbol.name).Nodup := by
  induction symbols generalizing a scope with
  | nil => exact ⟨fun _ => hscope, fun _ => rfl⟩
  | cons symbol rest ih =>
    rw [List.reverse_cons, List.append_assoc, List.singleton_append, declareAll]
    by_cases hfree : symbol.name ∈ scope.map Symbol.name
    · rw [declare_of_mem htable hfree]
      constructor
      · intro h
        cases h
      · intro h
        rw [List.map_append, List.map_cons] at h
        exact absurd hfree (List.nodup_cons.1 h.of_append_right).1
    · rw [declare_of_notMem htable hfree]
      exact ih (table_add htable symbol) (List.nodup_cons.2 ⟨hfree, hscope⟩)

/-- Declared symbols stand in front of the innermost scope, the latest first. -/
lemma table_declareAll (htable : a.table = ⟨scope :: outer⟩) {symbols : List Symbol}
    (h : (a.declareAll symbols).verdict = .ok ()) :
    (a.declareAll symbols).analyzer.table = ⟨(symbols.reverse ++ scope) :: outer⟩ := by
  induction symbols generalizing a scope with
  | nil => exact htable
  | cons symbol rest ih =>
    rw [List.reverse_cons, List.append_assoc, List.singleton_append]
    rw [declareAll] at h ⊢
    by_cases hfree : symbol.name ∈ scope.map Symbol.name
    · rw [declare_of_mem htable hfree] at h
      cases h
    · rw [declare_of_notMem htable hfree] at h ⊢
      exact ih (table_add htable symbol) h

/-! ## Functions -/

section Function

variable {f : FunctionDecl}
  (htable : a.table = ⟨[[], ((before ++ [Decl.function f]).flatMap Decl.symbols).reverse]⟩)

include htable

lemma table_visitInside (h : (a.visitInside f).verdict = .ok ()) :
    (a.visitInside f).analyzer.table =
      ⟨[f.innerSymbols.reverse, ((before ++ [Decl.function f]).flatMap Decl.symbols).reverse]⟩ := by
  rw [visitInside] at h ⊢
  cases hdeclared : (a.declareAll f.innerSymbols).verdict with
  | error error =>
    rw [hdeclared] at h
    cases h
  | ok _ => simpa [hdeclared] using table_declareAll htable hdeclared

/-- The inside of a function is accepted if its scope has no repeated name and its body follows the
rules. -/
lemma visitInside_ok_iff (houter : ((before ++ [Decl.function f]).flatMap Decl.names).Nodup) :
    (a.visitInside f).verdict = .ok () ↔
      (f.paramList ++ f.localList.map VarDef.name).Nodup ∧
        ∀ s ∈ f.body, s.WellTyped (f.env before) := by
  have hnames : (f.innerSymbols.reverse ++ []).map Symbol.name =
      (f.paramList ++ f.localList.map VarDef.name).reverse := by
    rw [List.append_nil, List.map_reverse, f.names_innerSymbols]
  have hok := declareAll_ok_iff htable List.nodup_nil f.innerSymbols
  rw [hnames, List.nodup_reverse] at hok
  rw [visitInside]
  cases hdeclared : (a.declareAll f.innerSymbols).verdict with
  | error error =>
    rw [hdeclared] at hok
    constructor
    · intro h
      cases h
    · rintro ⟨hdistinct, _⟩
      cases hok.2 hdistinct
  | ok _ =>
    have hdistinct := hok.1 hdeclared
    have htable' := table_declareAll htable hdeclared
    rw [List.append_nil] at htable'
    show (Stmt.checkAll _ f.body).verdict = .ok () ↔ _
    rw [htable', Stmt.checkAll_ok_iff (shows_functionEnv houter hdistinct)]
    exact ⟨fun hbody => ⟨hdistinct, hbody⟩, fun h => h.2⟩

/-- The inside of an accepted function comes back annotated. -/
lemma annotated_visitInside (houter : ((before ++ [Decl.function f]).flatMap Decl.names).Nodup)
    (h : (a.visitInside f).verdict = .ok ()) :
    ∀ s ∈ (a.visitInside f).tree.body, s.Annotated (f.env before) := by
  have hdistinct := ((visitInside_ok_iff htable houter).1 h).1
  rw [visitInside] at h ⊢
  cases hdeclared : (a.declareAll f.innerSymbols).verdict with
  | error error =>
    rw [hdeclared] at h
    cases h
  | ok _ =>
    have htable' := table_declareAll htable hdeclared
    rw [List.append_nil] at htable'
    simp only [hdeclared, htable'] at h ⊢
    exact Stmt.annotated_checkAll (shows_functionEnv houter hdistinct) h

end Function

/-- A visit of the inside of a function changes nothing but annotations. -/
lemma bare_visitInside (a : Analyzer) (f : FunctionDecl) :
    (a.visitInside f).tree.bare = f.bare := by
  rw [visitInside]
  cases hdeclared : (a.declareAll f.innerSymbols).verdict with
  | error error => rfl
  | ok _ =>
    simp only [FunctionDecl.bare, Stmt.bareAll_eq_map, Stmt.bare_checkAll]

lemma bare_visitFunction (a : Analyzer) (f : FunctionDecl) :
    (a.visitFunction f).tree.bare = f.bare := by
  rw [visitFunction]
  by_cases hreserved : f.name ∈ reservedNames
  · rw [if_pos hreserved]
  · rw [if_neg hreserved]
    cases a.declare f.symbol with
    | error error => rfl
    | ok a' =>
      simp only
      split <;> exact bare_visitInside a'.enter f

lemma nodup_append_function_iff {f : FunctionDecl}
    (hbefore : (before.flatMap Decl.names).Nodup) :
    ((before ++ [Decl.function f]).flatMap Decl.names).Nodup ↔
      f.name ∉ (before.flatMap Decl.symbols).reverse.map Symbol.name := by
  rw [List.map_reverse, List.mem_reverse, ← flatMap_names_eq_map, List.flatMap_append,
    List.nodup_append]
  constructor
  · rintro ⟨_, _, hdisjoint⟩ hmem
    exact hdisjoint f.name hmem f.name List.mem_cons_self rfl
  · intro hfree
    refine ⟨hbefore, List.nodup_singleton f.name, ?_⟩
    intro name hname other hother heq
    rw [List.flatMap_singleton, Decl.names, List.mem_singleton] at hother
    rw [heq, hother] at hname
    exact hfree hname

section Function

variable {f : FunctionDecl} (htable : a.table = ⟨[(before.flatMap Decl.symbols).reverse]⟩)

/-- With a name that can be declared, the inside of a function decides about it. -/
lemma visitFunction_of_free (hreserved : f.name ∉ reservedNames) (htable : a.table = ⟨[scope]⟩)
    (hfree : f.name ∉ scope.map Symbol.name) :
    (a.visitFunction f).verdict = ((a.add f.symbol).enter.visitInside f).verdict ∧
      (a.visitFunction f).tree = ((a.add f.symbol).enter.visitInside f).tree ∧
      ((a.visitFunction f).verdict = .ok () → (a.visitFunction f).analyzer.table =
        ((a.add f.symbol).enter.visitInside f).analyzer.table.exit) := by
  have hdeclare : a.declare f.symbol = .ok (a.add f.symbol) := declare_of_notMem htable hfree
  rw [visitFunction, if_neg hreserved, hdeclare]
  simp only
  cases hinside : ((a.add f.symbol).enter.visitInside f).verdict with
  | error error => exact ⟨rfl, rfl, fun h => nomatch h⟩
  | ok _ => exact ⟨rfl, rfl, fun _ => rfl⟩

include htable

lemma table_add_enter :
    (a.add f.symbol).enter.table =
      ⟨[[], ((before ++ [Decl.function f]).flatMap Decl.symbols).reverse]⟩ := by
  have hadd := table_add htable f.symbol
  show (a.add f.symbol).table.enter = _
  rw [hadd, List.flatMap_append, List.reverse_append]
  rfl

/-- A function is accepted if its name is new and it is well formed where it stands. -/
lemma visitFunction_ok_iff (hbefore : (before.flatMap Decl.names).Nodup) :
    (a.visitFunction f).verdict = .ok () ↔
      ((before ++ [Decl.function f]).flatMap Decl.names).Nodup ∧ f.WellFormed before := by
  by_cases hreserved : f.name ∈ reservedNames
  · rw [visitFunction, if_pos hreserved]
    constructor
    · intro h
      cases h
    · rintro ⟨_, hwell⟩
      exact absurd hreserved hwell.unreserved
  by_cases hfree : f.name ∈ (before.flatMap Decl.symbols).reverse.map Symbol.name
  · have hdeclare : a.declare f.symbol = .error (.redeclared f.name) := declare_of_mem htable hfree
    rw [visitFunction, if_neg hreserved, hdeclare]
    constructor
    · intro h
      cases h
    · rintro ⟨hnodup, _⟩
      exact absurd hfree ((nodup_append_function_iff hbefore).1 hnodup)
  · have hnodup := (nodup_append_function_iff hbefore).2 hfree
    rw [(visitFunction_of_free hreserved htable hfree).1,
      visitInside_ok_iff (table_add_enter htable) hnodup]
    constructor
    · rintro ⟨hdistinct, hbody⟩
      exact ⟨hnodup, hreserved, hdistinct, hbody⟩
    · rintro ⟨_, hwell⟩
      exact ⟨hwell.distinct, hwell.body⟩

/-- After an accepted function its symbol is in the table, and its own scope is gone. -/
lemma table_visitFunction (hbefore : (before.flatMap Decl.names).Nodup)
    (h : (a.visitFunction f).verdict = .ok ()) :
    (a.visitFunction f).analyzer.table =
      ⟨[((before ++ [Decl.function f]).flatMap Decl.symbols).reverse]⟩ := by
  obtain ⟨hnodup, hwell⟩ := (visitFunction_ok_iff htable hbefore).1 h
  have hfree := (nodup_append_function_iff hbefore).1 hnodup
  obtain ⟨hverdict, _, hexit⟩ := visitFunction_of_free hwell.unreserved htable hfree
  rw [hexit h, table_visitInside (table_add_enter htable) (hverdict ▸ h)]
  rfl

lemma annotated_visitFunction (hbefore : (before.flatMap Decl.names).Nodup)
    (h : (a.visitFunction f).verdict = .ok ()) :
    ∀ s ∈ (a.visitFunction f).tree.body, s.Annotated (f.env before) := by
  obtain ⟨hnodup, hwell⟩ := (visitFunction_ok_iff htable hbefore).1 h
  have hfree := (nodup_append_function_iff hbefore).1 hnodup
  obtain ⟨hverdict, htree, _⟩ := visitFunction_of_free hwell.unreserved htable hfree
  rw [htree]
  exact annotated_visitInside (table_add_enter htable) hnodup (hverdict ▸ h)

end Function

/-! ## Declarations -/

lemma bare_visitDecl (a : Analyzer) (d : Decl) : (a.visitDecl d).tree.bare = d.bare := by
  cases d with
  | vars group => rfl
  | function f =>
    rw [visitDecl, Decl.bare, Decl.bare, bare_visitFunction]

/-- The invariant of a visit, step by step: a declaration is accepted if its names are new and, if
it is a function, the function is well formed where it stands. -/
lemma visitDecl_ok_iff (htable : a.table = ⟨[(before.flatMap Decl.symbols).reverse]⟩)
    (hbefore : (before.flatMap Decl.names).Nodup) (d : Decl) :
    (a.visitDecl d).verdict = .ok () ↔
      ((before ++ [d]).flatMap Decl.names).Nodup ∧ ∀ f, d = .function f → f.WellFormed before := by
  cases d with
  | vars group =>
    have hscope : ((before.flatMap Decl.symbols).reverse.map Symbol.name).Nodup := by
      rwa [List.map_reverse, List.nodup_reverse, ← flatMap_names_eq_map]
    show (a.declareAll (group.map VarDef.symbol)).verdict = .ok () ↔ _
    rw [declareAll_ok_iff htable hscope, ← List.reverse_append, List.map_reverse,
      List.nodup_reverse, flatMap_names_eq_map, List.flatMap_append, List.flatMap_singleton]
    constructor
    · exact fun hnodup => ⟨hnodup, fun f h => nomatch h⟩
    · exact fun h => h.1
  | function f =>
    show (a.visitFunction f).verdict = .ok () ↔ _
    rw [visitFunction_ok_iff htable hbefore]
    constructor
    · rintro ⟨hnodup, hwell⟩
      refine ⟨hnodup, ?_⟩
      rintro _ ⟨⟩
      exact hwell
    · rintro ⟨hnodup, hwell⟩
      exact ⟨hnodup, hwell f rfl⟩

lemma table_visitDecl (htable : a.table = ⟨[(before.flatMap Decl.symbols).reverse]⟩)
    (hbefore : (before.flatMap Decl.names).Nodup) {d : Decl}
    (h : (a.visitDecl d).verdict = .ok ()) :
    (a.visitDecl d).analyzer.table = ⟨[((before ++ [d]).flatMap Decl.symbols).reverse]⟩ := by
  cases d with
  | vars group =>
    have hdeclared := table_declareAll htable h
    rw [List.flatMap_append, List.reverse_append, List.flatMap_singleton]
    exact hdeclared
  | function f => exact table_visitFunction htable hbefore h

/-! ## Lists of declarations -/

lemma bare_visitDecls (a : Analyzer) (list : List Decl) :
    (a.visitDecls list).tree.map Decl.bare = list.map Decl.bare := by
  induction list generalizing a with
  | nil => rfl
  | cons d rest ih =>
    rw [visitDecls]
    simp only
    cases hverdict : (a.visitDecl d).verdict with
    | error error => simp only [List.map_cons, bare_visitDecl]
    | ok _ => simp only [List.map_cons, bare_visitDecl, ih]

/-- Declarations are accepted if all names are distinct and each function is well formed where it
stands. -/
lemma visitDecls_ok_iff (htable : a.table = ⟨[(before.flatMap Decl.symbols).reverse]⟩)
    (hbefore : (before.flatMap Decl.names).Nodup) (list : List Decl) :
    (a.visitDecls list).verdict = .ok () ↔
      ((before ++ list).flatMap Decl.names).Nodup ∧
        ∀ mid f after, list = mid ++ .function f :: after → f.WellFormed (before ++ mid) := by
  induction list generalizing a before with
  | nil =>
    constructor
    · intro _
      refine ⟨by rwa [List.append_nil], ?_⟩
      intro mid f after h
      cases mid <;> cases h
    · exact fun _ => rfl
  | cons d rest ih =>
    rw [visitDecls, List.append_cons]
    simp only
    have hstep := visitDecl_ok_iff htable hbefore d
    cases hverdict : (a.visitDecl d).verdict with
    | error error =>
      rw [hverdict] at hstep
      constructor
      · intro h
        cases h
      · rintro ⟨hnodup, hwell⟩
        rw [List.flatMap_append] at hnodup
        have hfirst : ∀ f, d = .function f → f.WellFormed before := by
          rintro f rfl
          simpa using hwell [] f rest rfl
        cases hstep.2 ⟨hnodup.of_append_left, hfirst⟩
    | ok _ =>
      obtain ⟨hnodup, hfirst⟩ := hstep.1 hverdict
      simp only
      rw [ih (table_visitDecl htable hbefore hverdict) hnodup]
      constructor
      · rintro ⟨hall, hrest⟩
        refine ⟨hall, ?_⟩
        rintro mid f after hsplit
        cases mid with
        | nil =>
          cases hsplit
          simpa using hfirst f rfl
        | cons first mid =>
          cases hsplit
          simpa using hrest mid f after rfl
      · rintro ⟨hall, hwell⟩
        refine ⟨hall, ?_⟩
        rintro mid f after rfl
        simpa using hwell (d :: mid) f after rfl

lemma table_visitDecls (htable : a.table = ⟨[(before.flatMap Decl.symbols).reverse]⟩)
    (hbefore : (before.flatMap Decl.names).Nodup) {list : List Decl}
    (h : (a.visitDecls list).verdict = .ok ()) :
    (a.visitDecls list).analyzer.table =
      ⟨[((before ++ list).flatMap Decl.symbols).reverse]⟩ := by
  induction list generalizing a before with
  | nil => rwa [List.append_nil]
  | cons d rest ih =>
    rw [visitDecls] at h ⊢
    rw [List.append_cons]
    simp only at h ⊢
    cases hverdict : (a.visitDecl d).verdict with
    | error error =>
      rw [hverdict] at h
      cases h
    | ok _ =>
      simp only [hverdict] at h ⊢
      have hnodup := ((visitDecl_ok_iff htable hbefore d).1 hverdict).1
      exact ih (table_visitDecl htable hbefore hverdict) hnodup h

/-- The bodies of accepted functions come back annotated. -/
lemma annotated_visitDecls (htable : a.table = ⟨[(before.flatMap Decl.symbols).reverse]⟩)
    (hbefore : (before.flatMap Decl.names).Nodup) {list : List Decl}
    (h : (a.visitDecls list).verdict = .ok ()) :
    ∀ mid f after, (a.visitDecls list).tree = mid ++ .function f :: after →
      ∀ s ∈ f.body, s.Annotated (f.env (before ++ mid)) := by
  induction list generalizing a before with
  | nil =>
    intro mid f after hsplit
    cases mid <;> cases hsplit
  | cons d rest ih =>
    rw [visitDecls] at h ⊢
    simp only at h ⊢
    cases hverdict : (a.visitDecl d).verdict with
    | error error =>
      rw [hverdict] at h
      cases h
    | ok _ =>
      simp only [hverdict] at h ⊢
      have hnodup := ((visitDecl_ok_iff htable hbefore d).1 hverdict).1
      intro mid f after hsplit
      cases mid with
      | nil =>
        obtain ⟨hfirst, _⟩ := List.cons.inj hsplit
        cases d with
        | vars group => cases hfirst
        | function g =>
          cases hfirst
          have henv : (a.visitFunction g).tree.env (before ++ []) = g.env before := by
            rw [List.append_nil]
            exact functionEnv_eq_of_bare_eq (bare_visitFunction a g) rfl
          rw [henv]
          exact annotated_visitFunction htable hbefore hverdict
      | cons first mid =>
        obtain ⟨hfirst, hrest⟩ := List.cons.inj hsplit
        have hann := ih (table_visitDecl htable hbefore hverdict) hnodup h mid f after hrest
        have henv : f.env (before ++ first :: mid) = f.env (before ++ [d] ++ mid) := by
          refine functionEnv_eq_of_bare_eq rfl ?_
          rw [List.append_cons, List.map_append, List.map_append, List.map_append, List.map_append,
            ← hfirst, List.map_singleton, List.map_singleton, bare_visitDecl]
        rw [henv]
        exact hann

/-! ## Programs -/

/-- A visit changes nothing but annotations. -/
lemma bare_visit (a : Analyzer) (p : Program) : (a.visit p).tree.bare = p.bare := by
  have hdecls := bare_visitDecls a.enter p.declarationList
  have hmap : (p.declarations.map fun _ => (a.enter.visitDecls p.declarationList).tree).map
      (fun list => list.map Decl.bare) = p.declarations.map fun list => list.map Decl.bare := by
    cases hdeclarations : p.declarations with
    | none => rfl
    | some list =>
      rw [Program.declarationList, hdeclarations, Option.getD_some] at hdecls
      rw [Program.declarationList, hdeclarations, Option.getD_some]
      simp only [Option.map_some, hdecls]
  rw [visit]
  simp only
  cases (a.enter.visitDecls p.declarationList).verdict with
  | error error => simp only [Program.bare, hmap]
  | ok _ =>
    simp only
    cases (Stmt.checkAll (a.enter.visitDecls p.declarationList).analyzer.table p.body).verdict <;>
      simp only [Program.bare, hmap, Stmt.bareAll_eq_map, Stmt.bare_checkAll]

lemma fresh_enter_table : Analyzer.fresh.enter.table =
    ⟨[(List.flatMap Decl.symbols ([] : List Decl)).reverse]⟩ := rfl

/-- A visit by a fresh analyser is accepted exactly if the program is well formed. -/
lemma fresh_visit_ok_iff (p : Program) :
    (Analyzer.fresh.visit p).verdict = .ok () ↔ p.WellFormed := by
  have hdecls := visitDecls_ok_iff fresh_enter_table List.nodup_nil p.declarationList
  rw [visit]
  simp only
  cases hverdict : (Analyzer.fresh.enter.visitDecls p.declarationList).verdict with
  | error error =>
    rw [hverdict] at hdecls
    constructor
    · intro h
      cases h
    · intro hwell
      cases hdecls.2 ⟨hwell.distinct, hwell.functions⟩
  | ok _ =>
    obtain ⟨hdistinct, hfunctions⟩ := hdecls.1 hverdict
    have htable := table_visitDecls fresh_enter_table List.nodup_nil hverdict
    have hbody := Stmt.checkAll_ok_iff (shows_programEnv hdistinct) p.body
    rw [List.nil_append] at htable
    simp only [htable]
    cases hchecked : (Stmt.checkAll ⟨[(p.declarationList.flatMap Decl.symbols).reverse]⟩
        p.body).verdict with
    | error error =>
      rw [hchecked] at hbody
      constructor
      · intro h
        cases h
      · intro hwell
        cases hbody.2 hwell.body
    | ok _ => exact ⟨fun _ => ⟨hdistinct, hfunctions, hbody.1 hchecked⟩, fun _ => rfl⟩

/-- An accepted program comes back annotated. -/
lemma annotated_fresh_visit {p : Program} (h : (Analyzer.fresh.visit p).verdict = .ok ()) :
    (Analyzer.fresh.visit p).tree.Annotated := by
  have hbare := bare_visit Analyzer.fresh p
  have hwell := (fresh_visit_ok_iff p).1 h
  have hdecls : (Analyzer.fresh.enter.visitDecls p.declarationList).verdict = .ok () :=
    (visitDecls_ok_iff fresh_enter_table List.nodup_nil p.declarationList).2
      ⟨hwell.distinct, hwell.functions⟩
  have htable := table_visitDecls fresh_enter_table List.nodup_nil hdecls
  rw [List.nil_append] at htable
  have hbody : (Stmt.checkAll ⟨[(p.declarationList.flatMap Decl.symbols).reverse]⟩
      p.body).verdict = .ok () :=
    (Stmt.checkAll_ok_iff (shows_programEnv hwell.distinct) p.body).2 hwell.body
  have htree : (Analyzer.fresh.visit p).tree =
      { declarations := p.declarations.map fun _ =>
          (Analyzer.fresh.enter.visitDecls p.declarationList).tree
        body := (Stmt.checkAll ⟨[(p.declarationList.flatMap Decl.symbols).reverse]⟩
          p.body).tree } := by
    rw [visit]
    simp only [hdecls, htable, hbody]
  have henv : (Analyzer.fresh.visit p).tree.env = p.env := by
    rw [← programEnv_bare, hbare, programEnv_bare]
  refine ⟨?_, ?_⟩
  · intro before f after hsplit
    rw [htree, Program.declarationList] at hsplit
    cases hdeclarations : p.declarations with
    | none =>
      rw [hdeclarations] at hsplit
      cases before <;> cases hsplit
    | some list =>
      rw [hdeclarations] at hsplit
      exact annotated_visitDecls fresh_enter_table List.nodup_nil hdecls before f after hsplit
  · rw [henv, htree]
    exact Stmt.annotated_checkAll (shows_programEnv hwell.distinct) hbody

/-- What is known of the tree that analysis returns: it is the given one up to annotations, it is
well formed, and it is annotated. -/
lemma of_result_eq_ok {p p' : Program} (h : (Analyzer.fresh.visit p).result = .ok p') :
    p'.bare = p.bare ∧ p'.WellFormed ∧ p'.Annotated := by
  rw [Visit.result] at h
  cases hverdict : (Analyzer.fresh.visit p).verdict with
  | error error =>
    rw [hverdict] at h
    cases h
  | ok _ =>
    rw [hverdict] at h
    obtain rfl : (Analyzer.fresh.visit p).tree = p' := Except.ok.inj h
    have hbare := bare_visit Analyzer.fresh p
    have hwell := (fresh_visit_ok_iff p).1 hverdict
    refine ⟨hbare, ?_, annotated_fresh_visit hverdict⟩
    rwa [← Program.wellFormed_bare_iff, hbare, Program.wellFormed_bare_iff]

/-- **Analysis decides the static rules.**  A fresh analyser accepts a program, whatever annotations
it comes with, exactly if the program is well formed.  An accepted program comes back the same up to
annotations, and annotated: every expression with its type, every name with the symbol that its own
scope declares for it, and every assignment with its two types. -/
theorem visit_ok_iff_wellFormed (p : Program) :
    ((Analyzer.fresh.visit p).verdict = .ok () ↔ p.WellFormed) ∧
      ((Analyzer.fresh.visit p).verdict = .ok () →
        (Analyzer.fresh.visit p).tree.bare = p.bare ∧
          (Analyzer.fresh.visit p).tree.Annotated) :=
  ⟨fresh_visit_ok_iff p, fun h => ⟨bare_visit Analyzer.fresh p, annotated_fresh_visit h⟩⟩

end Analyzer

end DLang
