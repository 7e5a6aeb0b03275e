import DLang.Proofs.Source.Occurrences
import DLang.Proofs.Static.PlainTrees

/-!
# The leftmost error

Analysis visits a tree and stops at the first error it meets.  Seen from the source text, this is
the error of the leftmost identifier that offends (`analyzeSource_error_leftmost`).

The proof follows a visit with the occurrences that it has gone through.  As long as none of them
offends, the table of the analyser is the one that they declare, and in this table a plain tree is
rejected for its first use that offends.  `Visit.Reports` says that a visit meets the first offence
among the occurrences of what it visits.
-/

namespace DLang

/-! ## Checks of plain trees -/

/-- The error of a check is that of the part checked first, or else that of the rest. -/
lemma Checked.errorOf_andThen {α β γ δ : Type} {part : Checked α β} {whole : α → γ}
    {next : α → β → Checked γ δ} {e : Option SemanticError}
    (h : ∀ result, part.verdict = .ok result → errorOf (next part.tree result).verdict = e) :
    errorOf (part.andThen whole next).verdict = (errorOf part.verdict).or e := by
  cases hverdict : part.verdict with
  | ok result =>
    rw [andThen_of_ok hverdict, h result hverdict]
    rfl
  | error error =>
    rw [andThen_of_error hverdict]
    rfl

/-- A rest that is accepted leaves the error to the part checked first. -/
lemma Checked.errorOf_andThen_left {α β γ δ : Type} {part : Checked α β} {whole : α → γ}
    {next : α → β → Checked γ δ}
    (h : ∀ result, part.verdict = .ok result → errorOf (next part.tree result).verdict = none) :
    errorOf (part.andThen whole next).verdict = errorOf part.verdict := by
  rw [errorOf_andThen h, Option.or_none]

section Checks

variable {table : SymbolTable}

lemma Use.fault?_cons (u : Use) (rest : List Use) :
    (u :: rest).findSome? (Use.fault? table) =
      if u.isFaulty table then some u.error else rest.findSome? (Use.fault? table) := by
  rw [List.findSome?_cons, Use.fault?]
  cases u.isFaulty table <;> rfl

lemma Expr.errorOf_checkAll {list : List Expr}
    (h : ∀ e ∈ list, errorOf (e.check table).verdict = e.uses.findSome? (Use.fault? table)) :
    errorOf (Expr.checkAll table list).verdict =
      (Expr.usesAll list).findSome? (Use.fault? table) := by
  induction list with
  | nil => rfl
  | cons e rest ih =>
    obtain ⟨he, hrest⟩ := List.forall_mem_cons.1 h
    rw [Expr.checkAll, Expr.usesAll, List.findSome?_append, ← he, ← ih hrest]
    exact Checked.errorOf_andThen fun _ _ => rfl

/-- The check of a plain expression reports its first use that is faulty. -/
lemma Expr.Plain.errorOf_check (htable : table.IntArrays) {e : Expr} (h : e.Plain) :
    errorOf (e.check table).verdict = e.uses.findSome? (Use.fault? table) := by
  induction h with
  | integer =>
    rw [Expr.check]
    rfl
  | @var name symbol ty =>
    rw [Expr.check, Expr.uses, Use.fault?_cons, Use.isFaulty]
    cases table.scalar? name <;> rfl
  | @element name index symbol ty hindex ih =>
    rw [Expr.check, Expr.uses, Use.fault?_cons, Use.isFaulty]
    cases table.array? name with
    | none => rfl
    | some found =>
      refine Eq.trans (Checked.errorOf_andThen_left fun indexTy hindexTy => ?_) ih
      rw [if_pos ((hindex.faultsNames_check htable).result indexTy hindexTy)]
      rfl
  | arith hleft hright ihl ihr =>
    rw [Expr.check, Expr.uses, List.findSome?_append, ← ihl, ← ihr]
    refine Checked.errorOf_andThen fun leftTy hleftTy => ?_
    refine Checked.errorOf_andThen_left fun rightTy hrightTy => ?_
    rw [if_pos ⟨(hleft.faultsNames_check htable).result leftTy hleftTy,
      (hright.faultsNames_check htable).result rightTy hrightTy⟩]
    rfl
  | @call name args ty _ ih =>
    cases args with
    | none =>
      rw [Expr.check, Expr.uses, Use.fault?_cons, Use.isFaulty]
      cases table.hasFunction name 0 <;> rfl
    | some args =>
      rw [Expr.check, Expr.uses, Use.fault?_cons, Use.isFaulty]
      cases table.hasFunction name args.length with
      | false => rfl
      | true =>
        rw [if_pos rfl]
        refine Eq.trans ?_ (Expr.errorOf_checkAll ih)
        exact Checked.errorOf_andThen_left fun _ _ => rfl

lemma Expr.PlainCondition.errorOf_checkCondition (htable : table.IntArrays) {e : Expr}
    (h : e.PlainCondition) :
    errorOf (e.checkCondition table).verdict = e.uses.findSome? (Use.fault? table) := by
  obtain ⟨hleft, hright⟩ := h
  rw [Expr.uses, List.findSome?_append, ← hleft.errorOf_check htable,
    ← hright.errorOf_check htable, Expr.checkCondition]
  refine Eq.trans (Checked.errorOf_andThen_left fun ty hty => ?_) ?_
  · rw [Expr.check] at hty
    obtain ⟨leftTy, _, hty⟩ := Checked.exists_of_andThen_ok hty
    obtain ⟨rightTy, _, hty⟩ := Checked.exists_of_andThen_ok hty
    rw [if_pos ⟨leftTy.isComparable_eq_true, rightTy.isComparable_eq_true⟩] at hty
    cases hty
    rfl
  · rw [Expr.check]
    refine Checked.errorOf_andThen fun leftTy _ => Checked.errorOf_andThen_left fun rightTy _ => ?_
    rw [if_pos ⟨leftTy.isComparable_eq_true, rightTy.isComparable_eq_true⟩]
    rfl

lemma Stmt.errorOf_checkAll {list : List Stmt}
    (h : ∀ s ∈ list, errorOf (s.check table).verdict = s.uses.findSome? (Use.fault? table)) :
    errorOf (Stmt.checkAll table list).verdict =
      (Stmt.usesAll list).findSome? (Use.fault? table) := by
  induction list with
  | nil => rfl
  | cons s rest ih =>
    obtain ⟨hs, hrest⟩ := List.forall_mem_cons.1 h
    rw [Stmt.checkAll, Stmt.usesAll, List.findSome?_append, ← hs, ← ih hrest]
    exact Checked.errorOf_andThen fun _ _ => rfl

lemma Target.errorOf_check_var (name : String) (symbol : Option Symbol) :
    errorOf ((Target.var name symbol).check table).verdict =
      (Target.var name symbol).uses.findSome? (Use.fault? table) := by
  rw [Target.check, Target.uses, Use.fault?_cons, Use.isFaulty]
  cases table.scalar? name <;> rfl

lemma Target.errorOf_check_element (htable : table.IntArrays) {index : Expr}
    (hindex : index.Plain) (name : String) (symbol : Option Symbol) :
    errorOf ((Target.element name index symbol).check table).verdict =
      (Target.element name index symbol).uses.findSome? (Use.fault? table) := by
  rw [Target.check, Target.uses, Use.fault?_cons, Use.isFaulty]
  cases table.array? name with
  | none => rfl
  | some found =>
    refine Eq.trans ?_ (hindex.errorOf_check htable)
    refine Checked.errorOf_andThen_left fun indexTy hindexTy => ?_
    rw [if_pos ((hindex.faultsNames_check htable).result indexTy hindexTy)]
    rfl

/-- An assignment reports its target before its value. -/
lemma Stmt.errorOf_check_assign {target : Target} {value : Expr} {targetTy ty : Option Ty}
    (htarget : Checked.FaultsNames (· = .int) (target.check table))
    (hvalue : Checked.FaultsNames (· = .int) (value.check table)) :
    errorOf ((Stmt.assign target value targetTy ty).check table).verdict =
      (errorOf (target.check table).verdict).or (errorOf (value.check table).verdict) := by
  rw [Stmt.check]
  refine Checked.errorOf_andThen fun found hfound => ?_
  refine Checked.errorOf_andThen_left fun valueTy hvalueTy => ?_
  rw [if_pos ⟨htarget.result found hfound, hvalue.result valueTy hvalueTy⟩]
  rfl

/-- The check of a plain statement reports its first use that is faulty. -/
lemma Stmt.Plain.errorOf_check (htable : table.IntArrays) {s : Stmt} (h : s.Plain) :
    errorOf (s.check table).verdict = s.uses.findSome? (Use.fault? table) := by
  induction h with
  | @assignVar name symbol value _ _ hvalue =>
    rw [Stmt.errorOf_check_assign (Target.faultsNames_check_var name symbol)
      (hvalue.faultsNames_check htable), Target.errorOf_check_var, hvalue.errorOf_check htable,
      Stmt.uses, List.findSome?_append]
  | @assignElement name index symbol value _ _ hindex hvalue =>
    rw [Stmt.errorOf_check_assign (Target.faultsNames_check_element htable hindex name symbol)
      (hvalue.faultsNames_check htable), Target.errorOf_check_element htable hindex,
      hvalue.errorOf_check htable, Stmt.uses, List.findSome?_append]
  | print hvalue | ret hvalue =>
    rw [Stmt.check, Stmt.uses, ← hvalue.errorOf_check htable]
    exact Checked.errorOf_andThen_left fun _ _ => rfl
  | @read name symbol =>
    rw [Stmt.check, Stmt.uses, Use.fault?_cons, Use.isFaulty]
    cases table.scalar? name <;> rfl
  | @branch condition yes no hcondition _ _ ihyes ihno =>
    rw [Stmt.uses_branch, List.findSome?_append, List.findSome?_append,
      ← hcondition.errorOf_checkCondition htable, ← Stmt.errorOf_checkAll ihyes,
      ← Stmt.errorOf_checkAll ihno]
    cases no with
    | none =>
      rw [Stmt.check]
      refine Checked.errorOf_andThen fun _ _ => ?_
      exact (Option.or_none ..).symm
    | some no =>
      rw [Stmt.check]
      exact Checked.errorOf_andThen fun _ _ => Checked.errorOf_andThen fun _ _ => rfl
  | loop hcondition _ ih =>
    rw [Stmt.check, Stmt.uses, List.findSome?_append, ← hcondition.errorOf_checkCondition htable,
      ← Stmt.errorOf_checkAll ih]
    exact Checked.errorOf_andThen fun _ _ => rfl
  | block _ ih =>
    rw [Stmt.check, Stmt.uses, ← Stmt.errorOf_checkAll ih]
    rfl

end Checks

/-- Plain statements report the first offence among their uses. -/
lemma errorOf_checkAll_tableAt {left : List Occurrence} {scope : Option Nat}
    (hdistinct : Distinct left) (htable : (tableAt left scope).IntArrays) {body : List Stmt}
    (hplain : ∀ s ∈ body, s.Plain) :
    errorOf (Stmt.checkAll (tableAt left scope) body).verdict =
      firstOffence? left ((Stmt.usesAll body).map (.use scope)) := by
  rw [firstOffence?_uses hdistinct]
  exact Stmt.errorOf_checkAll fun s hs => (hplain s hs).errorOf_check htable

/-! ## Visits -/

/-- The visit reports the first offence among the occurrences of what it visits, after those on
their left; if there is none, its table is the one after them. -/
structure Visit.Reports {α : Type} (left list : List Occurrence) (scope : Option Nat)
    (v : Visit α) : Prop where
  error : errorOf v.verdict = firstOffence? left list
  table : v.verdict = .ok () → v.analyzer.table = tableAt (left ++ list) scope

lemma Symbol.IsData.kind_ne_function {symbol : Symbol} (h : symbol.IsData) :
    symbol.kind ≠ .function := by
  rcases h with h | h | ⟨size, h⟩ <;> (rw [h]; exact nofun)

lemma FunctionDecl.kind_ne_function_of_mem_innerSymbols (f : FunctionDecl) :
    ∀ symbol ∈ f.innerSymbols, symbol.kind ≠ .function :=
  fun _ h => (f.isData_of_mem_innerSymbols h).kind_ne_function

/-- A declaration adds no symbol to the scope of a function with another number. -/
lemma Decl.declaredIn_occurrences_of_ne {number other : Nat} (h : number ≠ other) (d : Decl) :
    declaredIn (d.occurrences number) (some other) = [] := by
  cases d with
  | vars group => simp [Decl.occurrences, declaredIn]
  | function f =>
    have hne : some number ≠ some other := fun heq => h (Option.some.inj heq)
    have hinner := declaredIn_declarations_of_ne hne f.innerSymbols
    rw [Decl.occurrences, ← List.singleton_append, declaredIn_append, declaredIn_append, hinner,
      declaredIn_uses]
    rfl

namespace Analyzer

variable {a : Analyzer} {left : List Occurrence} {scope : Option Nat}

lemma table_add_tableAt (htable : a.table = tableAt left scope) (symbol : Symbol) :
    (a.add symbol).table = tableAt (left ++ [.declaration scope symbol]) scope := by
  cases scope <;> simp [table_add htable, tableAt, declaredIn]

lemma reports_declareAll (htable : a.table = tableAt left scope) {symbols : List Symbol}
    (hkinds : ∀ symbol ∈ symbols, symbol.kind ≠ .function) :
    (a.declareAll symbols).Reports left (symbols.map (.declaration scope)) scope := by
  induction symbols generalizing a left with
  | nil => exact ⟨rfl, fun _ => by rwa [List.map_nil, List.append_nil]⟩
  | cons symbol rest ih =>
    obtain ⟨hkind, hrest⟩ := List.forall_mem_cons.1 hkinds
    have hoffends : (Occurrence.declaration scope symbol).Offends left ↔
        a.table.declaresLocally symbol.name = true := by
      rw [htable, declaresLocally_tableAt]
      exact or_iff_left fun h => hkind h.1
    rw [declareAll, declare]
    by_cases hdeclared : a.table.declaresLocally symbol.name = true
    · rw [if_pos hdeclared]
      refine ⟨?_, fun hok => by cases hok⟩
      rw [List.map_cons, firstOffence?, if_pos (hoffends.2 hdeclared)]
      rfl
    · have hvisited := ih (table_add_tableAt htable symbol) hrest
      rw [if_neg hdeclared]
      refine ⟨?_, ?_⟩
      · rw [List.map_cons, firstOffence?, if_neg (mt hoffends.1 hdeclared)]
        exact hvisited.error
      · intro hok
        rw [hvisited.table hok, List.append_assoc]
        rfl

lemma reports_visitInside (hdistinct : Distinct left) {number : Nat}
    (htable : a.table = tableAt left (some number)) (ha : a.table.IntArrays) {f : FunctionDecl}
    (hplain : ∀ s ∈ f.body, s.Plain) :
    (a.visitInside f).Reports left (f.innerSymbols.map (.declaration (some number)) ++
      (Stmt.usesAll f.body).map (.use (some number))) (some number) := by
  have hdeclared := reports_declareAll htable f.kind_ne_function_of_mem_innerSymbols
  have harrays := (faultsNames_declareAll ha f.holdsInts_innerSymbols).table
  rw [visitInside]
  cases hverdict : (a.declareAll f.innerSymbols).verdict with
  | error e =>
    refine ⟨?_, fun hok => by cases hok⟩
    rw [firstOffence?_append, ← hdeclared.error, hverdict]
    rfl
  | ok _ =>
    have hnone := hdeclared.error
    rw [hverdict] at hnone
    have htable' := hdeclared.table hverdict
    rw [htable'] at harrays
    constructor
    · rw [firstOffence?_append, ← hnone]
      simp only [htable']
      exact errorOf_checkAll_tableAt (hdistinct.append hnone.symm) harrays hplain
    · intro _
      rw [← List.append_assoc, tableAt_append_uses]
      exact htable'

lemma reports_visitFunction (hdistinct : Distinct left) {number : Nat}
    (hfresh : declaredIn left (some number) = []) (htable : a.table = tableAt left none)
    (ha : a.table.IntArrays) {f : FunctionDecl} (hplain : ∀ s ∈ f.body, s.Plain) :
    (a.visitFunction f).Reports left ((Decl.function f).occurrences number) none := by
  have hoffends : (Occurrence.declaration none f.symbol).Offends left ↔ a.Refuses f.name := by
    rw [Refuses, htable, declaresLocally_tableAt, or_comm]
    exact or_congr_right (and_iff_right rfl)
  by_cases hrefuses : a.Refuses f.name
  · rw [visitFunction_of_refuses hrefuses]
    refine ⟨?_, fun hok => by cases hok⟩
    rw [Decl.occurrences, firstOffence?, if_pos (hoffends.2 hrefuses)]
    rfl
  · have hfresh' : declaredIn (left ++ [.declaration none f.symbol]) (some number) = [] := by
      rw [declaredIn_append, hfresh]
      rfl
    have henter : (a.add f.symbol).enter.table =
        tableAt (left ++ [.declaration none f.symbol]) (some number) := by
      show (a.add f.symbol).table.enter = _
      rw [table_add_tableAt htable f.symbol, tableAt, tableAt, hfresh']
      rfl
    have hadd : (a.add f.symbol).table.IntArrays := ha.add? trivial
    have hinside := reports_visitInside (hdistinct.snoc (mt hoffends.1 hrefuses)) henter
      hadd.enter hplain
    have hfirst : firstOffence? left ((Decl.function f).occurrences number) =
        errorOf ((a.add f.symbol).enter.visitInside f).verdict := by
      rw [Decl.occurrences, firstOffence?, if_neg (mt hoffends.1 hrefuses), hinside.error]
    cases hverdict : ((a.add f.symbol).enter.visitInside f).verdict with
    | error e =>
      rw [visitFunction_of_inside_error hrefuses hverdict]
      exact ⟨by rw [hfirst, hverdict], fun hok => by cases hok⟩
    | ok _ =>
      rw [visitFunction_of_inside_ok hrefuses hverdict]
      refine ⟨by rw [hfirst, hverdict], fun _ => ?_⟩
      show ((a.add f.symbol).enter.visitInside f).analyzer.table.exit = _
      rw [hinside.table hverdict, List.append_assoc]
      rfl

lemma reports_visitDecl (hdistinct : Distinct left) {number : Nat}
    (hfresh : declaredIn left (some number) = []) (htable : a.table = tableAt left none)
    (ha : a.table.IntArrays) {d : Decl} (hplain : ∀ f ∈ d.functions, ∀ s ∈ f.body, s.Plain) :
    (a.visitDecl d).Reports left (d.occurrences number) none := by
  cases d with
  | vars group =>
    have hkinds : ∀ symbol ∈ group.map VarDef.symbol, symbol.kind ≠ .function :=
      List.forall_mem_map.2 fun d _ => d.isData_symbol.kind_ne_function
    have hdeclared := reports_declareAll htable hkinds
    rw [List.map_map] at hdeclared
    exact ⟨hdeclared.error, hdeclared.table⟩
  | function f =>
    have hvisited := reports_visitFunction hdistinct hfresh htable ha
      (hplain f List.mem_cons_self)
    exact ⟨hvisited.error, hvisited.table⟩

/-- The scopes of later functions are untouched by the declarations before them, which is what lets
each function start in a scope without symbols. -/
lemma reports_visitDecls (hdistinct : Distinct left) {number : Nat}
    (hfresh : ∀ later, number ≤ later → declaredIn left (some later) = [])
    (htable : a.table = tableAt left none) (ha : a.table.IntArrays) {list : List Decl}
    (hplain : ∀ f ∈ list.flatMap Decl.functions, ∀ s ∈ f.body, s.Plain) :
    (a.visitDecls list).Reports left (Decl.occurrencesAll number list) none := by
  induction list generalizing a left number with
  | nil =>
    refine ⟨rfl, fun _ => ?_⟩
    rw [Decl.occurrencesAll, List.append_nil]
    exact htable
  | cons d rest ih =>
    rw [List.flatMap_cons, List.forall_mem_append] at hplain
    have hfresh₀ := hfresh number (Nat.le_refl number)
    have hvisited := reports_visitDecl hdistinct hfresh₀ htable ha hplain.1
    rw [visitDecls, Decl.occurrencesAll]
    cases hverdict : (a.visitDecl d).verdict with
    | error e =>
      refine ⟨?_, fun hok => by cases hok⟩
      rw [firstOffence?_append, ← hvisited.error, hverdict]
      rfl
    | ok _ =>
      have hnone := hvisited.error
      rw [hverdict] at hnone
      have hfresh' : ∀ later, number + 1 ≤ later →
          declaredIn (left ++ d.occurrences number) (some later) = [] := by
        intro later hlater
        rw [declaredIn_append, hfresh later (Nat.le_of_succ_le hlater),
          d.declaredIn_occurrences_of_ne (Nat.ne_of_lt hlater)]
        rfl
      have hothers := ih (hdistinct.append hnone.symm) hfresh' (hvisited.table hverdict)
        (faultsNames_visitDecl ha hplain.1).table hplain.2
      constructor
      · rw [firstOffence?_append, ← hnone]
        exact hothers.error
      · intro hok
        rw [← List.append_assoc]
        exact hothers.table hok

/-- A visit of a plain program reports the first offence among its occurrences. -/
lemma errorOf_visit {p : Program} (hplain : p.Plain) :
    errorOf (fresh.visit p).verdict = firstOffence? [] p.occurrences := by
  have hfunctions := hplain.functions
  rw [Program.functions_eq] at hfunctions
  have harrays : fresh.enter.table.IntArrays := SymbolTable.IntArrays.empty.enter
  have htable : fresh.enter.table = tableAt [] none := rfl
  have hempty : Distinct [] := fun _ => List.nodup_nil
  have hfresh : ∀ later, 0 ≤ later → declaredIn [] (some later) = [] := fun _ _ => rfl
  have hdecls := reports_visitDecls hempty hfresh htable harrays hfunctions
  have harrays' := (faultsNames_visitDecls harrays hfunctions).table
  rw [Program.occurrences, firstOffence?_append, ← hdecls.error]
  cases hverdict : (fresh.enter.visitDecls p.declarationList).verdict with
  | error e =>
    rw [(visit_of_visitDecls_error hverdict).1]
    rfl
  | ok _ =>
    have hnone := hdecls.error
    rw [hverdict] at hnone
    rw [hdecls.table hverdict] at harrays'
    rw [(visit_of_visitDecls_ok hverdict).1, hdecls.table hverdict]
    exact errorOf_checkAll_tableAt (hempty.append hnone.symm) harrays' hplain.body

end Analyzer

/-! ## Source texts -/

/-- The analysis of a tree fails with the error of its visit. -/
lemma Program.analyze_eq_error_iff {p : Program} {e : SemanticError} :
    p.analyze.result = .error e ↔ errorOf (Analyzer.fresh.visit p).verdict = some e := by
  show (Analyzer.fresh.visit p).verdict.map _ = _ ↔ _
  cases (Analyzer.fresh.visit p).verdict <;> simp [errorOf, Except.map]

/-- What the analysis of a source text says after parsing is what it says of the tree. -/
lemma analyzeSource_eq_error_iff {source : String} {p : Program}
    {illegals : List IllegalCharacter} (hparse : (parseSource source).result = .ok (p, illegals))
    {e : CompileError} :
    (analyzeSource source).result = .error e ↔
      ∃ error, p.analyze.result = .error error ∧ e = .semantic error := by
  rw [result_analyzeSource, hparse]
  show (p.analyze.result.mapError CompileError.semantic >>= _) = _ ↔ _
  cases p.analyze.result <;> simp [Except.mapError, bind, Except.bind, eq_comm]

/-- The occurrences in the tree of a source text are the identifiers of the text, in order.  The
analysis of the text rejects it exactly if one of them offends after those on its left, and reports
the first that does: that it is declared a second time or reserved, not declared as the variable or
array that it is used as, or not a function of that number of arguments. -/
theorem analyzeSource_error_leftmost {source : String} {p : Program}
    {illegals : List IllegalCharacter}
    (hparse : (parseSource source).result = .ok (p, illegals)) :
    p.occurrences.map Occurrence.name = identifierTexts (scan source).tokens ∧
      ∀ e, (analyzeSource source).result = .error e ↔
        ∃ before o after, p.occurrences = before ++ o :: after ∧
          (∀ front earlier rest, before = front ++ earlier :: rest → ¬ earlier.Offends front) ∧
          o.Offends before ∧ e = .semantic o.error := by
  refine ⟨p.names_occurrences.trans (identifiers_of_parseSource hparse), fun e => ?_⟩
  rw [analyzeSource_eq_error_iff hparse]
  simp only [Program.analyze_eq_error_iff,
    Analyzer.errorOf_visit (plain_of_parseSource hparse), firstOffence?_eq_some_iff,
    firstOffence?_eq_none_iff, List.nil_append]
  constructor
  · rintro ⟨_, ⟨before, o, after, hsplit, hbefore, ho, rfl⟩, rfl⟩
    exact ⟨before, o, after, hsplit, hbefore, ho, rfl⟩
  · rintro ⟨before, o, after, hsplit, hbefore, ho, rfl⟩
    exact ⟨o.error, ⟨before, o, after, hsplit, hbefore, ho, rfl⟩, rfl⟩

/-- A text with several errors, the first of them a call whose arguments are wrong too. -/
def unknownCallSource : String :=
  "int a[4],x;f(y);int z;\x7bz=y+q(x,y);return a[z]\x7d\x7bx=f(1,2)+w\x7d"

/-- The call is reported before its argument `x`, which the function does not see. -/
theorem analyzeSource_error_unknownCall :
    ∃ p illegals, (parseSource unknownCallSource).result = .ok (p, illegals) ∧
      p.occurrences.map Occurrence.name =
        ["a", "x", "f", "y", "z", "z", "y", "q", "x", "y", "a", "z", "x", "f", "w"] ∧
      ∃ before o after, p.occurrences = before ++ o :: after ∧
        (∀ front earlier rest, before = front ++ earlier :: rest → ¬ earlier.Offends front) ∧
        o.Offends before ∧ CompileError.semantic (.undeclaredFunction "q" 2) =
          .semantic o.error := by
  have hparses : (parseSource unknownCallSource).result.toOption.isSome := by decide +kernel
  have hnames : identifierTexts (scan unknownCallSource).tokens =
      ["a", "x", "f", "y", "z", "z", "y", "q", "x", "y", "a", "z", "x", "f", "w"] := by
    decide +kernel
  have herror : errorOf (analyzeSource unknownCallSource).result =
      some (.semantic (.undeclaredFunction "q" 2)) := by
    decide +kernel
  obtain ⟨⟨p, illegals⟩, hparse⟩ := Option.isSome_iff_exists.1 hparses
  have hleftmost := analyzeSource_error_leftmost (eq_ok_of_toOption_eq_some hparse)
  exact ⟨p, illegals, eq_ok_of_toOption_eq_some hparse, hleftmost.1.trans hnames,
    (hleftmost.2 _).1 (errorOf_eq_some_iff.1 herror)⟩

end DLang
