import DLang.Proofs.Grammar.Plain
import DLang.Proofs.Static.Scopes

/-!
# Checks of plain trees

A plain tree has comparisons only as conditions, and its conditions are comparisons.  So its types
fit by its shape alone, provided that the arrays in scope are arrays of integers, and whatever a
check finds wrong with it is wrong with a name: it is not declared, or declared twice.

`Checked.FaultsNames P` says this of a check, with a condition `P` on what the check gives if it
accepts; it is carried through a tree by `FaultsNames.andThen`.  That the arrays in scope are arrays
of integers is an invariant of the symbol table (`SymbolTable.IntArrays`): every declaration keeps
it, so every visit does.
-/

namespace DLang

/-! ## Errors about names -/

/-- The errors about names: one that is not declared, or declared twice. -/
inductive SemanticError.AboutName : SemanticError → Prop
  | undeclaredVariable (name : String) : AboutName (.undeclaredVariable name)
  | undeclaredFunction (name : String) (arguments : Nat) :
      AboutName (.undeclaredFunction name arguments)
  | redeclared (name : String) : AboutName (.redeclared name)

namespace Checked

variable {α β γ δ : Type} {P : β → Prop} {Q : δ → Prop}

/-- If the check accepts, then with a result as described; if not, a name is at fault. -/
structure FaultsNames (P : β → Prop) (c : Checked α β) : Prop where
  result : ∀ result, c.verdict = .ok result → P result
  error : ∀ e, c.verdict = .error e → e.AboutName

namespace FaultsNames

lemma accept (tree : α) {result : β} (h : P result) : FaultsNames P (.accept tree result) := by
  refine ⟨?_, fun _ he => nomatch he⟩
  rintro _ ⟨⟩
  exact h

lemma reject (tree : α) {e : SemanticError} (h : e.AboutName) :
    FaultsNames P (.reject tree e) := by
  refine ⟨(fun _ hok => nomatch hok), ?_⟩
  rintro _ ⟨⟩
  exact h

lemma andThen {c : Checked α β} (h : FaultsNames P c) {whole : α → γ}
    {next : α → β → Checked γ δ} (hnext : ∀ tree result, P result → FaultsNames Q (next tree result)) :
    FaultsNames Q (c.andThen whole next) := by
  cases hverdict : c.verdict with
  | ok result =>
    rw [andThen_of_ok hverdict]
    exact hnext c.tree result (h.result result hverdict)
  | error e =>
    rw [andThen_of_error hverdict]
    exact reject _ (h.error e hverdict)

lemma map {c : Checked α β} (h : FaultsNames P c) (whole : α → γ) :
    FaultsNames P (c.map whole) :=
  ⟨h.result, h.error⟩

end FaultsNames

end Checked

open Checked (FaultsNames)

/-! ## Arrays of integers -/

/-- If the symbol is an array, then one of integers. -/
def Symbol.HoldsInts : Symbol → Prop
  | .array _ ty _ => ty = .int
  | _ => True

/-- Every array in the table is one of integers. -/
def SymbolTable.IntArrays (table : SymbolTable) : Prop :=
  ∀ scope ∈ table.scopes, ∀ symbol ∈ scope, symbol.HoldsInts

lemma VarDef.holdsInts_symbol (d : VarDef) : d.symbol.HoldsInts := by
  cases d with
  | scalar name => exact trivial
  | array name size => rfl

lemma FunctionDecl.holdsInts_innerSymbols (f : FunctionDecl) :
    ∀ symbol ∈ f.innerSymbols, symbol.HoldsInts := by
  intro symbol h
  rcases List.mem_append.1 h with h | h
  · obtain ⟨param, _, rfl⟩ := List.mem_map.1 h
    exact trivial
  · obtain ⟨d, _, rfl⟩ := List.mem_map.1 h
    exact d.holdsInts_symbol

namespace SymbolTable.IntArrays

variable {table : SymbolTable}

lemma empty : SymbolTable.empty.IntArrays :=
  fun _ h => nomatch h

lemma enter (h : table.IntArrays) : table.enter.IntArrays := by
  intro scope hscope
  rcases List.mem_cons.1 hscope with rfl | hscope
  · exact fun _ hsymbol => nomatch hsymbol
  · exact h scope hscope

lemma exit (h : table.IntArrays) : table.exit.IntArrays :=
  fun scope hscope => h scope (List.mem_of_mem_tail hscope)

lemma add? (h : table.IntArrays) {symbol : Symbol} (hsymbol : symbol.HoldsInts) :
    ((table.add? symbol).getD table).IntArrays := by
  obtain ⟨scopes⟩ := table
  cases scopes with
  | nil => exact h
  | cons innermost outer =>
    obtain ⟨hinnermost, houter⟩ := List.forall_mem_cons.1 h
    exact List.forall_mem_cons.2 ⟨List.forall_mem_cons.2 ⟨hsymbol, hinnermost⟩, houter⟩

lemma array? (h : table.IntArrays) {name : String} {found : Symbol} {ty : Ty}
    (hfound : table.array? name = some (found, ty)) : ty = .int := by
  unfold SymbolTable.array? at hfound
  split at hfound
  · rename_i found' ty' size hresolve
    obtain ⟨rfl, rfl⟩ := Prod.mk.inj (Option.some.inj hfound)
    have hlocal : table.findLocal? name = some (.array found' ty' size) := by
      unfold resolve at hresolve
      cases hlocal : table.findLocal? name with
      | none => simp [hlocal] at hresolve
      | some symbol =>
        simp only [hlocal] at hresolve
        split at hresolve
        · rw [Resolution.found.inj hresolve]
        · cases hresolve
    obtain ⟨scope, hscope, hsymbol⟩ := Option.bind_eq_some_iff.1 hlocal
    exact h scope (List.mem_of_mem_head? hscope) _ (List.mem_of_find?_eq_some hsymbol)
  · cases hfound

end SymbolTable.IntArrays

/-! ## Expressions -/

variable {table : SymbolTable}

lemma Expr.faultsNames_checkAll {list : List Expr}
    (h : ∀ e ∈ list, FaultsNames (· = .int) (e.check table)) :
    FaultsNames (fun _ => True) (Expr.checkAll table list) := by
  induction list with
  | nil => exact .accept _ trivial
  | cons e rest ih =>
    obtain ⟨he, hrest⟩ := List.forall_mem_cons.1 h
    rw [Expr.checkAll]
    exact he.andThen fun _ _ _ => (ih hrest).map _

/-- A plain expression is an integer, or one of its names is at fault. -/
lemma Expr.Plain.faultsNames_check (htable : table.IntArrays) {e : Expr} (h : e.Plain) :
    FaultsNames (· = .int) (e.check table) := by
  induction h with
  | integer =>
    rw [Expr.check]
    exact .accept _ rfl
  | @var name symbol ty =>
    rw [Expr.check]
    cases table.scalar? name with
    | some found => exact .accept _ rfl
    | none => exact .reject _ (.undeclaredVariable name)
  | @element name index symbol ty _ ih =>
    rw [Expr.check]
    cases harray : table.array? name with
    | none => exact .reject _ (.undeclaredVariable name)
    | some found =>
      have hfound : found.2 = .int := htable.array? harray
      refine ih.andThen fun index' indexTy hindex => ?_
      rw [if_pos hindex]
      exact .accept _ hfound
  | arith _ _ ihl ihr =>
    rw [Expr.check]
    refine ihl.andThen fun left' leftTy hleft => ihr.andThen fun right' rightTy hright => ?_
    rw [if_pos ⟨hleft, hright⟩]
    exact .accept _ rfl
  | @call name args ty _ ih =>
    cases args with
    | none =>
      rw [Expr.check]
      split
      · exact .accept _ rfl
      · exact .reject _ (.undeclaredFunction name 0)
    | some args =>
      rw [Expr.check]
      split
      · exact (Expr.faultsNames_checkAll ih).andThen fun _ _ _ => .accept _ rfl
      · exact .reject _ (.undeclaredFunction name args.length)

lemma Expr.PlainCondition.faultsNames_checkCondition (htable : table.IntArrays) {e : Expr}
    (h : e.PlainCondition) : FaultsNames (fun _ => True) (e.checkCondition table) := by
  have hcheck : FaultsNames (· = .bool) (e.check table) := by
    obtain ⟨hl, hr⟩ := h
    rw [Expr.check]
    refine (hl.faultsNames_check htable).andThen fun _ leftTy _ =>
      (hr.faultsNames_check htable).andThen fun _ rightTy _ => ?_
    rw [if_pos ⟨leftTy.isComparable_eq_true, rightTy.isComparable_eq_true⟩]
    exact .accept _ rfl
  refine hcheck.andThen fun condition' ty hty => ?_
  rw [if_pos hty]
  exact .accept _ trivial

/-! ## Statements -/

lemma Stmt.faultsNames_checkAll {list : List Stmt}
    (h : ∀ s ∈ list, FaultsNames (fun _ => True) (s.check table)) :
    FaultsNames (fun _ => True) (Stmt.checkAll table list) := by
  induction list with
  | nil => exact .accept _ trivial
  | cons s rest ih =>
    obtain ⟨hs, hrest⟩ := List.forall_mem_cons.1 h
    rw [Stmt.checkAll]
    exact hs.andThen fun _ _ _ => (ih hrest).map _

lemma Target.faultsNames_check_var (name : String) (symbol : Option Symbol) :
    FaultsNames (· = .int) ((Target.var name symbol).check table) := by
  rw [Target.check]
  cases table.scalar? name with
  | some found => exact .accept _ rfl
  | none => exact .reject _ (.undeclaredVariable name)

lemma Target.faultsNames_check_element (htable : table.IntArrays) {index : Expr}
    (hindex : index.Plain) (name : String) (symbol : Option Symbol) :
    FaultsNames (· = .int) ((Target.element name index symbol).check table) := by
  rw [Target.check]
  cases harray : table.array? name with
  | none => exact .reject _ (.undeclaredVariable name)
  | some found =>
    have hfound : found.2 = .int := htable.array? harray
    refine (hindex.faultsNames_check htable).andThen fun _ indexTy hindexTy => ?_
    rw [if_pos hindexTy]
    exact .accept _ hfound

/-- An assignment of an integer to a target that holds integers. -/
lemma Stmt.faultsNames_check_assign {target : Target} {value : Expr} {targetTy ty : Option Ty}
    (htarget : FaultsNames (· = .int) (target.check table))
    (hvalue : FaultsNames (· = .int) (value.check table)) :
    FaultsNames (fun _ => True) ((Stmt.assign target value targetTy ty).check table) := by
  rw [Stmt.check]
  refine htarget.andThen fun _ found hfound => hvalue.andThen fun _ valueTy hvalueTy => ?_
  rw [if_pos ⟨hfound, hvalueTy⟩]
  exact .accept _ trivial

lemma Stmt.Plain.faultsNames_check (htable : table.IntArrays) {s : Stmt} (h : s.Plain) :
    FaultsNames (fun _ => True) (s.check table) := by
  induction h with
  | assignVar hvalue =>
    exact Stmt.faultsNames_check_assign (Target.faultsNames_check_var _ _)
      (hvalue.faultsNames_check htable)
  | assignElement hindex hvalue =>
    exact Stmt.faultsNames_check_assign (Target.faultsNames_check_element htable hindex _ _)
      (hvalue.faultsNames_check htable)
  | print hvalue | ret hvalue =>
    rw [Stmt.check]
    exact (hvalue.faultsNames_check htable).andThen fun _ _ _ => .accept _ trivial
  | @read name _ =>
    rw [Stmt.check]
    cases table.scalar? name with
    | some found => exact .accept _ trivial
    | none => exact .reject _ (.undeclaredVariable name)
  | @branch _ _ no hcondition _ _ ihyes ihno =>
    have hcheck := hcondition.faultsNames_checkCondition htable
    have hyes := Stmt.faultsNames_checkAll ihyes
    cases no with
    | none =>
      rw [Stmt.check]
      exact hcheck.andThen fun _ _ _ => hyes.map _
    | some no =>
      have hno : FaultsNames (fun _ => True) (Stmt.checkAll table no) :=
        Stmt.faultsNames_checkAll ihno
      rw [Stmt.check]
      exact hcheck.andThen fun _ _ _ => hyes.andThen fun _ _ _ => hno.map _
  | loop hcondition _ ih =>
    rw [Stmt.check]
    exact (hcondition.faultsNames_checkCondition htable).andThen fun _ _ _ =>
      (Stmt.faultsNames_checkAll ih).map _
  | block _ ih =>
    rw [Stmt.check]
    exact (Stmt.faultsNames_checkAll ih).map _

/-! ## Visits -/

/-- If the visit fails, then a name is at fault; and the arrays in scope are arrays of integers
still. -/
structure Visit.FaultsNames {α : Type} (v : Visit α) : Prop where
  error : ∀ e, v.verdict = .error e → e.AboutName
  table : v.analyzer.table.IntArrays

namespace Analyzer

variable {a : Analyzer}

lemma faultsNames_declareAll (ha : a.table.IntArrays) {symbols : List Symbol}
    (hsymbols : ∀ symbol ∈ symbols, symbol.HoldsInts) : (a.declareAll symbols).FaultsNames := by
  induction symbols generalizing a with
  | nil => exact ⟨(fun _ h => nomatch h), ha⟩
  | cons symbol rest ih =>
    obtain ⟨hsymbol, hrest⟩ := List.forall_mem_cons.1 hsymbols
    rw [declareAll, declare]
    by_cases hdeclared : a.table.declaresLocally symbol.name = true
    · rw [if_pos hdeclared]
      refine ⟨?_, ha⟩
      rintro _ ⟨⟩
      exact .redeclared symbol.name
    · rw [if_neg hdeclared]
      exact ih (ha.add? hsymbol) hrest

lemma faultsNames_visitInside (ha : a.table.IntArrays) {f : FunctionDecl}
    (hplain : ∀ s ∈ f.body, s.Plain) : (a.visitInside f).FaultsNames := by
  have hdeclared := faultsNames_declareAll ha f.holdsInts_innerSymbols
  rw [visitInside]
  cases hverdict : (a.declareAll f.innerSymbols).verdict with
  | error e =>
    refine ⟨?_, hdeclared.table⟩
    rintro _ ⟨⟩
    exact hdeclared.error e hverdict
  | ok _ =>
    have hbody := Stmt.faultsNames_checkAll fun s hs =>
      (hplain s hs).faultsNames_check hdeclared.table
    exact ⟨hbody.error, hdeclared.table⟩

lemma faultsNames_visitFunction (ha : a.table.IntArrays) {f : FunctionDecl}
    (hplain : ∀ s ∈ f.body, s.Plain) : (a.visitFunction f).FaultsNames := by
  by_cases hrefuses : a.Refuses f.name
  · rw [visitFunction_of_refuses hrefuses]
    refine ⟨?_, ha⟩
    rintro _ ⟨⟩
    exact .redeclared f.name
  · have hadd : (a.add f.symbol).table.IntArrays := ha.add? trivial
    have hinside := faultsNames_visitInside (a := (a.add f.symbol).enter) hadd.enter hplain
    cases hverdict : ((a.add f.symbol).enter.visitInside f).verdict with
    | error e =>
      rw [visitFunction_of_inside_error hrefuses hverdict]
      refine ⟨?_, hinside.table⟩
      rintro _ ⟨⟩
      exact hinside.error e hverdict
    | ok _ =>
      rw [visitFunction_of_inside_ok hrefuses hverdict]
      exact ⟨(fun _ h => nomatch h), hinside.table.exit⟩

lemma faultsNames_visitDecl (ha : a.table.IntArrays) {d : Decl}
    (hplain : ∀ f ∈ d.functions, ∀ s ∈ f.body, s.Plain) : (a.visitDecl d).FaultsNames := by
  cases d with
  | vars group =>
    have hgroup : ∀ symbol ∈ group.map VarDef.symbol, symbol.HoldsInts :=
      List.forall_mem_map.2 fun d _ => d.holdsInts_symbol
    have hdeclared := faultsNames_declareAll ha hgroup
    exact ⟨hdeclared.error, hdeclared.table⟩
  | function f =>
    have hvisited := faultsNames_visitFunction ha (hplain f List.mem_cons_self)
    exact ⟨hvisited.error, hvisited.table⟩

lemma faultsNames_visitDecls (ha : a.table.IntArrays) {list : List Decl}
    (hplain : ∀ f ∈ list.flatMap Decl.functions, ∀ s ∈ f.body, s.Plain) :
    (a.visitDecls list).FaultsNames := by
  induction list generalizing a with
  | nil => exact ⟨(fun _ h => nomatch h), ha⟩
  | cons d rest ih =>
    rw [List.flatMap_cons, List.forall_mem_append] at hplain
    have hvisited := faultsNames_visitDecl ha hplain.1
    rw [visitDecls]
    cases hverdict : (a.visitDecl d).verdict with
    | error e =>
      refine ⟨?_, hvisited.table⟩
      rintro _ ⟨⟩
      exact hvisited.error e hverdict
    | ok _ =>
      have hrest := ih hvisited.table hplain.2
      exact ⟨hrest.error, hrest.table⟩

/-- A visit of a plain program finds fault with nothing but names. -/
lemma faultsNames_visit (ha : a.table.IntArrays) {p : Program} (hplain : p.Plain) :
    ∀ e, (a.visit p).verdict = .error e → e.AboutName := by
  have hfunctions := hplain.functions
  rw [Program.functions_eq] at hfunctions
  have hdecls := faultsNames_visitDecls (a := a.enter) ha.enter hfunctions
  intro e he
  cases hverdict : (a.enter.visitDecls p.declarationList).verdict with
  | error e' =>
    rw [(visit_of_visitDecls_error hverdict).1] at he
    cases he
    exact hdecls.error e hverdict
  | ok _ =>
    have hbody := Stmt.faultsNames_checkAll fun s hs =>
      (hplain.body s hs).faultsNames_check hdecls.table
    rw [(visit_of_visitDecls_ok hverdict).1] at he
    exact hbody.error e he

end Analyzer

end DLang
