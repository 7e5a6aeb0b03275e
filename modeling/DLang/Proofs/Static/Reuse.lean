import DLang.Proofs.Static.Places
import DLang.Proofs.Static.Scopes

/-!
# Using an analyser again

An analyser can visit several programs, and those that it rejected have left scopes open.  This file
compares a visit on top of such scopes with the visit of a fresh analyser.

Variables and arrays are looked up in the innermost scope only, and so is the name of a new
declaration; these see nothing of the scopes left open.  Functions are looked up in all scopes.
There is thus one way to tell the visits apart: a call that the fresh analyser rejects, of a name
that none of the program's own scopes declares and that the scopes left open declare as a function
with the right number of parameters (`SymbolTable.Excuses`).  Up to that point the two visits agree
(`Visit.Agrees`), so what a fresh analyser accepts is accepted with the same annotations
(`visit_reused`).
-/

namespace DLang

/-! ## Tables on top of scopes left open -/

namespace SymbolTable

/-- The scopes of a table on top of those left open in another. -/
def above (own left : SymbolTable) : SymbolTable :=
  ⟨own.scopes ++ left.scopes⟩

/-- The error is a call of a function that is declared in none of the table's own scopes, but fits
what the scopes left open declare. -/
def Excuses (own left : SymbolTable) (e : SemanticError) : Prop :=
  ∃ name arguments, e = .undeclaredFunction name arguments ∧ own.find? name = none ∧
    left.find? name = some (.function name arguments)

variable {own left : SymbolTable} {name : String}

lemma findLocal?_above (h : own.scopes ≠ []) :
    (own.above left).findLocal? name = own.findLocal? name := by
  obtain ⟨scope, outer, hscopes⟩ := List.exists_cons_of_ne_nil h
  simp only [findLocal?, above, hscopes, List.cons_append, List.head?_cons]

lemma find?_above : (own.above left).find? name = (own.find? name).or (left.find? name) :=
  List.findSome?_append

lemma exit_above (h : own.scopes ≠ []) : (own.above left).exit = own.exit.above left := by
  obtain ⟨scope, outer, hscopes⟩ := List.exists_cons_of_ne_nil h
  simp only [exit, above, hscopes, List.cons_append, List.tail_cons]

lemma declaresLocally_above (h : own.scopes ≠ []) :
    (own.above left).declaresLocally name = own.declaresLocally name := by
  rw [declaresLocally, findLocal?_above h]
  rfl

lemma scalar?_above (h : own.scopes ≠ []) : (own.above left).scalar? name = own.scalar? name := by
  simp only [scalar?, resolve, findLocal?_above h]

lemma array?_above (h : own.scopes ≠ []) : (own.above left).array? name = own.array? name := by
  simp only [array?, resolve, findLocal?_above h]

/-- The scopes left open make a difference for a call only if they excuse its error. -/
lemma hasFunction_above (own left : SymbolTable) (name : String) (arity : Nat) :
    (own.above left).hasFunction name arity = own.hasFunction name arity ∨
      own.hasFunction name arity = false ∧
        own.Excuses left (.undeclaredFunction name arity) := by
  have habove : (own.above left).hasFunction name arity = true ↔
      (own.find? name).or (left.find? name) = some (.function name arity) := by
    rw [hasFunction_iff, find?_above]
  cases hown : own.find? name with
  | some symbol =>
    left
    rw [Bool.eq_iff_iff, habove, hasFunction_iff, hown]
    rfl
  | none =>
    have hnot : own.hasFunction name arity = false := by
      rw [Bool.eq_false_iff, Ne, hasFunction_iff, hown]
      simp
    by_cases hleft : left.find? name = some (.function name arity)
    · exact .inr ⟨hnot, name, arity, rfl, hown, hleft⟩
    · left
      rw [hnot, Bool.eq_false_iff, Ne, habove, hown, Option.none_or]
      exact hleft

end SymbolTable

/-! ## Checks -/

/-- The check `c'` on top of the scopes left open goes as the check `c` does without them, unless
these excuse the error that ends `c`. -/
def Checked.Agrees {α β : Type} (own left : SymbolTable) (c c' : Checked α β) : Prop :=
  c' = c ∨ ∃ e, c.verdict = .error e ∧ own.Excuses left e

namespace Checked.Agrees

variable {α β γ δ : Type} {own left : SymbolTable} {c c' : Checked α β}

lemma refl (c : Checked α β) : Agrees own left c c :=
  .inl rfl

lemma andThen (h : Agrees own left c c') {whole : α → γ} {next next' : α → β → Checked γ δ}
    (hnext : ∀ tree result, Agrees own left (next tree result) (next' tree result)) :
    Agrees own left (c.andThen whole next) (c'.andThen whole next') := by
  rcases h with rfl | ⟨e, he, hexcuse⟩
  · cases hverdict : c'.verdict with
    | ok result =>
      rw [Checked.andThen_of_ok hverdict, Checked.andThen_of_ok hverdict]
      exact hnext c'.tree result
    | error e =>
      rw [Checked.andThen_of_error hverdict, Checked.andThen_of_error hverdict]
      exact refl _
  · refine .inr ⟨e, ?_, hexcuse⟩
    rw [Checked.andThen_of_error he]
    rfl

lemma map (h : Agrees own left c c') (whole : α → γ) :
    Agrees own left (c.map whole) (c'.map whole) := by
  rcases h with rfl | ⟨e, he, hexcuse⟩
  · exact refl _
  · exact .inr ⟨e, he, hexcuse⟩

end Checked.Agrees

open Checked (Agrees)

section Checks

variable {own left : SymbolTable}

lemma Expr.agrees_checkAll {list : List Expr}
    (h : ∀ e ∈ list, Agrees own left (e.check own) (e.check (own.above left))) :
    Agrees own left (Expr.checkAll own list) (Expr.checkAll (own.above left) list) := by
  induction list with
  | nil => exact .refl _
  | cons e rest ih =>
    obtain ⟨he, hrest⟩ := List.forall_mem_cons.1 h
    rw [Expr.checkAll, Expr.checkAll]
    exact he.andThen fun e' _ => (ih hrest).map _

/-- A call agrees if its arguments do. -/
lemma Expr.agrees_call {name : String} {arity : Nat} {tree : Expr} {c c' : Checked Expr Ty}
    (h : Agrees own left c c') :
    Agrees own left
      (if own.hasFunction name arity then c
        else .reject tree (.undeclaredFunction name arity))
      (if (own.above left).hasFunction name arity then c'
        else .reject tree (.undeclaredFunction name arity)) := by
  rcases SymbolTable.hasFunction_above own left name arity with heq | ⟨hnot, hexcuse⟩
  · rw [heq]
    split
    · exact h
    · exact .refl _
  · rw [hnot]
    exact .inr ⟨_, rfl, hexcuse⟩

lemma Expr.agrees_check (hown : own.scopes ≠ []) (e : Expr) :
    Agrees own left (e.check own) (e.check (own.above left)) := by
  induction e with
  | integer value ty => exact .refl _
  | var name symbol ty =>
    rw [Expr.check, Expr.check, SymbolTable.scalar?_above hown]
    exact .refl _
  | element name index symbol ty ih =>
    rw [Expr.check, Expr.check, SymbolTable.array?_above hown]
    split
    · exact ih.andThen fun _ _ => .refl _
    · exact .refl _
  | arith op l r ty ihl ihr =>
    rw [Expr.check, Expr.check]
    exact ihl.andThen fun _ _ => ihr.andThen fun _ _ => .refl _
  | compare op l r ty ihl ihr =>
    rw [Expr.check, Expr.check]
    exact ihl.andThen fun _ _ => ihr.andThen fun _ _ => .refl _
  | call name args ty ih =>
    cases args with
    | none =>
      rw [Expr.check, Expr.check]
      exact Expr.agrees_call (.refl _)
    | some args =>
      rw [Expr.check, Expr.check]
      exact Expr.agrees_call ((Expr.agrees_checkAll ih).andThen fun _ _ => .refl _)

lemma Target.agrees_check (hown : own.scopes ≠ []) (target : Target) :
    Agrees own left (target.check own) (target.check (own.above left)) := by
  cases target with
  | var name symbol =>
    rw [Target.check, Target.check, SymbolTable.scalar?_above hown]
    exact .refl _
  | element name index symbol =>
    rw [Target.check, Target.check, SymbolTable.array?_above hown]
    split
    · exact (Expr.agrees_check hown index).andThen fun _ _ => .refl _
    · exact .refl _

lemma Expr.agrees_checkCondition (hown : own.scopes ≠ []) (condition : Expr) :
    Agrees own left (condition.checkCondition own) (condition.checkCondition (own.above left)) :=
  (Expr.agrees_check hown condition).andThen fun _ _ => .refl _

lemma Stmt.agrees_checkAll_of {list : List Stmt}
    (h : ∀ s ∈ list, Agrees own left (s.check own) (s.check (own.above left))) :
    Agrees own left (Stmt.checkAll own list) (Stmt.checkAll (own.above left) list) := by
  induction list with
  | nil => exact .refl _
  | cons s rest ih =>
    obtain ⟨hs, hrest⟩ := List.forall_mem_cons.1 h
    rw [Stmt.checkAll, Stmt.checkAll]
    exact hs.andThen fun s' _ => (ih hrest).map _

lemma Stmt.agrees_check (hown : own.scopes ≠ []) (s : Stmt) :
    Agrees own left (s.check own) (s.check (own.above left)) := by
  induction s with
  | assign target value targetTy ty =>
    rw [Stmt.check, Stmt.check]
    exact (Target.agrees_check hown target).andThen fun _ _ =>
      (Expr.agrees_check hown value).andThen fun _ _ => .refl _
  | print value =>
    rw [Stmt.check, Stmt.check]
    exact (Expr.agrees_check hown value).andThen fun _ _ => .refl _
  | read name symbol =>
    rw [Stmt.check, Stmt.check, SymbolTable.scalar?_above hown]
    exact .refl _
  | ret value =>
    rw [Stmt.check, Stmt.check]
    exact (Expr.agrees_check hown value).andThen fun _ _ => .refl _
  | branch condition yes no ihyes ihno =>
    have hcondition : Agrees own left (condition.checkCondition own)
        (condition.checkCondition (own.above left)) := Expr.agrees_checkCondition hown condition
    cases no with
    | none =>
      rw [Stmt.check, Stmt.check]
      exact hcondition.andThen fun _ _ => (Stmt.agrees_checkAll_of ihyes).map _
    | some no =>
      rw [Stmt.check, Stmt.check]
      exact hcondition.andThen fun _ _ => (Stmt.agrees_checkAll_of ihyes).andThen fun _ _ =>
        (Stmt.agrees_checkAll_of ihno).map _
  | loop condition body ih =>
    rw [Stmt.check, Stmt.check]
    exact (Expr.agrees_checkCondition hown condition).andThen fun _ _ =>
      (Stmt.agrees_checkAll_of ih).map _
  | block body ih =>
    rw [Stmt.check, Stmt.check]
    exact (Stmt.agrees_checkAll_of ih).map _

lemma Stmt.agrees_checkAll (hown : own.scopes ≠ []) (list : List Stmt) :
    Agrees own left (Stmt.checkAll own list) (Stmt.checkAll (own.above left) list) :=
  Stmt.agrees_checkAll_of fun s _ => Stmt.agrees_check hown s

end Checks

/-! ## Visits -/

/-- The visit `v'` on top of the scopes left open goes as the visit `v` does without them. -/
structure Visit.SameAbove {α : Type} (left : SymbolTable) (v v' : Visit α) : Prop where
  tree : v'.tree = v.tree
  verdict : v'.verdict = v.verdict
  table : v'.analyzer.table = v.analyzer.table.above left

/-- The visit `v'` on top of the scopes left open goes as the visit `v` does without them, unless
these excuse the error that ends `v`. -/
def Visit.Agrees {α : Type} (left : SymbolTable) (v v' : Visit α) : Prop :=
  v.SameAbove left v' ∨ ∃ e, v.verdict = .error e ∧ v.analyzer.table.Excuses left e

namespace Analyzer

variable {left : SymbolTable} {start a b : Analyzer} {n : Nat}

lemma Reached.scopes_ne_nil (h : Reached start (n + 1) a) : a.table.scopes ≠ [] := by
  obtain ⟨opened, hscopes, hlength⟩ := h.exists_scopes
  obtain ⟨scope, opened, rfl⟩ := List.exists_cons_of_length_eq_add_one hlength
  rw [hscopes]
  exact List.cons_ne_nil _ _

lemma Reached.table_add_above (h : Reached start (n + 1) a) (habove : b.table = a.table.above left)
    (symbol : Symbol) : (b.add symbol).table = (a.add symbol).table.above left := by
  obtain ⟨scope, outer, hscopes⟩ := List.exists_cons_of_ne_nil h.scopes_ne_nil
  show (b.table.add? symbol).getD b.table = ((a.table.add? symbol).getD a.table).above left
  rw [habove]
  simp only [SymbolTable.add?, SymbolTable.above, hscopes, List.cons_append, Option.getD_some]

lemma table_enter_above (habove : b.table = a.table.above left) :
    b.enter.table = a.enter.table.above left := by
  show b.table.enter = a.table.enter.above left
  rw [habove]
  rfl

lemma Reached.table_leave_above (h : Reached start (n + 1) a)
    (habove : b.table = a.table.above left) : b.leave.table = a.leave.table.above left := by
  show b.table.exit = a.table.exit.above left
  rw [habove, SymbolTable.exit_above h.scopes_ne_nil]

/-- Declarations of names look at the innermost scope only. -/
lemma Reached.sameAbove_declareAll (h : Reached start (n + 1) a)
    (habove : b.table = a.table.above left) (symbols : List Symbol) :
    (a.declareAll symbols).SameAbove left (b.declareAll symbols) := by
  induction symbols generalizing a b with
  | nil => exact ⟨rfl, rfl, habove⟩
  | cons symbol rest ih =>
    have hsame : b.table.declaresLocally symbol.name = a.table.declaresLocally symbol.name := by
      rw [habove, SymbolTable.declaresLocally_above h.scopes_ne_nil]
    rw [Analyzer.declareAll, Analyzer.declareAll, declare, declare, hsame]
    by_cases hdeclared : a.table.declaresLocally symbol.name = true
    · rw [if_pos hdeclared, if_pos hdeclared]
      exact ⟨rfl, rfl, habove⟩
    · rw [if_neg hdeclared, if_neg hdeclared]
      exact ih h.add (h.table_add_above habove symbol)

lemma Reached.agrees_visitInside (h : Reached start (n + 1) a)
    (habove : b.table = a.table.above left) (f : FunctionDecl) :
    (a.visitInside f).Agrees left (b.visitInside f) := by
  have hdeclared := h.sameAbove_declareAll habove f.innerSymbols
  rw [Analyzer.visitInside, Analyzer.visitInside, hdeclared.verdict]
  cases hverdict : (a.declareAll f.innerSymbols).verdict with
  | error e => exact .inl ⟨rfl, rfl, hdeclared.table⟩
  | ok _ =>
    simp only [hdeclared.table]
    have hreached := h.declareAll f.innerSymbols
    have hbody : Agrees (a.declareAll f.innerSymbols).analyzer.table left _ _ :=
      Stmt.agrees_checkAll hreached.scopes_ne_nil f.body
    rcases hbody with heq | hexcuse
    · rw [heq]
      exact .inl ⟨rfl, rfl, hdeclared.table⟩
    · exact .inr hexcuse

lemma Reached.refuses_above (h : Reached start (n + 1) a) (habove : b.table = a.table.above left)
    (name : String) : b.Refuses name ↔ a.Refuses name := by
  rw [Refuses, Refuses, habove, SymbolTable.declaresLocally_above h.scopes_ne_nil]

lemma Reached.agrees_visitFunction (h : Reached start (n + 1) a)
    (habove : b.table = a.table.above left) (f : FunctionDecl) :
    (a.visitFunction f).Agrees left (b.visitFunction f) := by
  have hrefuses' := h.refuses_above habove f.name
  by_cases hrefuses : a.Refuses f.name
  · rw [visitFunction_of_refuses hrefuses, visitFunction_of_refuses (hrefuses'.2 hrefuses)]
    exact .inl ⟨rfl, rfl, habove⟩
  · have hfree : ¬ b.Refuses f.name := fun hb => hrefuses (hrefuses'.1 hb)
    have hopened : Reached start (n + 2) (a.add f.symbol).enter := h.add.enter
    -- The function's scope and the program's are both on top, so its error is excused there or not
    -- at all.
    have hinside := hopened.agrees_visitInside
      (table_enter_above (h.table_add_above habove f.symbol)) f
    rcases hinside with ⟨htree, hverdict, htable⟩ | ⟨e, he, hexcuse⟩
    · cases hverdict' : ((a.add f.symbol).enter.visitInside f).verdict with
      | error e =>
        rw [visitFunction_of_inside_error hrefuses hverdict',
          visitFunction_of_inside_error hfree (hverdict.trans hverdict')]
        exact .inl ⟨htree, rfl, htable⟩
      | ok _ =>
        rw [visitFunction_of_inside_ok hrefuses hverdict',
          visitFunction_of_inside_ok hfree (hverdict.trans hverdict')]
        exact .inl ⟨htree, rfl, (hopened.visitInside f).table_leave_above htable⟩
    · rw [visitFunction_of_inside_error hrefuses he]
      exact .inr ⟨e, rfl, hexcuse⟩

lemma Reached.agrees_visitDecl (h : Reached start (n + 1) a)
    (habove : b.table = a.table.above left) (d : Decl) :
    (a.visitDecl d).Agrees left (b.visitDecl d) := by
  cases d with
  | vars group =>
    have hdeclared := h.sameAbove_declareAll habove (group.map VarDef.symbol)
    exact .inl ⟨rfl, hdeclared.verdict, hdeclared.table⟩
  | function f =>
    rcases h.agrees_visitFunction habove f with ⟨htree, hverdict, htable⟩ | hexcuse
    · exact .inl ⟨congrArg Decl.function htree, hverdict, htable⟩
    · exact .inr hexcuse

lemma Reached.agrees_visitDecls (h : Reached start (n + 1) a)
    (habove : b.table = a.table.above left) (list : List Decl) :
    (a.visitDecls list).Agrees left (b.visitDecls list) := by
  induction list generalizing a b with
  | nil => exact .inl ⟨rfl, rfl, habove⟩
  | cons d rest ih =>
    rw [visitDecls, visitDecls]
    rcases h.agrees_visitDecl habove d with ⟨htree, hverdict, htable⟩ | ⟨e, he, hexcuse⟩
    · cases hd : (a.visitDecl d).verdict with
      | error e =>
        simp only [hverdict, hd, htree]
        exact .inl ⟨rfl, rfl, htable⟩
      | ok _ =>
        simp only [hverdict, hd, htree]
        rcases ih (h.visitDecl_of_ok hd) htable with hsame | hexcuse
        · exact .inl ⟨congrArg (List.cons _) hsame.tree, hsame.verdict, hsame.table⟩
        · exact .inr hexcuse
    · simp only [he]
      exact .inr ⟨e, rfl, hexcuse⟩

/-- Visits of one program agree if the one is on top of scopes left open. -/
lemma agrees_visit (habove : b.table = a.table.above left) (p : Program) :
    (a.visit p).Agrees left (b.visit p) := by
  have hdecls := reached_enter.agrees_visitDecls (table_enter_above habove) p.declarationList
  rw [visit, visit]
  rcases hdecls with ⟨htree, hverdict, htable⟩ | ⟨e, he, hexcuse⟩
  · cases hverdict' : (a.enter.visitDecls p.declarationList).verdict with
    | error e =>
      simp only [hverdict, hverdict', htree]
      exact .inl ⟨rfl, rfl, htable⟩
    | ok _ =>
      simp only [hverdict, hverdict', htree, htable]
      have hreached := reached_enter.visitDecls_of_ok hverdict'
      have hbody : Agrees (a.enter.visitDecls p.declarationList).analyzer.table left _ _ :=
        Stmt.agrees_checkAll hreached.scopes_ne_nil p.body
      rcases hbody with heq | ⟨e, he, hexcuse⟩
      · rw [heq]
        cases (Stmt.checkAll (a.enter.visitDecls p.declarationList).analyzer.table p.body).verdict
          with
        | error e => exact .inl ⟨rfl, rfl, htable⟩
        | ok _ => exact .inl ⟨rfl, rfl, hreached.table_leave_above htable⟩
      · simp only [he]
        exact .inr ⟨e, rfl, hexcuse⟩
  · simp only [he]
    exact .inr ⟨e, rfl, hexcuse⟩

/-! ## Sequences of visits -/

/-- Visits programs one after the other with one analyser, whether it accepts them or not. -/
def visitAll (a : Analyzer) (programs : List Program) : Analyzer :=
  programs.foldl (fun a p => (a.visit p).analyzer) a

/-- An analyser that has accepted all programs has the table that it started with. -/
lemma table_visitAll {programs : List Program}
    (h : ∀ before q after, programs = before ++ q :: after →
      ((a.visitAll before).visit q).verdict = .ok ()) :
    (a.visitAll programs).table = a.table := by
  induction programs generalizing a with
  | nil => rfl
  | cons q rest ih =>
    have hq : (a.visit q).verdict = .ok () := h [] q rest rfl
    have hrest : ((a.visit q).analyzer.visitAll rest).table = (a.visit q).analyzer.table := by
      refine ih fun before q' after hsplit => h (q :: before) q' after ?_
      rw [hsplit, List.cons_append]
    exact hrest.trans (reached_visit_of_ok hq).table_eq

lemma table_eq_above_fresh (a : Analyzer) : a.table = Analyzer.fresh.table.above a.table :=
  rfl

/-- An analyser that has visited programs before, and may have rejected some of them, accepts what a
fresh one accepts, with the same annotations.  It rejects what a fresh one rejects, with the same
error, unless that is a call of a function which none of the program's own open scopes declares,
while the innermost scope left open with its name declares it with that number of parameters.  If it
has accepted all programs before, there is no difference at all. -/
theorem visit_reused (earlier : List Program) (p : Program) :
    ((fresh.visit p).verdict = .ok () →
      ((fresh.visitAll earlier).visit p).verdict = .ok () ∧
        ((fresh.visitAll earlier).visit p).tree = (fresh.visit p).tree) ∧
    (∀ e, (fresh.visit p).verdict = .error e →
      (((fresh.visitAll earlier).visit p).verdict = .error e ∧
        ((fresh.visitAll earlier).visit p).tree = (fresh.visit p).tree) ∨
      ∃ name arguments, e = .undeclaredFunction name arguments ∧
        (fresh.visit p).analyzer.table.find? name = none ∧
        (fresh.visitAll earlier).table.find? name = some (.function name arguments)) ∧
    ((∀ before q after, earlier = before ++ q :: after →
        ((fresh.visitAll before).visit q).verdict = .ok ()) →
      ((fresh.visitAll earlier).visit p).verdict = (fresh.visit p).verdict ∧
        ((fresh.visitAll earlier).visit p).tree = (fresh.visit p).tree) := by
  have hagrees := agrees_visit (table_eq_above_fresh (fresh.visitAll earlier)) p
  refine ⟨?_, ?_, ?_⟩
  · intro hok
    rcases hagrees with hsame | ⟨e, he, _⟩
    · exact ⟨hsame.verdict.trans hok, hsame.tree⟩
    · rw [hok] at he
      cases he
  · intro e he
    rcases hagrees with hsame | ⟨e', he', hexcuse⟩
    · exact .inl ⟨hsame.verdict.trans he, hsame.tree⟩
    · obtain rfl : e' = e := Except.error.inj (he'.symm.trans he)
      exact .inr hexcuse
  · intro hall
    -- Nothing is left open, so there is nothing that could excuse an error.
    rw [table_visitAll hall] at hagrees
    rcases hagrees with hsame | ⟨_, _, name, arguments, _, _, hfind⟩
    · exact ⟨hsame.verdict, hsame.tree⟩
    · cases hfind

/-- A call of `f`, after a program that declares `f` and assigns to an undeclared variable. -/
example :
    let failed : Program :=
      { declarations := some [.function { name := "f", params := none, locals := none, body := [] }]
        body := [.assign (.var "x" none) (.integer 1 none) none none] }
    let calling : Program := { declarations := none, body := [.print (.call "f" none none)] }
    (fresh.visit calling).verdict = .error (.undeclaredFunction "f" 0) ∧
      ((fresh.visitAll [failed]).visit calling).verdict = .ok () := by
  exact ⟨rfl, rfl⟩

end Analyzer

end DLang
