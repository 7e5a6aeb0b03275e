import DLang.Proofs.Static.Analysis
import DLang.Proofs.Tree.Notation

/-!
# Analysis does not see the annotations it finds

A tree may come with annotations, from an earlier visit or from anywhere else.  This file compares a
check of a tree with the check of its bare form.  The two have the same verdict, and if it is to
accept, they leave the same tree (`Checked.SameOutcome`): nothing that was there before is read, and
all of it is replaced.  After a rejection the trees may differ, since those parts that were not
reached keep what they came with.

The relation composes along a check (`SameOutcome.andThen`), and what is put back after a rejected
part plays no role in it; so the induction over trees follows the order of the check.  The result
for programs is `visit_overwrites_annotations`.
-/

namespace DLang

/-! ## Checks with the same outcome -/

namespace Checked

variable {α β γ δ : Type}

/-- The checks give the same verdict and, if they accept, the same tree. -/
structure SameOutcome (c c' : Checked α β) : Prop where
  verdict : c'.verdict = c.verdict
  tree : ∀ result, c.verdict = .ok result → c'.tree = c.tree

namespace SameOutcome

lemma refl (c : Checked α β) : SameOutcome c c :=
  ⟨rfl, fun _ _ => rfl⟩

/-- After a rejection the trees do not matter. -/
lemma reject (tree tree' : α) (e : SemanticError) :
    SameOutcome (β := β) (.reject tree e) (.reject tree' e) :=
  ⟨rfl, fun _ h => nomatch h⟩

lemma andThen {c c' : Checked α β} (h : SameOutcome c c') {whole whole' : α → γ}
    {next next' : α → β → Checked γ δ}
    (hnext : ∀ tree result, SameOutcome (next tree result) (next' tree result)) :
    SameOutcome (c.andThen whole next) (c'.andThen whole' next') := by
  cases hverdict : c.verdict with
  | ok result =>
    have hverdict' : c'.verdict = .ok result := h.verdict.trans hverdict
    rw [andThen_of_ok hverdict, andThen_of_ok hverdict', h.tree result hverdict]
    exact hnext c.tree result
  | error e =>
    have hverdict' : c'.verdict = .error e := h.verdict.trans hverdict
    rw [andThen_of_error hverdict, andThen_of_error hverdict']
    exact reject _ _ e

lemma map {c c' : Checked α β} (h : SameOutcome c c') (whole : α → γ) :
    SameOutcome (c.map whole) (c'.map whole) :=
  ⟨h.verdict, fun result hok => congrArg whole (h.tree result hok)⟩

/-- A last test on what an accepted part has given: what is put back on failure does not matter. -/
lemma ite {p : Prop} [Decidable p] (accepted : Checked α β) (tree tree' : α) (e : SemanticError) :
    SameOutcome (if p then accepted else .reject tree e)
      (if p then accepted else .reject tree' e) := by
  by_cases hp : p
  · rw [if_pos hp, if_pos hp]
    exact refl accepted
  · rw [if_neg hp, if_neg hp]
    exact reject tree tree' e

end SameOutcome

end Checked

open Checked (SameOutcome)

variable (table : SymbolTable)

/-! ## Expressions -/

variable {table} in
lemma Expr.sameOutcome_checkAll {list : List Expr}
    (h : ∀ e ∈ list, SameOutcome (e.bare.check table) (e.check table)) :
    SameOutcome (Expr.checkAll table (Expr.bareAll list)) (Expr.checkAll table list) := by
  induction list with
  | nil => exact .refl _
  | cons e rest ih =>
    obtain ⟨he, hrest⟩ := List.forall_mem_cons.1 h
    rw [Expr.bareAll, Expr.checkAll, Expr.checkAll]
    exact he.andThen fun e' _ => (ih hrest).map _

/-- The annotations of an expression play no part in its check, and none of them survives it. -/
lemma Expr.sameOutcome_check (e : Expr) : SameOutcome (e.bare.check table) (e.check table) := by
  induction e with
  | integer value ty => exact .refl _
  | var name symbol ty =>
    rw [Expr.bare, Expr.check, Expr.check]
    cases table.scalar? name with
    | some found => exact .refl _
    | none => exact .reject _ _ _
  | element name index symbol ty ih =>
    rw [Expr.bare, Expr.check, Expr.check]
    cases table.array? name with
    | some found => exact ih.andThen fun _ _ => .ite _ _ _ _
    | none => exact .reject _ _ _
  | arith op left right ty ihl ihr =>
    rw [Expr.bare, Expr.check, Expr.check]
    exact ihl.andThen fun _ _ => ihr.andThen fun _ _ => .ite _ _ _ _
  | compare op left right ty ihl ihr =>
    rw [Expr.bare, Expr.check, Expr.check]
    exact ihl.andThen fun _ _ => ihr.andThen fun _ _ => .ite _ _ _ _
  | call name args ty ih =>
    cases args with
    | none =>
      rw [Expr.bare, Expr.check, Expr.check]
      exact .ite _ _ _ _
    | some args =>
      have hargs : SameOutcome (Expr.checkAll table (Expr.bareAll args))
          (Expr.checkAll table args) := Expr.sameOutcome_checkAll ih
      have hlength : (Expr.bareAll args).length = args.length := by
        rw [Expr.bareAll_eq_map, List.length_map]
      rw [Expr.bare, Expr.check, Expr.check, hlength]
      by_cases hfun : table.hasFunction name args.length = true
      · rw [if_pos hfun, if_pos hfun]
        exact hargs.andThen fun _ _ => .refl _
      · rw [if_neg hfun, if_neg hfun]
        exact .reject _ _ _

lemma Target.sameOutcome_check (target : Target) :
    SameOutcome (target.bare.check table) (target.check table) := by
  cases target with
  | var name symbol =>
    rw [Target.bare, Target.check, Target.check]
    cases table.scalar? name with
    | some found => exact .refl _
    | none => exact .reject _ _ _
  | element name index symbol =>
    rw [Target.bare, Target.check, Target.check]
    cases table.array? name with
    | some found => exact (Expr.sameOutcome_check table index).andThen fun _ _ => .ite _ _ _ _
    | none => exact .reject _ _ _

lemma Expr.sameOutcome_checkCondition (condition : Expr) :
    SameOutcome (condition.bare.checkCondition table) (condition.checkCondition table) :=
  (Expr.sameOutcome_check table condition).andThen fun _ _ => .refl _

/-! ## Statements -/

variable {table} in
lemma Stmt.sameOutcome_checkAll_of {list : List Stmt}
    (h : ∀ s ∈ list, SameOutcome (s.bare.check table) (s.check table)) :
    SameOutcome (Stmt.checkAll table (Stmt.bareAll list)) (Stmt.checkAll table list) := by
  induction list with
  | nil => exact .refl _
  | cons s rest ih =>
    obtain ⟨hs, hrest⟩ := List.forall_mem_cons.1 h
    rw [Stmt.bareAll, Stmt.checkAll, Stmt.checkAll]
    exact hs.andThen fun s' _ => (ih hrest).map _

lemma Stmt.sameOutcome_check (s : Stmt) : SameOutcome (s.bare.check table) (s.check table) := by
  induction s with
  | assign target value targetTy ty =>
    have hname : target.bare.name = target.name := by cases target <;> rfl
    have htarget := Target.sameOutcome_check table target
    have hvalue := Expr.sameOutcome_check table value
    rw [Stmt.bare, Stmt.check, Stmt.check, hname]
    exact htarget.andThen fun _ _ => hvalue.andThen fun _ _ => .ite _ _ _ _
  | print value =>
    rw [Stmt.bare, Stmt.check, Stmt.check]
    exact (Expr.sameOutcome_check table value).andThen fun _ _ => .refl _
  | read name symbol =>
    rw [Stmt.bare, Stmt.check, Stmt.check]
    cases table.scalar? name with
    | some found => exact .refl _
    | none => exact .reject _ _ _
  | ret value =>
    rw [Stmt.bare, Stmt.check, Stmt.check]
    exact (Expr.sameOutcome_check table value).andThen fun _ _ => .refl _
  | branch condition yes no ihyes ihno =>
    have hcondition := Expr.sameOutcome_checkCondition table condition
    have hyes := Stmt.sameOutcome_checkAll_of ihyes
    cases no with
    | none =>
      rw [Stmt.bare, Stmt.check, Stmt.check]
      exact hcondition.andThen fun _ _ => hyes.map _
    | some no =>
      have hno : SameOutcome (Stmt.checkAll table (Stmt.bareAll no)) (Stmt.checkAll table no) :=
        Stmt.sameOutcome_checkAll_of ihno
      rw [Stmt.bare, Stmt.check, Stmt.check]
      exact hcondition.andThen fun _ _ => hyes.andThen fun _ _ => hno.map _
  | loop condition body ih =>
    rw [Stmt.bare, Stmt.check, Stmt.check]
    exact (Expr.sameOutcome_checkCondition table condition).andThen fun _ _ =>
      (Stmt.sameOutcome_checkAll_of ih).map _
  | block body ih =>
    rw [Stmt.bare, Stmt.check, Stmt.check]
    exact (Stmt.sameOutcome_checkAll_of ih).map _

lemma Stmt.sameOutcome_checkAll (list : List Stmt) :
    SameOutcome (Stmt.checkAll table (Stmt.bareAll list)) (Stmt.checkAll table list) :=
  Stmt.sameOutcome_checkAll_of fun s _ => s.sameOutcome_check table

/-! ## Visits -/

/-- The visits give the same verdict, leave the same analyser and, if they accept, the same tree. -/
structure Visit.SameOutcome {α : Type} (v v' : Visit α) : Prop where
  verdict : v'.verdict = v.verdict
  analyzer : v'.analyzer = v.analyzer
  tree : v.verdict = .ok () → v'.tree = v.tree

lemma Visit.SameOutcome.result {α : Type} {v v' : Visit α} (h : v.SameOutcome v') :
    v'.result = v.result := by
  rw [Visit.result, Visit.result, h.verdict]
  cases hverdict : v.verdict with
  | ok _ => rw [h.tree hverdict]
  | error e => rfl

namespace Analyzer

variable (a : Analyzer)

lemma sameOutcome_visitInside (f : FunctionDecl) :
    (a.visitInside f.bare).SameOutcome (a.visitInside f) := by
  have hsymbols : f.bare.innerSymbols = f.innerSymbols := rfl
  rw [visitInside, visitInside, hsymbols]
  cases hdeclared : (a.declareAll f.innerSymbols).verdict with
  | error e => exact ⟨rfl, rfl, fun h => by cases h⟩
  | ok _ =>
    have hbody := Stmt.sameOutcome_checkAll (a.declareAll f.innerSymbols).analyzer.table f.body
    refine ⟨hbody.verdict, rfl, fun hok => ?_⟩
    show { f with body := _ } = { f with body := _ }
    rw [hbody.tree () hok]
    rfl

lemma sameOutcome_visitFunction (f : FunctionDecl) :
    (a.visitFunction f.bare).SameOutcome (a.visitFunction f) := by
  have hname : f.bare.name = f.name := rfl
  have hsymbol : f.bare.symbol = f.symbol := rfl
  rw [visitFunction, visitFunction, hname, hsymbol]
  by_cases hreserved : f.name ∈ reservedNames
  · rw [if_pos hreserved, if_pos hreserved]
    exact ⟨rfl, rfl, fun h => by cases h⟩
  · rw [if_neg hreserved, if_neg hreserved]
    cases a.declare f.symbol with
    | error e => exact ⟨rfl, rfl, fun h => by cases h⟩
    | ok a' =>
      have hinside := sameOutcome_visitInside a'.enter f
      simp only [hinside.verdict, hinside.analyzer]
      cases hverdict : (a'.enter.visitInside f.bare).verdict with
      | error e => exact ⟨rfl, rfl, fun h => by cases h⟩
      | ok _ => exact ⟨rfl, rfl, fun _ => hinside.tree hverdict⟩

lemma sameOutcome_visitDecl (d : Decl) : (a.visitDecl d.bare).SameOutcome (a.visitDecl d) := by
  cases d with
  | vars group => exact ⟨rfl, rfl, fun _ => rfl⟩
  | function f =>
    have hvisited := sameOutcome_visitFunction a f
    exact ⟨hvisited.verdict, hvisited.analyzer,
      fun hok => congrArg Decl.function (hvisited.tree hok)⟩

lemma sameOutcome_visitDecls (list : List Decl) :
    (a.visitDecls (list.map Decl.bare)).SameOutcome (a.visitDecls list) := by
  induction list generalizing a with
  | nil => exact ⟨rfl, rfl, fun _ => rfl⟩
  | cons d rest ih =>
    have hvisited := sameOutcome_visitDecl a d
    rw [List.map_cons, visitDecls, visitDecls]
    simp only [hvisited.verdict, hvisited.analyzer]
    cases hverdict : (a.visitDecl d.bare).verdict with
    | error e => exact ⟨rfl, rfl, fun h => by cases h⟩
    | ok _ =>
      have hrest := ih (a.visitDecl d.bare).analyzer
      exact ⟨hrest.verdict, hrest.analyzer,
        fun hok => congrArg₂ List.cons (hvisited.tree hverdict) (hrest.tree hok)⟩

/-- The annotations of a program play no part in a visit, and none of them survives an accepting
one. -/
lemma sameOutcome_visit (p : Program) : (a.visit p.bare).SameOutcome (a.visit p) := by
  have hdecls := sameOutcome_visitDecls a.enter p.declarationList
  rw [← declarationList_bare] at hdecls
  rw [visit, visit]
  simp only [hdecls.verdict, hdecls.analyzer]
  cases hverdict : (a.enter.visitDecls p.bare.declarationList).verdict with
  | error e => exact ⟨rfl, rfl, fun h => by cases h⟩
  | ok _ =>
    have hbody := Stmt.sameOutcome_checkAll
      (a.enter.visitDecls p.bare.declarationList).analyzer.table p.body
    have hpbody : p.bare.body = Stmt.bareAll p.body := rfl
    simp only [hbody.verdict, hpbody]
    cases hchecked : (Stmt.checkAll (a.enter.visitDecls p.bare.declarationList).analyzer.table
        (Stmt.bareAll p.body)).verdict with
    | error e => exact ⟨rfl, rfl, fun h => by cases h⟩
    | ok _ =>
      refine ⟨rfl, rfl, fun _ => ?_⟩
      have hdeclarations (list : List Decl) :
          p.bare.declarations.map (fun _ => list) = p.declarations.map (fun _ => list) :=
        Option.map_map ..
      simp only [hdecls.tree hverdict, hbody.tree () hchecked, hdeclarations]

/-- Visits of programs that differ only in annotations have the same result. -/
lemma result_visit_of_bare_eq {p q : Program} (h : q.bare = p.bare) :
    (a.visit q).result = (a.visit p).result := by
  rw [(sameOutcome_visit a q).result, h, (sameOutcome_visit a p).result]

/-- **Analysis ignores the annotations it finds and replaces all of them.**  On programs that differ
only in annotations a fresh analyser has the same result: the same error, or the same annotated
tree.  So a tree that was accepted is accepted again and comes back unchanged.  Accepting or not, a
visit changes nothing but annotations, and the text of the tree stays the same. -/
theorem visit_overwrites_annotations (p : Program) :
    (∀ q : Program, q.bare = p.bare → (fresh.visit q).result = (fresh.visit p).result) ∧
      (∀ accepted, (fresh.visit p).result = .ok accepted →
        (fresh.visit accepted).result = .ok accepted) ∧
      (fresh.visit p).tree.bare = p.bare ∧ (fresh.visit p).tree.text = p.text := by
  have hbare := bare_visit fresh p
  refine ⟨fun q hq => result_visit_of_bare_eq fresh hq, ?_, hbare,
    Program.text_eq_of_bare_eq hbare⟩
  intro accepted haccepted
  have hsame : accepted.bare = p.bare := (of_result_eq_ok haccepted).1
  rw [result_visit_of_bare_eq fresh hsame, haccepted]

/-- A program with a wrong annotation in every place that has room for one. -/
def misannotated : Program :=
  { declarations := some [.vars [.scalar "x", .array "v" 2],
      .function { name := "f", params := some ["n"], locals := none, body := [] }]
    body :=
      [.read "x" (some (.array "x" .bool 1)),
        .assign
          (.element "v" (.call "f" (some [.var "x" (some (.function "x" 0)) (some .bool)])
            (some .bool)) (some (.var "v" .bool)))
          (.arith .add (.integer 1 (some .bool))
            (.element "v" (.integer 0 (some .bool)) (some (.arg "v" .int)) (some .bool))
            (some .bool))
          (some .bool) (some .bool),
        .print (.compare .less (.integer 1 (some .bool)) (.integer 2 (some .bool)) (some .int))] }

theorem visit_overwrites_misannotated :
    misannotated.bare.bare = misannotated.bare ∧
      (fresh.visit misannotated.bare).result = (fresh.visit misannotated).result ∧
      ∃ accepted, (fresh.visit misannotated).result = .ok accepted ∧
        (fresh.visit accepted).result = .ok accepted ∧ accepted.text = misannotated.text := by
  obtain ⟨hsame, hagain, -, htext⟩ := visit_overwrites_annotations misannotated
  exact ⟨rfl, hsame _ rfl, _, rfl, hagain _ rfl, htext⟩

end Analyzer

end DLang
