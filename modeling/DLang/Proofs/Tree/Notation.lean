import DLang.Proofs.Tree.Bare
import DLang.Tree.Text

/-!
# The text of a tree shows no annotations

A tree and its bare form have the same text (`Program.text_bare`).  So trees that differ only in
annotations cannot be told apart by their texts.
-/

namespace DLang

lemma Expr.texts_eq_map (list : List Expr) : Expr.texts list = list.map Expr.text := by
  induction list with
  | nil => rfl
  | cons e rest ih => rw [Expr.texts, ih, List.map_cons]

lemma Stmt.texts_eq_map (list : List Stmt) : Stmt.texts list = list.map Stmt.text := by
  induction list with
  | nil => rfl
  | cons s rest ih => rw [Stmt.texts, ih, List.map_cons]

/-- If the bare forms of the parts of a list have the texts of the parts, so has the list. -/
lemma map_text_map_bare {α : Type} {text : α → String} {bare : α → α} {list : List α}
    (h : ∀ a ∈ list, text (bare a) = text a) : (list.map bare).map text = list.map text := by
  rw [List.map_map]
  exact List.map_congr_left h

lemma Expr.text_bare (e : Expr) : e.bare.text = e.text := by
  induction e with
  | integer value ty => rfl
  | var name symbol ty => rfl
  | element name index symbol ty ih => rw [Expr.bare, Expr.text, Expr.text, ih]
  | arith op left right ty ihl ihr => rw [Expr.bare, Expr.text, Expr.text, ihl, ihr]
  | compare op left right ty ihl ihr => rw [Expr.bare, Expr.text, Expr.text, ihl, ihr]
  | call name args ty ih =>
    cases args with
    | none => rfl
    | some args =>
      have hargs : (args.map Expr.bare).map Expr.text = args.map Expr.text := map_text_map_bare ih
      rw [Expr.bare, Expr.bareAll_eq_map, Expr.text, Expr.text, Expr.texts_eq_map,
        Expr.texts_eq_map, hargs]

lemma Target.text_bare (t : Target) : t.bare.text = t.text := by
  cases t with
  | var name symbol => rfl
  | element name index symbol => rw [Target.bare, Target.text, Target.text, Expr.text_bare]

/-- The statements of a block have the texts of their bare forms, if each of them has. -/
lemma Stmt.texts_bareAll {list : List Stmt} (h : ∀ s ∈ list, s.bare.text = s.text) :
    Stmt.texts (Stmt.bareAll list) = Stmt.texts list := by
  rw [Stmt.bareAll_eq_map, Stmt.texts_eq_map, Stmt.texts_eq_map, map_text_map_bare h]

lemma Stmt.text_bare (s : Stmt) : s.bare.text = s.text := by
  induction s with
  | assign target value targetTy ty =>
    rw [Stmt.bare, Stmt.text, Stmt.text, Target.text_bare, Expr.text_bare]
  | print value => rw [Stmt.bare, Stmt.text, Stmt.text, Expr.text_bare]
  | read name symbol => rfl
  | ret value => rw [Stmt.bare, Stmt.text, Stmt.text, Expr.text_bare]
  | branch condition yes no ihyes ihno =>
    have hyes := Stmt.texts_bareAll ihyes
    cases no with
    | none => rw [Stmt.bare, Stmt.text, Stmt.text, Expr.text_bare, hyes]
    | some no =>
      have hno : Stmt.texts (Stmt.bareAll no) = Stmt.texts no := Stmt.texts_bareAll ihno
      rw [Stmt.bare, Stmt.text, Stmt.text, Expr.text_bare, hyes, hno]
  | loop condition body ih =>
    rw [Stmt.bare, Stmt.text, Stmt.text, Expr.text_bare, Stmt.texts_bareAll ih]
  | block body ih => rw [Stmt.bare, Stmt.text, Stmt.text, Stmt.texts_bareAll ih]

lemma blockText_bareAll (body : List Stmt) : blockText (Stmt.bareAll body) = blockText body := by
  rw [blockText, blockText, Stmt.texts_bareAll fun s _ => s.text_bare]

lemma Decl.text_bare (d : Decl) : d.bare.text = d.text := by
  cases d with
  | vars group => rfl
  | function f =>
    simp only [Decl.bare, Decl.text, FunctionDecl.text, FunctionDecl.bare, blockText_bareAll]

/-- A program and its bare form have the same text. -/
lemma Program.text_bare (p : Program) : p.bare.text = p.text := by
  have hdeclarations : ∀ list : List Decl,
      (list.map Decl.bare).map Decl.text = list.map Decl.text :=
    fun list => map_text_map_bare fun d _ => d.text_bare
  simp only [Program.text, Program.bare, Option.map_map, Function.comp_def, hdeclarations,
    blockText_bareAll]

/-- Programs that differ only in annotations have the same text. -/
lemma Program.text_eq_of_bare_eq {p q : Program} (h : q.bare = p.bare) : q.text = p.text := by
  rw [← q.text_bare, h, p.text_bare]

end DLang
