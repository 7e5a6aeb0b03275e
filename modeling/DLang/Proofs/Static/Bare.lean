import DLang.Proofs.Static.Rules

/-!
# The static rules do not see annotations

Whether a program is well formed depends on its bare tree alone (`Program.wellFormed_bare_iff`), and
so do the places in it.  What is proved of a program that analysis accepts therefore holds of the
annotated tree that it returns.
-/

namespace DLang

/-! ## Declarations of a program -/

lemma Program.varDefs_eq (p : Program) : p.varDefs = p.declarationList.flatMap Decl.varDefs := by
  refine congrArg (fun f => p.declarationList.flatMap f) (funext fun d => ?_)
  cases d <;> rfl

lemma Program.functions_eq (p : Program) :
    p.functions = p.declarationList.flatMap Decl.functions := by
  rw [Program.functions]
  induction p.declarationList with
  | nil => rfl
  | cons d rest ih =>
    rw [List.filterMap_cons, List.flatMap_cons, ← ih]
    cases d <;> rfl

lemma Program.mem_functions_iff (p : Program) {f : FunctionDecl} :
    f ∈ p.functions ↔ ∃ before after, p.declarationList = before ++ .function f :: after := by
  rw [Program.functions_eq, List.mem_flatMap]
  constructor
  · rintro ⟨d, hd, hf⟩
    cases d with
    | vars group => cases hf
    | function g =>
      cases List.mem_singleton.1 hf
      exact List.append_of_mem hd
  · rintro ⟨before, after, hsplit⟩
    refine ⟨.function f, ?_, List.mem_singleton_self f⟩
    rw [hsplit]
    exact List.mem_append_right before List.mem_cons_self

/-- The variables of a program have distinct names, if all its declared names are distinct. -/
lemma Program.nodup_names_varDefs {p : Program}
    (h : (p.declarationList.flatMap Decl.names).Nodup) : (p.varDefs.map VarDef.name).Nodup := by
  refine List.Nodup.sublist ?_ h
  rw [Program.varDefs_eq, List.map_flatMap]
  induction p.declarationList with
  | nil => exact List.nil_sublist _
  | cons d rest ih =>
    rw [List.flatMap_cons, List.flatMap_cons]
    refine List.Sublist.append ?_ ih
    cases d with
    | vars group => exact List.Sublist.refl _
    | function f => exact List.nil_sublist _

/-- And so have its functions. -/
lemma Program.nodup_names_functions {p : Program}
    (h : (p.declarationList.flatMap Decl.names).Nodup) :
    (p.functions.map FunctionDecl.name).Nodup := by
  refine List.Nodup.sublist ?_ h
  rw [Program.functions_eq, List.map_flatMap]
  induction p.declarationList with
  | nil => exact List.nil_sublist _
  | cons d rest ih =>
    rw [List.flatMap_cons, List.flatMap_cons]
    refine List.Sublist.append ?_ ih
    cases d with
    | vars group => exact List.nil_sublist _
    | function f => exact List.Sublist.refl _

/-! ## Places -/

lemma functions_map_bare (list : List Decl) :
    (list.map Decl.bare).flatMap Decl.functions =
      (list.flatMap Decl.functions).map FunctionDecl.bare := by
  rw [List.flatMap_map, List.map_flatMap]
  refine congrArg (fun f => list.flatMap f) (funext fun d => ?_)
  cases d <;> rfl

lemma varDefs_map_bare (list : List Decl) :
    (list.map Decl.bare).flatMap Decl.varDefs = list.flatMap Decl.varDefs := by
  rw [List.flatMap_map]
  refine congrArg (fun f => list.flatMap f) (funext fun d => ?_)
  cases d <;> rfl

lemma exists_mem_map_bare {list : List FunctionDecl} {name : String} {arity : Nat} :
    (∃ g ∈ list.map FunctionDecl.bare, g.name = name ∧ g.paramList.length = arity) ↔
      ∃ g ∈ list, g.name = name ∧ g.paramList.length = arity := by
  constructor
  · rintro ⟨_, hmem, hname, harity⟩
    obtain ⟨g, hg, rfl⟩ := List.mem_map.1 hmem
    exact ⟨g, hg, hname, harity⟩
  · rintro ⟨g, hg, hname, harity⟩
    exact ⟨g.bare, List.mem_map_of_mem hg, hname, harity⟩

lemma functionEnv_bare (f : FunctionDecl) (before : List Decl) :
    f.bare.env (before.map Decl.bare) = f.env before := by
  have hcallable : (f.bare.env (before.map Decl.bare)).callable = (f.env before).callable := by
    funext name arity
    have hfunctions : (before.map Decl.bare).flatMap Decl.functions ++ [f.bare] =
        (before.flatMap Decl.functions ++ [f]).map FunctionDecl.bare := by
      rw [functions_map_bare, List.map_append]
      rfl
    simp only [FunctionDecl.env, hfunctions, varDefs_map_bare, exists_mem_map_bare]
    rfl
  exact congrArg (Env.mk (fun symbol => symbol ∈ f.innerSymbols)) hcallable

lemma functionEnv_eq_of_bare_eq {f f' : FunctionDecl} {before before' : List Decl}
    (hf : f'.bare = f.bare) (hbefore : before'.map Decl.bare = before.map Decl.bare) :
    f'.env before' = f.env before := by
  rw [← functionEnv_bare f' before', hf, hbefore, functionEnv_bare]

lemma declarationList_bare (p : Program) :
    p.bare.declarationList = p.declarationList.map Decl.bare := by
  rw [Program.declarationList, Program.declarationList, Program.bare]
  cases p.declarations <;> rfl

lemma Program.varDefs_bare (p : Program) : p.bare.varDefs = p.varDefs := by
  rw [Program.varDefs_eq, Program.varDefs_eq, declarationList_bare, varDefs_map_bare]

lemma Program.functions_bare (p : Program) :
    p.bare.functions = p.functions.map FunctionDecl.bare := by
  rw [Program.functions_eq, Program.functions_eq, declarationList_bare, functions_map_bare]

lemma programEnv_bare (p : Program) : p.bare.env = p.env := by
  have hcallable : p.bare.env.callable = p.env.callable := by
    funext name arity
    simp only [Program.env, p.functions_bare, p.varDefs_bare, exists_mem_map_bare]
  have hown : p.bare.env.own = p.env.own := by
    simp only [Program.env, p.varDefs_bare]
  exact congrArg₂ Env.mk hown hcallable

/-! ## Expressions and statements -/

/-- Comparisons are told from the other expressions without their annotations. -/
@[simp] lemma Expr.typeOf_bare (e : Expr) : e.bare.typeOf = e.typeOf := by
  cases e with
  | call name args ty => cases args <;> rfl
  | _ => rfl

/-- Trees that differ only in annotations have the same type. -/
lemma Expr.typeOf_eq_of_bare_eq {e e' : Expr} (h : e'.bare = e.bare) : e'.typeOf = e.typeOf := by
  rw [← Expr.typeOf_bare e', h, Expr.typeOf_bare]

section Rules

variable {Γ : Env}

lemma Expr.forall_wellTyped_map_bare {list : List Expr}
    (h : ∀ e ∈ list, (e.bare.WellTyped Γ ↔ e.WellTyped Γ)) :
    (∀ e ∈ list.map Expr.bare, e.WellTyped Γ) ↔ ∀ e ∈ list, e.WellTyped Γ := by
  rw [List.forall_mem_map]
  exact forall₂_congr h

lemma Expr.wellTyped_bare_iff (e : Expr) : e.bare.WellTyped Γ ↔ e.WellTyped Γ := by
  induction e with
  | integer value ty => exact ⟨fun _ => .integer, fun _ => .integer⟩
  | var name symbol ty =>
    constructor
    · rintro (_ | ⟨hfound⟩)
      exact .var hfound
    · rintro (_ | ⟨hfound⟩)
      exact .var hfound
  | element name index symbol ty ih =>
    constructor
    · rintro (_ | _ | ⟨hfound, hindex, hint⟩)
      exact .element hfound (ih.1 hindex) (index.typeOf_bare ▸ hint)
    · rintro (_ | _ | ⟨hfound, hindex, hint⟩)
      exact .element hfound (ih.2 hindex) (index.typeOf_bare.symm ▸ hint)
  | arith op left right ty ihl ihr =>
    constructor
    · rintro (_ | _ | _ | ⟨hl, hlint, hr, hrint⟩)
      exact .arith (ihl.1 hl) (left.typeOf_bare ▸ hlint) (ihr.1 hr) (right.typeOf_bare ▸ hrint)
    · rintro (_ | _ | _ | ⟨hl, hlint, hr, hrint⟩)
      exact .arith (ihl.2 hl) (left.typeOf_bare.symm ▸ hlint) (ihr.2 hr)
        (right.typeOf_bare.symm ▸ hrint)
  | compare op left right ty ihl ihr =>
    constructor
    · rintro (_ | _ | _ | _ | ⟨hl, hr⟩)
      exact .compare (ihl.1 hl) (ihr.1 hr)
    · rintro (_ | _ | _ | _ | ⟨hl, hr⟩)
      exact .compare (ihl.2 hl) (ihr.2 hr)
  | call name args ty ih =>
    have hargs := Expr.forall_wellTyped_map_bare ih
    rw [Expr.bare_call]
    constructor
    · rintro (_ | _ | _ | _ | _ | ⟨hcall, h⟩)
      rw [getD_map_map] at hcall h
      rw [List.length_map] at hcall
      exact .call hcall (hargs.1 h)
    · rintro (_ | _ | _ | _ | _ | ⟨hcall, h⟩)
      refine .call ?_ ?_
      · rwa [getD_map_map, List.length_map]
      · rw [getD_map_map]
        exact hargs.2 h

lemma Target.wellTyped_bare_iff (t : Target) : t.bare.WellTyped Γ ↔ t.WellTyped Γ := by
  cases t with
  | var name symbol =>
    constructor
    · rintro ⟨hfound⟩
      exact .var hfound
    · rintro ⟨hfound⟩
      exact .var hfound
  | element name index symbol =>
    constructor
    · rintro (_ | ⟨hfound, hindex, hint⟩)
      exact .element hfound (index.wellTyped_bare_iff.1 hindex) (index.typeOf_bare ▸ hint)
    · rintro (_ | ⟨hfound, hindex, hint⟩)
      exact .element hfound (index.wellTyped_bare_iff.2 hindex) (index.typeOf_bare.symm ▸ hint)

lemma Stmt.forall_wellTyped_map_bare {list : List Stmt}
    (h : ∀ s ∈ list, (s.bare.WellTyped Γ ↔ s.WellTyped Γ)) :
    (∀ s ∈ list.map Stmt.bare, s.WellTyped Γ) ↔ ∀ s ∈ list, s.WellTyped Γ := by
  rw [List.forall_mem_map]
  exact forall₂_congr h

lemma Stmt.wellTyped_bare_iff (s : Stmt) : s.bare.WellTyped Γ ↔ s.WellTyped Γ := by
  induction s with
  | assign target value targetTy ty =>
    constructor
    · rintro ⟨htarget, hvalue, hint⟩
      exact .assign (target.wellTyped_bare_iff.1 htarget) (value.wellTyped_bare_iff.1 hvalue)
        (value.typeOf_bare ▸ hint)
    · rintro ⟨htarget, hvalue, hint⟩
      exact .assign (target.wellTyped_bare_iff.2 htarget) (value.wellTyped_bare_iff.2 hvalue)
        (value.typeOf_bare.symm ▸ hint)
  | print value =>
    constructor
    · rintro (_ | ⟨hvalue⟩)
      exact .print (value.wellTyped_bare_iff.1 hvalue)
    · rintro (_ | ⟨hvalue⟩)
      exact .print (value.wellTyped_bare_iff.2 hvalue)
  | read name symbol =>
    constructor
    · rintro (_ | _ | ⟨hfound⟩)
      exact .read hfound
    · rintro (_ | _ | ⟨hfound⟩)
      exact .read hfound
  | ret value =>
    constructor
    · rintro (_ | _ | _ | ⟨hvalue⟩)
      exact .ret (value.wellTyped_bare_iff.1 hvalue)
    · rintro (_ | _ | _ | ⟨hvalue⟩)
      exact .ret (value.wellTyped_bare_iff.2 hvalue)
  | branch condition yes no ihyes ihno =>
    have hyes := Stmt.forall_wellTyped_map_bare ihyes
    have hno := Stmt.forall_wellTyped_map_bare ihno
    rw [Stmt.bare_branch]
    constructor
    · rintro (_ | _ | _ | _ | ⟨hcond, hbool, hy, hn⟩)
      rw [getD_map_map] at hn
      exact .branch (condition.wellTyped_bare_iff.1 hcond) (condition.typeOf_bare ▸ hbool)
        (hyes.1 hy) (hno.1 hn)
    · rintro (_ | _ | _ | _ | ⟨hcond, hbool, hy, hn⟩)
      refine .branch (condition.wellTyped_bare_iff.2 hcond) (condition.typeOf_bare.symm ▸ hbool)
        (hyes.2 hy) ?_
      rw [getD_map_map]
      exact hno.2 hn
  | loop condition body ih =>
    have hbody := Stmt.forall_wellTyped_map_bare ih
    rw [Stmt.bare, Stmt.bareAll_eq_map]
    constructor
    · rintro (_ | _ | _ | _ | _ | ⟨hcond, hbool, hb⟩)
      exact .loop (condition.wellTyped_bare_iff.1 hcond) (condition.typeOf_bare ▸ hbool)
        (hbody.1 hb)
    · rintro (_ | _ | _ | _ | _ | ⟨hcond, hbool, hb⟩)
      exact .loop (condition.wellTyped_bare_iff.2 hcond) (condition.typeOf_bare.symm ▸ hbool)
        (hbody.2 hb)
  | block body ih =>
    have hbody := Stmt.forall_wellTyped_map_bare ih
    rw [Stmt.bare, Stmt.bareAll_eq_map]
    constructor
    · rintro (_ | _ | _ | _ | _ | _ | ⟨hb⟩)
      exact .block (hbody.1 hb)
    · rintro (_ | _ | _ | _ | _ | _ | ⟨hb⟩)
      exact .block (hbody.2 hb)

lemma Stmt.forall_wellTyped_bare_iff (list : List Stmt) :
    (∀ s ∈ Stmt.bareAll list, s.WellTyped Γ) ↔ ∀ s ∈ list, s.WellTyped Γ := by
  rw [Stmt.bareAll_eq_map]
  exact Stmt.forall_wellTyped_map_bare fun s _ => s.wellTyped_bare_iff

end Rules

/-! ## Programs -/

lemma FunctionDecl.wellFormed_bare_iff (f : FunctionDecl) (before : List Decl) :
    f.bare.WellFormed (before.map Decl.bare) ↔ f.WellFormed before := by
  have hbody := Stmt.forall_wellTyped_bare_iff f.body (Γ := f.env before)
  constructor
  · rintro ⟨hunreserved, hdistinct, hb⟩
    rw [functionEnv_bare] at hb
    exact ⟨hunreserved, hdistinct, hbody.1 hb⟩
  · rintro ⟨hunreserved, hdistinct, hb⟩
    refine ⟨hunreserved, hdistinct, ?_⟩
    rw [functionEnv_bare]
    exact hbody.2 hb

/-- A function among declarations without annotations is one of the declarations, without its
annotations. -/
lemma map_bare_eq_append_function {list before after : List Decl} {f : FunctionDecl}
    (h : list.map Decl.bare = before ++ .function f :: after) :
    ∃ before' f' after', list = before' ++ .function f' :: after' ∧
      before'.map Decl.bare = before ∧ f'.bare = f := by
  obtain ⟨before', tail, rfl, hbefore, htail⟩ := List.map_eq_append_iff.1 h
  obtain ⟨d, after', rfl, hd, _⟩ := List.map_eq_cons_iff.1 htail
  cases d with
  | vars group => cases hd
  | function f' =>
    cases hd
    exact ⟨before', f', after', rfl, hbefore, rfl⟩

lemma Program.names_bare (p : Program) :
    p.bare.declarationList.flatMap Decl.names = p.declarationList.flatMap Decl.names := by
  rw [declarationList_bare, List.flatMap_map]
  refine congrArg (fun f => p.declarationList.flatMap f) (funext fun d => ?_)
  cases d <;> rfl

/-- Whether a program is well formed depends on its bare tree alone. -/
lemma Program.wellFormed_bare_iff (p : Program) : p.bare.WellFormed ↔ p.WellFormed := by
  have hnames := p.names_bare
  constructor
  · rintro ⟨hdistinct, hfunctions, hbody⟩
    refine ⟨hnames ▸ hdistinct, ?_, ?_⟩
    · intro before f after hsplit
      refine (f.wellFormed_bare_iff before).1 (hfunctions _ _ (after.map Decl.bare) ?_)
      rw [declarationList_bare, hsplit, List.map_append]
      rfl
    · rw [programEnv_bare] at hbody
      exact (Stmt.forall_wellTyped_bare_iff p.body).1 hbody
  · rintro ⟨hdistinct, hfunctions, hbody⟩
    refine ⟨hnames.symm ▸ hdistinct, ?_, ?_⟩
    · intro before f after hsplit
      rw [declarationList_bare] at hsplit
      obtain ⟨before', f', after', hlist, rfl, rfl⟩ := map_bare_eq_append_function hsplit
      exact (f'.wellFormed_bare_iff before').2 (hfunctions before' f' after' hlist)
    · rw [programEnv_bare]
      exact (Stmt.forall_wellTyped_bare_iff p.body).2 hbody

end DLang
