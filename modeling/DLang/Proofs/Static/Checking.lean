import DLang.Proofs.Static.Bare

/-!
# Checking decides the rules

At a place that a symbol table shows (`SymbolTable.Shows`), checking an expression or a statement
accepts exactly what the rules admit.  The two halves are separate inductions: what the rules admit
is accepted and comes back annotated (`Expr.check_of_wellTyped`, on the derivation), and what is
accepted follows the rules (`Expr.wellTyped_of_check`, on the tree).

Whatever the verdict, only annotations change (`Expr.bare_check`, `Stmt.bare_check`).
-/

namespace DLang

/-- The look-ups of a symbol table are those of a place. -/
structure SymbolTable.Shows (table : SymbolTable) (Γ : Env) : Prop where
  scalar : ∀ name symbol, table.scalar? name = some symbol ↔ Γ.IsScalar name symbol
  array : ∀ name found, table.array? name = some found ↔ Γ.IsArray name found.1 ∧ found.2 = .int
  function : ∀ name arity, table.hasFunction name arity = true ↔ Γ.callable name arity

variable {table : SymbolTable} {Γ : Env}

/-! ## Only annotations change -/

namespace Checked

variable {α β γ δ ε : Type}

/-- What a view `f` of the tree shows after a check that goes on after a part, if it shows the same
of what a rejected part leaves and of whatever follows an accepted one. -/
lemma view_andThen {part : Checked α β} {whole : α → γ} {next : α → β → Checked γ δ}
    {f : γ → ε} {shown : ε} (hwhole : f (whole part.tree) = shown)
    (hnext : ∀ result, f (next part.tree result).tree = shown) :
    f (part.andThen whole next).tree = shown := by
  cases hpart : part.verdict with
  | ok result =>
    rw [andThen_of_ok hpart]
    exact hnext result
  | error error =>
    rw [andThen_of_error hpart]
    exact hwhole

end Checked

lemma Expr.bare_checkAll (table : SymbolTable) (list : List Expr)
    (h : ∀ e ∈ list, (e.check table).tree.bare = e.bare) :
    (Expr.checkAll table list).tree.map Expr.bare = list.map Expr.bare := by
  induction list with
  | nil => rfl
  | cons e rest ih =>
    have he := h e List.mem_cons_self
    have hrest := ih fun e' h' => h e' (List.mem_cons_of_mem e h')
    rw [Expr.checkAll]
    refine Checked.view_andThen ?_ ?_
    · rw [List.map_cons, he, List.map_cons]
    · intro _
      rw [Checked.map, List.map_cons, he, hrest, List.map_cons]

/-- A check changes nothing but annotations of an expression. -/
lemma Expr.bare_check (table : SymbolTable) (e : Expr) : (e.check table).tree.bare = e.bare := by
  induction e with
  | integer value ty => rfl
  | var name symbol ty =>
    rw [Expr.check]
    cases table.scalar? name <;> rfl
  | element name index symbol ty ih =>
    rw [Expr.check]
    cases table.array? name with
    | none => rfl
    | some found =>
      refine Checked.view_andThen ?_ ?_
      · simp only [Expr.bare, ih]
      · intro indexTy
        by_cases hint : indexTy = .int
        · simp only [if_pos hint, Checked.accept, Expr.bare, ih]
        · simp only [if_neg hint, Checked.reject, Expr.bare, ih]
  | arith op left right ty ihl ihr =>
    rw [Expr.check]
    refine Checked.view_andThen ?_ ?_
    · simp only [Expr.bare, ihl]
    · intro leftTy
      refine Checked.view_andThen ?_ ?_
      · simp only [Expr.bare, ihl, ihr]
      · intro rightTy
        by_cases hint : leftTy = .int ∧ rightTy = .int
        · simp only [if_pos hint, Checked.accept, Expr.bare, ihl, ihr]
        · simp only [if_neg hint, Checked.reject, Expr.bare, ihl, ihr]
  | compare op left right ty ihl ihr =>
    rw [Expr.check]
    refine Checked.view_andThen ?_ ?_
    · simp only [Expr.bare, ihl]
    · intro leftTy
      refine Checked.view_andThen ?_ ?_
      · simp only [Expr.bare, ihl, ihr]
      · intro rightTy
        simp only [Ty.isComparable_eq_true, and_self, if_true, Checked.accept, Expr.bare, ihl, ihr]
  | call name args ty ih =>
    cases args with
    | none =>
      rw [Expr.check]
      by_cases hfun : table.hasFunction name 0
      · simp only [if_pos hfun, Checked.accept, Expr.bare]
      · simp only [if_neg hfun, Checked.reject, Expr.bare]
    | some args =>
      rw [Expr.check]
      by_cases hfun : table.hasFunction name args.length
      · have hargs := Expr.bare_checkAll table args ih
        rw [if_pos hfun]
        refine Checked.view_andThen ?_ ?_
        · simp only [Expr.bare, Expr.bareAll_eq_map, hargs]
        · intro _
          simp only [Checked.accept, Expr.bare, Expr.bareAll_eq_map, hargs]
      · simp only [if_neg hfun, Checked.reject]

/-- Checking an expression keeps its type. -/
lemma Expr.typeOf_check {e e' : Expr} {τ : Ty} (h : e.check table = .accept e' τ) :
    e'.typeOf = e.typeOf := by
  have hbare := Expr.bare_check table e
  rw [h] at hbare
  exact Expr.typeOf_eq_of_bare_eq hbare

/-! ## Expressions -/

lemma Expr.checkAll_of_forall {list : List Expr}
    (h : ∀ e ∈ list, ∃ e', e.check table = .accept e' e.typeOf ∧ e'.Annotated Γ) :
    ∃ list', Expr.checkAll table list = .accept list' () ∧ list'.length = list.length ∧
      ∀ e' ∈ list', e'.Annotated Γ := by
  induction list with
  | nil => exact ⟨[], rfl, rfl, fun _ h => nomatch h⟩
  | cons e rest ih =>
    obtain ⟨e', he, hann⟩ := h e List.mem_cons_self
    obtain ⟨rest', hrest, hlength, hanns⟩ := ih fun d hd => h d (List.mem_cons_of_mem e hd)
    refine ⟨e' :: rest', ?_, by simp [hlength], ?_⟩
    · rw [Expr.checkAll, he, hrest]
      rfl
    · intro d hd
      rcases List.mem_cons.1 hd with rfl | hd
      · exact hann
      · exact hanns d hd

/-- What the rules admit is accepted, with its type, and comes back annotated. -/
lemma Expr.check_of_wellTyped (hshows : table.Shows Γ) {e : Expr} (h : e.WellTyped Γ) :
    ∃ e', e.check table = .accept e' e.typeOf ∧ e'.Annotated Γ := by
  induction h with
  | integer => exact ⟨_, rfl, .integer⟩
  | @var name symbol ty found hfound =>
    have hlookup := (hshows.scalar name found).2 hfound
    refine ⟨.var name (some found) (some .int), ?_, .var hfound⟩
    rw [Expr.check, hlookup]
    rfl
  | @element name index symbol ty found hfound _ hint ih =>
    obtain ⟨index', hcheck, hann⟩ := ih
    have hlookup := (hshows.array name (found, .int)).2 ⟨hfound, rfl⟩
    refine ⟨.element name index' (some found) (some .int), ?_,
      .element hfound hann (by rw [Expr.typeOf_check hcheck, hint])⟩
    rw [Expr.check, hlookup, hcheck, hint]
    rfl
  | @arith op left right ty _ hleft _ hright ihl ihr =>
    obtain ⟨left', hl, hannl⟩ := ihl
    obtain ⟨right', hr, hannr⟩ := ihr
    refine ⟨.arith op left' right' (some .int), ?_,
      .arith hannl (by rw [Expr.typeOf_check hl, hleft]) hannr
        (by rw [Expr.typeOf_check hr, hright])⟩
    rw [Expr.check, hl, hr, hleft, hright]
    rfl
  | @compare op left right ty _ _ ihl ihr =>
    obtain ⟨left', hl, hannl⟩ := ihl
    obtain ⟨right', hr, hannr⟩ := ihr
    refine ⟨.compare op left' right' (some .bool), ?_, .compare hannl hannr⟩
    rw [Expr.check, hl, hr]
    exact if_pos ⟨Ty.isComparable_eq_true _, Ty.isComparable_eq_true _⟩
  | @call name args ty hcall _ ih =>
    cases args with
    | none =>
      have hfun : table.hasFunction name 0 = true := (hshows.function name 0).2 hcall
      refine ⟨.call name none (some .int), ?_, .call hcall (fun _ h => nomatch h)⟩
      rw [Expr.check, if_pos hfun]
      rfl
    | some args =>
      have hfun : table.hasFunction name args.length = true :=
        (hshows.function name args.length).2 hcall
      obtain ⟨args', hargs, hlength, hanns⟩ :
          ∃ args', Expr.checkAll table args = .accept args' () ∧ args'.length = args.length ∧
            ∀ e' ∈ args', e'.Annotated Γ := Expr.checkAll_of_forall ih
      refine ⟨.call name (some args') (some .int), ?_, .call ?_ hanns⟩
      · rw [Expr.check, if_pos hfun, hargs]
        rfl
      · rw [Option.getD_some, hlength]
        exact hcall

lemma Expr.forall_of_checkAll {list : List Expr}
    (h : (Expr.checkAll table list).verdict = .ok ()) :
    ∀ e ∈ list, ∃ τ, (e.check table).verdict = .ok τ := by
  induction list with
  | nil => exact fun _ h => nomatch h
  | cons e rest ih =>
    rw [Expr.checkAll] at h
    obtain ⟨τ, he, hrest⟩ := Checked.exists_of_andThen_ok h
    intro d hd
    rcases List.mem_cons.1 hd with rfl | hd
    · exact ⟨τ, he⟩
    · exact ih hrest d hd

/-- What is accepted follows the rules, and the type found is that of the expression. -/
lemma Expr.wellTyped_of_check (hshows : table.Shows Γ) {e : Expr} {τ : Ty}
    (h : (e.check table).verdict = .ok τ) : e.WellTyped Γ ∧ e.typeOf = τ := by
  induction e generalizing τ with
  | integer value ty =>
    cases h
    exact ⟨.integer, rfl⟩
  | var name symbol ty =>
    rw [Expr.check] at h
    cases hlookup : table.scalar? name with
    | none =>
      rw [hlookup] at h
      cases h
    | some found =>
      rw [hlookup] at h
      cases h
      exact ⟨.var ((hshows.scalar name found).1 hlookup), rfl⟩
  | element name index symbol ty ih =>
    rw [Expr.check] at h
    cases hlookup : table.array? name with
    | none =>
      rw [hlookup] at h
      cases h
    | some found =>
      rw [hlookup] at h
      obtain ⟨indexTy, hindex, hrest⟩ := Checked.exists_of_andThen_ok h
      obtain ⟨hwell, htype⟩ := ih hindex
      obtain ⟨harray, hint⟩ := (hshows.array name found).1 hlookup
      by_cases hindexTy : indexTy = .int
      · rw [if_pos hindexTy] at hrest
        cases hrest
        exact ⟨.element harray hwell (htype.trans hindexTy), hint.symm⟩
      · rw [if_neg hindexTy] at hrest
        cases hrest
  | arith op left right ty ihl ihr =>
    rw [Expr.check] at h
    obtain ⟨leftTy, hleft, h⟩ := Checked.exists_of_andThen_ok h
    obtain ⟨rightTy, hright, h⟩ := Checked.exists_of_andThen_ok h
    obtain ⟨hwelll, htypel⟩ := ihl hleft
    obtain ⟨hwellr, htyper⟩ := ihr hright
    by_cases hint : leftTy = .int ∧ rightTy = .int
    · rw [if_pos hint] at h
      cases h
      exact ⟨.arith hwelll (htypel.trans hint.1) hwellr (htyper.trans hint.2), rfl⟩
    · rw [if_neg hint] at h
      cases h
  | compare op left right ty ihl ihr =>
    rw [Expr.check] at h
    obtain ⟨leftTy, hleft, h⟩ := Checked.exists_of_andThen_ok h
    obtain ⟨rightTy, hright, h⟩ := Checked.exists_of_andThen_ok h
    rw [if_pos ⟨leftTy.isComparable_eq_true, rightTy.isComparable_eq_true⟩] at h
    cases h
    exact ⟨.compare (ihl hleft).1 (ihr hright).1, rfl⟩
  | call name args ty ih =>
    cases args with
    | none =>
      rw [Expr.check] at h
      by_cases hfun : table.hasFunction name 0 = true
      · rw [if_pos hfun] at h
        cases h
        exact ⟨.call ((hshows.function name 0).1 hfun) (fun _ h => nomatch h), rfl⟩
      · rw [if_neg hfun] at h
        cases h
    | some args =>
      rw [Expr.check] at h
      by_cases hfun : table.hasFunction name args.length = true
      · rw [if_pos hfun] at h
        obtain ⟨_, hargs, h⟩ := Checked.exists_of_andThen_ok h
        cases h
        refine ⟨.call ((hshows.function name _).1 hfun) ?_, rfl⟩
        intro e he
        obtain ⟨σ, hσ⟩ := Expr.forall_of_checkAll hargs e he
        exact (ih e he hσ).1
      · rw [if_neg hfun] at h
        cases h

/-! ## Targets and conditions -/

/-- A check changes nothing but annotations of a target. -/
lemma Target.bare_check (table : SymbolTable) (target : Target) :
    (target.check table).tree.bare = target.bare := by
  cases target with
  | var name symbol =>
    rw [Target.check]
    cases table.scalar? name <;> rfl
  | element name index symbol =>
    have hindex := Expr.bare_check table index
    rw [Target.check]
    cases table.array? name with
    | none => rfl
    | some found =>
      refine Checked.view_andThen ?_ ?_
      · simp only [Target.bare, hindex]
      · intro indexTy
        by_cases hint : indexTy = .int
        · simp only [if_pos hint, Checked.accept, Target.bare, hindex]
        · simp only [if_neg hint, Checked.reject, Target.bare, hindex]

lemma Target.check_of_wellTyped (hshows : table.Shows Γ) {target : Target}
    (h : target.WellTyped Γ) :
    ∃ target', target.check table = .accept target' .int ∧ target'.Annotated Γ := by
  cases h with
  | @var name symbol found hfound =>
    have hlookup := (hshows.scalar name found).2 hfound
    refine ⟨.var name (some found), ?_, .var hfound⟩
    rw [Target.check, hlookup]
  | @element name index symbol found hfound hindex hint =>
    obtain ⟨index', hcheck, hann⟩ := Expr.check_of_wellTyped hshows hindex
    have hlookup := (hshows.array name (found, .int)).2 ⟨hfound, rfl⟩
    refine ⟨.element name index' (some found), ?_,
      .element hfound hann (by rw [Expr.typeOf_check hcheck, hint])⟩
    rw [Target.check, hlookup, hcheck, hint]
    rfl

lemma Target.wellTyped_of_check (hshows : table.Shows Γ) {target : Target} {τ : Ty}
    (h : (target.check table).verdict = .ok τ) : target.WellTyped Γ ∧ τ = .int := by
  cases target with
  | var name symbol =>
    rw [Target.check] at h
    cases hlookup : table.scalar? name with
    | none =>
      rw [hlookup] at h
      cases h
    | some found =>
      rw [hlookup] at h
      cases h
      exact ⟨.var ((hshows.scalar name found).1 hlookup), rfl⟩
  | element name index symbol =>
    rw [Target.check] at h
    cases hlookup : table.array? name with
    | none =>
      rw [hlookup] at h
      cases h
    | some found =>
      rw [hlookup] at h
      obtain ⟨indexTy, hindex, hrest⟩ := Checked.exists_of_andThen_ok h
      obtain ⟨hwell, htype⟩ := Expr.wellTyped_of_check hshows hindex
      obtain ⟨harray, hint⟩ := (hshows.array name found).1 hlookup
      by_cases hindexTy : indexTy = .int
      · rw [if_pos hindexTy] at hrest
        cases hrest
        exact ⟨.element harray hwell (htype.trans hindexTy), hint⟩
      · rw [if_neg hindexTy] at hrest
        cases hrest

/-- A check changes nothing but annotations of a condition. -/
lemma Expr.bare_checkCondition (table : SymbolTable) (condition : Expr) :
    (condition.checkCondition table).tree.bare = condition.bare := by
  have hbare := Expr.bare_check table condition
  rw [Expr.checkCondition]
  refine Checked.view_andThen hbare ?_
  intro ty
  by_cases hbool : ty = .bool
  · simp only [if_pos hbool, Checked.accept, hbare]
  · simp only [if_neg hbool, Checked.reject, hbare]

lemma Expr.checkCondition_of_wellTyped (hshows : table.Shows Γ) {condition : Expr}
    (h : condition.WellTyped Γ) (hbool : condition.typeOf = .bool) :
    ∃ condition', condition.checkCondition table = .accept condition' () ∧
      condition'.Annotated Γ ∧ condition'.typeOf = .bool := by
  obtain ⟨condition', hcheck, hann⟩ := Expr.check_of_wellTyped hshows h
  refine ⟨condition', ?_, hann, by rw [Expr.typeOf_check hcheck, hbool]⟩
  rw [Expr.checkCondition, hcheck, hbool]
  rfl

lemma Expr.wellTyped_of_checkCondition (hshows : table.Shows Γ) {condition : Expr}
    (h : (condition.checkCondition table).verdict = .ok ()) :
    condition.WellTyped Γ ∧ condition.typeOf = .bool := by
  rw [Expr.checkCondition] at h
  obtain ⟨ty, hcheck, hrest⟩ := Checked.exists_of_andThen_ok h
  obtain ⟨hwell, htype⟩ := Expr.wellTyped_of_check hshows hcheck
  by_cases hbool : ty = .bool
  · exact ⟨hwell, htype.trans hbool⟩
  · rw [if_neg hbool] at hrest
    cases hrest

/-! ## Statements -/

lemma Stmt.bare_checkAll_of_forall (table : SymbolTable) (list : List Stmt)
    (h : ∀ s ∈ list, (s.check table).tree.bare = s.bare) :
    (Stmt.checkAll table list).tree.map Stmt.bare = list.map Stmt.bare := by
  induction list with
  | nil => rfl
  | cons s rest ih =>
    have hs := h s List.mem_cons_self
    have hrest := ih fun s' h' => h s' (List.mem_cons_of_mem s h')
    rw [Stmt.checkAll]
    refine Checked.view_andThen ?_ ?_
    · rw [List.map_cons, hs, List.map_cons]
    · intro _
      rw [Checked.map, List.map_cons, hs, hrest, List.map_cons]

/-- A check changes nothing but annotations of a statement. -/
lemma Stmt.bare_check (table : SymbolTable) (s : Stmt) : (s.check table).tree.bare = s.bare := by
  induction s with
  | assign target value targetTy ty =>
    have htarget := Target.bare_check table target
    have hvalue := Expr.bare_check table value
    rw [Stmt.check]
    refine Checked.view_andThen ?_ ?_
    · simp only [Stmt.bare, htarget]
    · intro found
      refine Checked.view_andThen ?_ ?_
      · simp only [Stmt.bare, htarget, hvalue]
      · intro valueTy
        by_cases hint : found = .int ∧ valueTy = .int
        · simp only [if_pos hint, Checked.accept, Stmt.bare, htarget, hvalue]
        · simp only [if_neg hint, Checked.reject, Stmt.bare, htarget, hvalue]
  | print value =>
    have hvalue := Expr.bare_check table value
    rw [Stmt.check]
    refine Checked.view_andThen ?_ fun _ => ?_ <;> simp only [Checked.accept, Stmt.bare, hvalue]
  | ret value =>
    have hvalue := Expr.bare_check table value
    rw [Stmt.check]
    refine Checked.view_andThen ?_ fun _ => ?_ <;> simp only [Checked.accept, Stmt.bare, hvalue]
  | read name symbol =>
    rw [Stmt.check]
    cases table.scalar? name <;> rfl
  | branch condition yes no ihyes ihno =>
    have hcondition := Expr.bare_checkCondition table condition
    have hyes := Stmt.bare_checkAll_of_forall table yes ihyes
    cases no with
    | none =>
      rw [Stmt.check]
      refine Checked.view_andThen ?_ fun _ => ?_ <;>
        simp only [Checked.map, Stmt.bare, Stmt.bareAll_eq_map, hcondition, hyes]
    | some no =>
      have hno := Stmt.bare_checkAll_of_forall table no ihno
      rw [Stmt.check]
      refine Checked.view_andThen ?_ fun _ => Checked.view_andThen ?_ fun _ => ?_ <;>
        simp only [Checked.map, Stmt.bare, Stmt.bareAll_eq_map, hcondition, hyes, hno]
  | loop condition body ih =>
    have hcondition := Expr.bare_checkCondition table condition
    have hbody := Stmt.bare_checkAll_of_forall table body ih
    rw [Stmt.check]
    refine Checked.view_andThen ?_ fun _ => ?_ <;>
      simp only [Checked.map, Stmt.bare, Stmt.bareAll_eq_map, hcondition, hbody]
  | block body ih =>
    have hbody := Stmt.bare_checkAll_of_forall table body ih
    simp only [Stmt.check, Checked.map, Stmt.bare, Stmt.bareAll_eq_map, hbody]

/-- A check changes nothing but annotations of statements. -/
lemma Stmt.bare_checkAll (table : SymbolTable) (list : List Stmt) :
    (Stmt.checkAll table list).tree.map Stmt.bare = list.map Stmt.bare :=
  Stmt.bare_checkAll_of_forall table list fun s _ => Stmt.bare_check table s

lemma Stmt.checkAll_of_forall {list : List Stmt}
    (h : ∀ s ∈ list, ∃ s', s.check table = .accept s' () ∧ s'.Annotated Γ) :
    ∃ list', Stmt.checkAll table list = .accept list' () ∧ ∀ s' ∈ list', s'.Annotated Γ := by
  induction list with
  | nil => exact ⟨[], rfl, fun _ h => nomatch h⟩
  | cons s rest ih =>
    obtain ⟨s', hs, hann⟩ := h s List.mem_cons_self
    obtain ⟨rest', hrest, hanns⟩ := ih fun d hd => h d (List.mem_cons_of_mem s hd)
    refine ⟨s' :: rest', ?_, ?_⟩
    · rw [Stmt.checkAll, hs, hrest]
      rfl
    · intro d hd
      rcases List.mem_cons.1 hd with rfl | hd
      · exact hann
      · exact hanns d hd

/-- What the rules admit is accepted and comes back annotated. -/
lemma Stmt.check_of_wellTyped (hshows : table.Shows Γ) {s : Stmt} (h : s.WellTyped Γ) :
    ∃ s', s.check table = .accept s' () ∧ s'.Annotated Γ := by
  induction h with
  | @assign target value targetTy ty htarget hvalue hint =>
    obtain ⟨target', ht, hannt⟩ := Target.check_of_wellTyped hshows htarget
    obtain ⟨value', hv, hannv⟩ := Expr.check_of_wellTyped hshows hvalue
    refine ⟨.assign target' value' (some .int) (some .int), ?_,
      .assign hannt hannv (by rw [Expr.typeOf_check hv, hint])⟩
    rw [Stmt.check, ht, hv, hint]
    rfl
  | @print value hvalue =>
    obtain ⟨value', hv, hann⟩ := Expr.check_of_wellTyped hshows hvalue
    refine ⟨.print value', ?_, .print hann⟩
    rw [Stmt.check, hv]
    rfl
  | @read name symbol found hfound =>
    have hlookup := (hshows.scalar name found).2 hfound
    refine ⟨.read name (some found), ?_, .read hfound⟩
    rw [Stmt.check, hlookup]
  | @ret value hvalue =>
    obtain ⟨value', hv, hann⟩ := Expr.check_of_wellTyped hshows hvalue
    refine ⟨.ret value', ?_, .ret hann⟩
    rw [Stmt.check, hv]
    rfl
  | @branch condition yes no hcondition hbool _ _ ihyes ihno =>
    obtain ⟨condition', hc, hannc, htype⟩ :=
      Expr.checkCondition_of_wellTyped hshows hcondition hbool
    obtain ⟨yes', hy, hanny⟩ := Stmt.checkAll_of_forall ihyes
    cases no with
    | none =>
      refine ⟨.branch condition' yes' none, ?_,
        .branch hannc htype hanny fun _ h => nomatch h⟩
      rw [Stmt.check, hc, hy]
      rfl
    | some no =>
      obtain ⟨no', hn, hannn⟩ :
          ∃ no', Stmt.checkAll table no = .accept no' () ∧ ∀ s ∈ no', s.Annotated Γ :=
        Stmt.checkAll_of_forall ihno
      refine ⟨.branch condition' yes' (some no'), ?_, .branch hannc htype hanny hannn⟩
      rw [Stmt.check, hc, hy, hn]
      rfl
  | @loop condition body hcondition hbool _ ih =>
    obtain ⟨condition', hc, hannc, htype⟩ :=
      Expr.checkCondition_of_wellTyped hshows hcondition hbool
    obtain ⟨body', hb, hannb⟩ := Stmt.checkAll_of_forall ih
    refine ⟨.loop condition' body', ?_, .loop hannc htype hannb⟩
    rw [Stmt.check, hc, hb]
    rfl
  | @block body _ ih =>
    obtain ⟨body', hb, hannb⟩ := Stmt.checkAll_of_forall ih
    refine ⟨.block body', ?_, .block hannb⟩
    rw [Stmt.check, hb]
    rfl

lemma Stmt.forall_of_checkAll {list : List Stmt}
    (h : (Stmt.checkAll table list).verdict = .ok ()) :
    ∀ s ∈ list, (s.check table).verdict = .ok () := by
  induction list with
  | nil => exact fun _ h => nomatch h
  | cons s rest ih =>
    rw [Stmt.checkAll] at h
    obtain ⟨_, hs, hrest⟩ := Checked.exists_of_andThen_ok h
    intro d hd
    rcases List.mem_cons.1 hd with rfl | hd
    · exact hs
    · exact ih hrest d hd

/-- What is accepted follows the rules. -/
lemma Stmt.wellTyped_of_check (hshows : table.Shows Γ) {s : Stmt}
    (h : (s.check table).verdict = .ok ()) : s.WellTyped Γ := by
  induction s with
  | assign target value targetTy ty =>
    rw [Stmt.check] at h
    obtain ⟨found, htarget, h⟩ := Checked.exists_of_andThen_ok h
    obtain ⟨valueTy, hvalue, h⟩ := Checked.exists_of_andThen_ok h
    obtain ⟨hwellt, _⟩ := Target.wellTyped_of_check hshows htarget
    obtain ⟨hwellv, htype⟩ := Expr.wellTyped_of_check hshows hvalue
    by_cases hint : found = .int ∧ valueTy = .int
    · exact .assign hwellt hwellv (htype.trans hint.2)
    · rw [if_neg hint] at h
      cases h
  | print value =>
    rw [Stmt.check] at h
    obtain ⟨τ, hvalue, _⟩ := Checked.exists_of_andThen_ok h
    exact .print (Expr.wellTyped_of_check hshows hvalue).1
  | ret value =>
    rw [Stmt.check] at h
    obtain ⟨τ, hvalue, _⟩ := Checked.exists_of_andThen_ok h
    exact .ret (Expr.wellTyped_of_check hshows hvalue).1
  | read name symbol =>
    rw [Stmt.check] at h
    cases hlookup : table.scalar? name with
    | none =>
      rw [hlookup] at h
      cases h
    | some found => exact .read ((hshows.scalar name found).1 hlookup)
  | branch condition yes no ihyes ihno =>
    cases no with
    | none =>
      rw [Stmt.check] at h
      obtain ⟨_, hcondition, hyes⟩ := Checked.exists_of_andThen_ok h
      obtain ⟨hwell, hbool⟩ := Expr.wellTyped_of_checkCondition hshows hcondition
      exact .branch hwell hbool (fun s hs => ihyes s hs (Stmt.forall_of_checkAll hyes s hs))
        (fun _ h => nomatch h)
    | some no =>
      rw [Stmt.check] at h
      obtain ⟨_, hcondition, h⟩ := Checked.exists_of_andThen_ok h
      obtain ⟨_, hyes, hno⟩ := Checked.exists_of_andThen_ok h
      obtain ⟨hwell, hbool⟩ := Expr.wellTyped_of_checkCondition hshows hcondition
      exact .branch hwell hbool (fun s hs => ihyes s hs (Stmt.forall_of_checkAll hyes s hs))
        (fun s hs => ihno s hs (Stmt.forall_of_checkAll hno s hs))
  | loop condition body ih =>
    rw [Stmt.check] at h
    obtain ⟨_, hcondition, hbody⟩ := Checked.exists_of_andThen_ok h
    obtain ⟨hwell, hbool⟩ := Expr.wellTyped_of_checkCondition hshows hcondition
    exact .loop hwell hbool fun s hs => ih s hs (Stmt.forall_of_checkAll hbody s hs)
  | block body ih =>
    rw [Stmt.check] at h
    exact .block fun s hs => ih s hs (Stmt.forall_of_checkAll h s hs)

/-- **Checking a body decides the rules.**  Statements are accepted exactly if each follows the
rules. -/
lemma Stmt.checkAll_ok_iff (hshows : table.Shows Γ) (list : List Stmt) :
    (Stmt.checkAll table list).verdict = .ok () ↔ ∀ s ∈ list, s.WellTyped Γ := by
  constructor
  · intro h s hs
    exact Stmt.wellTyped_of_check hshows (Stmt.forall_of_checkAll h s hs)
  · intro h
    obtain ⟨list', hcheck, _⟩ :=
      Stmt.checkAll_of_forall fun s hs => Stmt.check_of_wellTyped hshows (h s hs)
    rw [hcheck]
    rfl

/-- Accepted statements come back annotated. -/
lemma Stmt.annotated_checkAll (hshows : table.Shows Γ) {list : List Stmt}
    (h : (Stmt.checkAll table list).verdict = .ok ()) :
    ∀ s ∈ (Stmt.checkAll table list).tree, s.Annotated Γ := by
  have hwell := (Stmt.checkAll_ok_iff hshows list).1 h
  obtain ⟨list', hcheck, hann⟩ :=
    Stmt.checkAll_of_forall fun s hs => Stmt.check_of_wellTyped hshows (hwell s hs)
  rw [hcheck]
  exact hann

end DLang
