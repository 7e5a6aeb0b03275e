import DLang.Compile
import DLang.Proofs.Lowering.Shape
import DLang.Proofs.Static.Analysis

/-!
# What lowering rejects

Lowering relies on the annotations that analysis leaves.  On an accepted program they are all there,
and one reason to fail remains: a parameter has no slot, so a function that assigns to one of its
parameters, or reads into one, cannot be lowered.

`Stmt.written` lists the names that a statement writes to, in the order of the source.
`LowersUnless bad` says how lowering ends, given the first name of that list that has no slot; it
composes along the traversal (`LowersUnless.bind`), since the first bad name of two lists is that of
the first list, or else that of the second.  The result for programs is
`generate_error_iff_writtenParams`.
-/

namespace DLang

/-! ## The names that statements write to -/

mutual

/-- The names that a statement assigns to or reads into, in order. -/
def Stmt.written : Stmt → List String
  | .assign target _ _ _ => [target.name]
  | .print _ => []
  | .read name _ => [name]
  | .ret _ => []
  | .branch _ yes none => Stmt.writtenAll yes
  | .branch _ yes (some no) => Stmt.writtenAll yes ++ Stmt.writtenAll no
  | .loop _ body => Stmt.writtenAll body
  | .block body => Stmt.writtenAll body

/-- The names that statements assign to or read into, in order. -/
def Stmt.writtenAll : List Stmt → List String
  | [] => []
  | s :: rest => s.written ++ Stmt.writtenAll rest

end

/-- The parameters that the body of a function assigns to or reads into, in order. -/
def FunctionDecl.writtenParams (f : FunctionDecl) : List String :=
  (Stmt.writtenAll f.body).filter fun name => decide (name ∈ f.paramList)

/-- The parameters that the functions of a program write to, in order. -/
def Program.writtenParams (p : Program) : List String :=
  p.functions.flatMap FunctionDecl.writtenParams

lemma Stmt.writtenAll_eq_flatMap (list : List Stmt) :
    Stmt.writtenAll list = list.flatMap Stmt.written := by
  induction list with
  | nil => rfl
  | cons s rest ih => rw [Stmt.writtenAll, ih, List.flatMap_cons]

lemma Stmt.writtenAll_bareAll_of_forall {list : List Stmt}
    (h : ∀ s ∈ list, s.bare.written = s.written) :
    Stmt.writtenAll (Stmt.bareAll list) = Stmt.writtenAll list := by
  rw [Stmt.bareAll_eq_map, Stmt.writtenAll_eq_flatMap, Stmt.writtenAll_eq_flatMap,
    List.flatMap_map]
  exact List.flatMap_congr h

/-- What a statement writes to does not depend on annotations. -/
lemma Stmt.written_bare (s : Stmt) : s.bare.written = s.written := by
  induction s with
  | assign target value targetTy ty => cases target <;> rfl
  | print value => rfl
  | read name symbol => rfl
  | ret value => rfl
  | branch condition yes no ihyes ihno =>
    cases no with
    | none => exact Stmt.writtenAll_bareAll_of_forall ihyes
    | some no =>
      show Stmt.writtenAll (Stmt.bareAll yes) ++ Stmt.writtenAll (Stmt.bareAll no) = _
      have hno : Stmt.writtenAll (Stmt.bareAll no) = Stmt.writtenAll no :=
        Stmt.writtenAll_bareAll_of_forall ihno
      rw [Stmt.writtenAll_bareAll_of_forall ihyes, hno]
      rfl
  | loop condition body ih => exact Stmt.writtenAll_bareAll_of_forall ih
  | block body ih => exact Stmt.writtenAll_bareAll_of_forall ih

/-! ## Results of lowering -/

/-- Lowering succeeds, unless there is a name without a slot that is written to; then it reports
that name. -/
def LowersUnless {α : Type} (bad : Option String) (result : Except LoweringError α) : Prop :=
  match bad with
  | none => ∃ lowered, result = .ok lowered
  | some name => result = .error (.invalidTarget name)

namespace LowersUnless

variable {α β : Type}

lemma ok (a : α) : LowersUnless none (Except.ok a) :=
  ⟨a, rfl⟩

/-- The first bad name of two steps is that of the first step, or else that of the second. -/
lemma bind {bad bad' : Option String} {result : Except LoweringError α}
    {next : α → Except LoweringError β} (h : LowersUnless bad result)
    (hnext : ∀ a, LowersUnless bad' (next a)) : LowersUnless (bad.or bad') (result >>= next) := by
  cases bad with
  | none =>
    obtain ⟨a, rfl⟩ := h
    exact hnext a
  | some name =>
    have h : result = .error (.invalidTarget name) := h
    rw [h]
    rfl

/-- A step that cannot fail does not change which name is bad first. -/
lemma after {bad : Option String} {result : Except LoweringError α}
    {next : α → Except LoweringError β} (h : LowersUnless none result)
    (hnext : ∀ a, LowersUnless bad (next a)) : LowersUnless bad (result >>= next) := by
  simpa using bind h hnext

/-- A bad name of the first step is not changed by a second step that cannot fail. -/
lemma before {bad : Option String} {result : Except LoweringError α}
    {next : α → Except LoweringError β} (h : LowersUnless bad result)
    (hnext : ∀ a, LowersUnless none (next a)) : LowersUnless bad (result >>= next) := by
  simpa using bind h hnext

lemma exists_of_error {bad : Option String} {e : LoweringError}
    (h : LowersUnless bad (Except.error e : Except LoweringError α)) :
    ∃ name, e = .invalidTarget name := by
  cases bad with
  | none =>
    obtain ⟨a, h⟩ := h
    cases h
  | some name => exact ⟨name, Except.error.inj h⟩

end LowersUnless

/-! ## Expressions -/

variable {Γ : Env}

lemma Expr.lowersUnless_requireTy {e : Expr} (h : e.Annotated Γ) :
    LowersUnless none e.requireTy :=
  ⟨e.typeOf, Expr.requireTy_of_annotated h⟩

lemma lowersUnless_requireSize {name : String} {symbol : Symbol} (h : Γ.IsArray name symbol) :
    LowersUnless none (requireSize name (some symbol)) := by
  obtain ⟨_, size, rfl⟩ := h
  exact .ok size

lemma Expr.lowersUnless_lowerArgs {args : List Expr}
    (hann : ∀ e ∈ args, e.Annotated Γ) (h : ∀ e ∈ args, ∀ t, LowersUnless none (e.lower t)) :
    ∀ t, LowersUnless none (Expr.lowerArgs args t) := by
  induction args with
  | nil => exact fun t => .ok _
  | cons e rest ih =>
    intro t
    rw [Expr.lowerArgs]
    refine .after (h e List.mem_cons_self t) fun lowered => ?_
    refine .after (Expr.lowersUnless_requireTy (hann e List.mem_cons_self)) fun ty => ?_
    have hrest := ih (fun d hd => hann d (List.mem_cons_of_mem e hd))
      (fun d hd => h d (List.mem_cons_of_mem e hd))
    exact .after (hrest _) fun more => .ok _

/-- Annotated expressions can always be lowered. -/
lemma Expr.lowersUnless_lower {e : Expr} (h : e.Annotated Γ) :
    ∀ t, LowersUnless none (e.lower t) := by
  induction h with
  | integer => exact fun t => .ok _
  | @var name symbol hscalar =>
    intro t
    rw [Expr.lower]
    refine .after (Expr.lowersUnless_requireTy (.var hscalar)) fun _ => ?_
    rcases hscalar.2 with rfl | rfl
    · exact .ok _
    · exact .ok _
  | @element name index symbol harray hindex hint ih =>
    intro t
    rw [Expr.lower]
    refine .after (Expr.lowersUnless_requireTy (.element harray hindex hint)) fun _ => ?_
    refine .after (lowersUnless_requireSize harray) fun size => ?_
    refine .after (ih t) fun i => ?_
    exact .after (Expr.lowersUnless_requireTy hindex) fun ty => .ok _
  | @arith op left right hl hlint hr hrint ihl ihr =>
    intro t
    rw [Expr.lower]
    refine .after (Expr.lowersUnless_requireTy (.arith hl hlint hr hrint)) fun _ => ?_
    refine .after (ihl t) fun l => ?_
    exact .after (ihr _) fun r => .ok _
  | @compare op left right hl hr ihl ihr =>
    intro t
    rw [Expr.lower]
    refine .after (Expr.lowersUnless_requireTy (.compare hl hr)) fun _ => ?_
    refine .after (ihl t) fun l => .after (ihr _) fun r => ?_
    refine .after (Expr.lowersUnless_requireTy hl) fun lty => ?_
    exact .after (Expr.lowersUnless_requireTy hr) fun rty => .ok _
  | @call name args hcall hargs ih =>
    intro t
    cases args with
    | none =>
      rw [Expr.lower]
      exact .after (Expr.lowersUnless_requireTy (.call hcall hargs)) fun _ => .ok _
    | some args =>
      rw [Expr.lower]
      refine .after (Expr.lowersUnless_requireTy (.call hcall hargs)) fun _ => ?_
      exact .after (Expr.lowersUnless_lowerArgs hargs ih t) fun a => .ok _

lemma Expr.lowersUnless_lowerInt {e : Expr} (h : e.Annotated Γ) (t : Nat) :
    LowersUnless none (e.lowerInt t) := by
  rw [Expr.lowerInt]
  refine .after (Expr.lowersUnless_lower h t) fun lowered => ?_
  exact .after (Expr.lowersUnless_requireTy h) fun ty => .ok _

/-! ## Statements -/

section Statements

variable {isParam : String → Bool}

/-- The test `isParam` tells the parameters of a place from its variables and arrays. -/
structure TellsParams (Γ : Env) (isParam : String → Bool) : Prop where
  scalar : ∀ {name symbol}, Γ.IsScalar name symbol →
    (isParam name = true ↔ symbol = .arg name .int)
  array : ∀ {name symbol}, Γ.IsArray name symbol → isParam name = false

/-- Of the scalars at a place only the parameters have no slot. -/
lemma lowersUnless_requireSlot (hparam : TellsParams Γ isParam) {name : String} {symbol : Symbol}
    (h : Γ.IsScalar name symbol) :
    LowersUnless ([name].find? isParam) (requireSlot name (some symbol)) := by
  have hiff := hparam.scalar h
  rcases h.2 with rfl | rfl
  · have hname : isParam name = false := by
      rw [← Bool.not_eq_true]
      exact fun htrue => nomatch hiff.1 htrue
    rw [List.find?_cons_of_neg (by simp [hname])]
    exact .ok name
  · rw [List.find?_cons_of_pos (hiff.2 rfl)]
    rfl

lemma Target.lowersUnless_lowerStore (hparam : TellsParams Γ isParam) {target : Target}
    (h : target.Annotated Γ) (v : LoweredExpr) :
    LowersUnless ([target.name].find? isParam) (target.lowerStore v) := by
  cases h with
  | var hscalar => exact .before (lowersUnless_requireSlot hparam hscalar) fun slot => .ok _
  | element harray hindex hint =>
    rw [Target.name, List.find?_cons_of_neg (by simp [hparam.array harray])]
    refine .after (lowersUnless_requireSize harray) fun size => ?_
    refine .after (Expr.lowersUnless_lower hindex _) fun i => ?_
    exact .after (Expr.lowersUnless_requireTy hindex) fun ty => .ok _

lemma Stmt.lowersUnless_lowerAll {list : List Stmt}
    (h : ∀ s ∈ list, ∀ c, LowersUnless (s.written.find? isParam) (s.lower c)) :
    ∀ c, LowersUnless ((Stmt.writtenAll list).find? isParam) (Stmt.lowerAll list c) := by
  induction list with
  | nil => exact fun c => .ok _
  | cons s rest ih =>
    intro c
    rw [Stmt.lowerAll, Stmt.writtenAll, List.find?_append]
    refine .bind (h s List.mem_cons_self c) fun first => ?_
    exact .before (ih (fun d hd => h d (List.mem_cons_of_mem s hd)) _) fun more => .ok _

/-- An annotated statement can be lowered, unless it writes to a parameter. -/
lemma Stmt.lowersUnless_lower (hparam : TellsParams Γ isParam) {s : Stmt} (h : s.Annotated Γ) :
    ∀ c, LowersUnless (s.written.find? isParam) (s.lower c) := by
  induction h with
  | @assign target value htarget hvalue hint =>
    intro c
    rw [Stmt.lower]
    refine .after (Expr.lowersUnless_lowerInt hvalue _) fun v => ?_
    exact .before (Target.lowersUnless_lowerStore hparam htarget v) fun stored => .ok _
  | print hvalue =>
    intro c
    rw [Stmt.lower]
    exact .after (Expr.lowersUnless_lowerInt hvalue _) fun v => .ok _
  | read hscalar =>
    intro c
    rw [Stmt.lower]
    exact .before (lowersUnless_requireSlot hparam hscalar) fun slot => .ok _
  | ret hvalue =>
    intro c
    rw [Stmt.lower]
    exact .after (Expr.lowersUnless_lowerInt hvalue _) fun v => .ok _
  | @branch condition yes no hcond hbool hyes hno ihyes ihno =>
    intro c
    cases no with
    | none =>
      rw [Stmt.lower, Stmt.written]
      refine .after (Expr.lowersUnless_lower hcond _) fun lowered => ?_
      refine .before (Stmt.lowersUnless_lowerAll ihyes _) fun y => ?_
      rw [Stmt.lowerElse]
      exact .ok _
    | some no =>
      rw [Stmt.lower, Stmt.written, List.find?_append]
      refine .after (Expr.lowersUnless_lower hcond _) fun lowered => ?_
      refine .bind (Stmt.lowersUnless_lowerAll ihyes _) fun y => ?_
      rw [Stmt.lowerElse]
      exact .before (Stmt.lowersUnless_lowerAll ihno _) fun n => .ok _
  | @loop condition body hcond hbool hbody ih =>
    intro c
    rw [Stmt.lower, Stmt.written]
    refine .after (Expr.lowersUnless_lower hcond _) fun lowered => ?_
    exact .before (Stmt.lowersUnless_lowerAll ih _) fun b => .ok _
  | @block body hbody ih =>
    intro c
    rw [Stmt.lower, Stmt.written]
    exact Stmt.lowersUnless_lowerAll ih c

end Statements

/-! ## Functions and programs -/

lemma FunctionDecl.tellsParams {f : FunctionDecl} {before : List Decl}
    (hdistinct : (f.paramList ++ f.localList.map VarDef.name).Nodup) :
    TellsParams (f.env before) fun name => decide (name ∈ f.paramList) := by
  refine ⟨?_, ?_⟩
  · rintro name symbol ⟨hown, rfl | rfl⟩
    · have hfree : name ∉ f.paramList := f.notMem_paramList hdistinct hown nofun
      simp [hfree]
    · have hparam : name ∈ f.paramList := f.arg_mem_innerSymbols_iff.1 hown
      simp [hparam]
  · rintro name symbol ⟨hown, size, rfl⟩
    have hfree : name ∉ f.paramList := f.notMem_paramList hdistinct hown nofun
    simp [hfree]

/-- The program itself has no parameters. -/
lemma Program.tellsParams (p : Program) : TellsParams p.env fun _ => false := by
  refine ⟨?_, fun _ => rfl⟩
  rintro name symbol ⟨hown, rfl | rfl⟩
  · simp
  · obtain ⟨d, _, heq⟩ := List.mem_map.1 hown
    cases d <;> cases heq

lemma FunctionDecl.lowersUnless_lower {f : FunctionDecl} {before : List Decl}
    (hdistinct : (f.paramList ++ f.localList.map VarDef.name).Nodup)
    (hbody : ∀ s ∈ f.body, s.Annotated (f.env before)) (finalReturn : Bool) (c : Counters) :
    LowersUnless f.writtenParams.head? (f.lower finalReturn c) := by
  rw [FunctionDecl.lower, FunctionDecl.writtenParams, List.head?_filter]
  have hstmts := Stmt.lowersUnless_lowerAll fun s hs =>
    Stmt.lowersUnless_lower (f.tellsParams hdistinct) (hbody s hs)
  exact .before (hstmts c) fun body => .ok _

lemma lowersUnless_lowerFunctions {finalReturn : Bool} {list : List FunctionDecl}
    (h : ∀ f ∈ list, ∀ c, LowersUnless f.writtenParams.head? (f.lower finalReturn c)) :
    ∀ c, LowersUnless (list.flatMap FunctionDecl.writtenParams).head?
      (lowerFunctions finalReturn list c).result := by
  induction list with
  | nil => exact fun c => .ok _
  | cons f rest ih =>
    intro c
    have hrest := ih fun g hg => h g (List.mem_cons_of_mem f hg)
    rw [lowerFunctions, List.flatMap_cons, List.head?_append, Logged.result_bind]
    refine .bind (h f List.mem_cons_self c) fun first => ?_
    rw [Logged.result_bind]
    refine .after (.ok ()) fun _ => ?_
    rw [Logged.result_bind]
    exact .before (hrest _) fun more => .ok _

lemma Program.lowersUnless_lower {p : Program} (hwell : p.WellFormed) (hann : p.Annotated)
    (finalReturn : Bool) : LowersUnless p.writtenParams.head? (p.lower finalReturn).result := by
  have hfunctions : ∀ f ∈ p.functions, ∀ c,
      LowersUnless f.writtenParams.head? (f.lower finalReturn c) := by
    intro f hf c
    obtain ⟨before, after, hsplit⟩ := p.mem_functions_iff.1 hf
    exact f.lowersUnless_lower (hwell.functions before f after hsplit).distinct
      (hann.functions before f after hsplit) finalReturn c
  have hmain : ∀ c, LowersUnless none (p.lowerMain c) := by
    intro c
    have hstmts := Stmt.lowersUnless_lowerAll (fun s hs =>
      Stmt.lowersUnless_lower p.tellsParams (hann.body s hs)) c
    rw [List.find?_eq_none.2 (by simp)] at hstmts
    exact .after hstmts fun body => .ok _
  rw [Program.lower, Logged.result_bind]
  refine .before (lowersUnless_lowerFunctions hfunctions _) fun lowered => ?_
  rw [Logged.result_bind]
  exact .after (hmain _) fun main => .ok _

lemma Program.lowersUnless_generate {p : Program} (hwell : p.WellFormed) (hann : p.Annotated)
    (options : Options) : LowersUnless p.writtenParams.head? (p.generate options).result := by
  rw [Program.generate, Logged.result_bind]
  refine .before (Program.lowersUnless_lower hwell hann options.finalReturn) fun lowered => ?_
  rw [Logged.result_bind]
  exact .ok _

lemma FunctionDecl.writtenParams_bare (f : FunctionDecl) :
    f.bare.writtenParams = f.writtenParams :=
  congrArg (List.filter fun name => decide (name ∈ f.paramList))
    (Stmt.writtenAll_bareAll_of_forall fun s _ => s.written_bare)

lemma Program.writtenParams_bare (p : Program) : p.bare.writtenParams = p.writtenParams := by
  rw [Program.writtenParams, Program.writtenParams, p.functions_bare, List.flatMap_map]
  exact List.flatMap_congr fun f _ => f.writtenParams_bare

lemma Program.mem_writtenParams_iff (p : Program) {name : String} :
    name ∈ p.writtenParams ↔
      ∃ f ∈ p.functions, name ∈ f.paramList ∧ name ∈ Stmt.writtenAll f.body := by
  simp only [Program.writtenParams, FunctionDecl.writtenParams, List.mem_flatMap, List.mem_filter,
    decide_eq_true_eq, and_comm]

/-- **What the generator rejects.**  Let analysis accept a program.  Generation from the annotated
tree fails if and only if the body of some function assigns to, or reads into, a parameter of that
function.  The error then names the first such parameter in the order of the source; no annotation
is ever missing or of the wrong sort. -/
theorem Program.generate_error_iff_writtenParams {p p' : Program} (h : p.analyze.result = .ok p')
    (options : Options) :
    ((∃ error, (p'.generate options).result = .error error) ↔
        ∃ f ∈ p.functions, ∃ name ∈ f.paramList, name ∈ Stmt.writtenAll f.body) ∧
      ∀ error, (p'.generate options).result = .error error →
        ∃ name, p.writtenParams.head? = some name ∧ error = .invalidTarget name := by
  obtain ⟨hbare, hwell, hann⟩ := Analyzer.of_result_eq_ok h
  have hgenerate := Program.lowersUnless_generate hwell hann options
  rw [← Program.writtenParams_bare p', hbare, Program.writtenParams_bare] at hgenerate
  cases hhead : p.writtenParams.head? with
  | none =>
    rw [hhead] at hgenerate
    obtain ⟨text, htext⟩ := hgenerate
    have hempty : p.writtenParams = [] := List.head?_eq_none_iff.1 hhead
    refine ⟨⟨?_, ?_⟩, ?_⟩
    · rintro ⟨error, herror⟩
      rw [htext] at herror
      cases herror
    · rintro ⟨f, hf, name, hparam, hwritten⟩
      have hmem := p.mem_writtenParams_iff.2 ⟨f, hf, hparam, hwritten⟩
      rw [hempty] at hmem
      cases hmem
    · intro error herror
      rw [htext] at herror
      cases herror
  | some name =>
    rw [hhead] at hgenerate
    have herror : (p'.generate options).result = .error (.invalidTarget name) := hgenerate
    refine ⟨⟨?_, ?_⟩, ?_⟩
    · intro _
      obtain ⟨f, hf, hparam, hwritten⟩ := p.mem_writtenParams_iff.1 (List.mem_of_head? hhead)
      exact ⟨f, hf, name, hparam, hwritten⟩
    · exact fun _ => ⟨_, herror⟩
    · intro error h'
      rw [herror] at h'
      exact ⟨name, rfl, (Except.error.inj h').symm⟩

/-- A function that reads into its second parameter inside a loop, before it assigns to its
first. -/
def Program.writingParams : Program where
  declarations := some [.function
    { name := "f", params := some ["x", "y"], locals := some [.scalar "z"]
      body := [
        .assign (.var "z" none) (.integer 1 none) none none,
        .loop (.compare .less (.var "x" none none) (.integer 3 none) none) [.read "y" none],
        .assign (.var "x" none) (.integer 1 none) none none] }]
  body := []

theorem Program.generate_error_writingParams :
    ∃ annotated, Program.writingParams.analyze.result = .ok annotated ∧
      Program.writingParams.writtenParams = ["y", "x"] ∧
      ∀ options, ∃ error, (annotated.generate options).result = .error error := by
  refine ⟨_, rfl, by decide, fun options => ?_⟩
  have h : Program.writingParams.analyze.result = .ok _ := rfl
  refine (Program.generate_error_iff_writtenParams h options).1.2 ?_
  exact ⟨_, List.mem_cons_self, "y", by decide, by decide⟩

end DLang
