import DLang.Compile
import DLang.Proofs.Lowering.Shape

/-!
# The first defect of a tree

Lowering takes any tree, and a tree built by hand may lack annotations or carry ones that make no
sense.  This file says which trees are lowered and what is reported of the others.

`Program.sites` lists the places of a program whose annotations lowering relies on, in the order in
which it comes to them: an expression stands before the parts of it, an assigned value before its
target, and the functions before the body of the program.  `Site.defect?` says what is wrong at a
place, from its annotations alone.  Lowering then reports the first defect of the list
(`Program.errorOf_generate`); the instructions that it makes on the way and the numbers that it
hands out have no part in this.

The argument is one equation per construct: the error of two steps in a row is that of the first, or
else that of the second (`errorOf_bind`), and so is the first defect of two lists in a row.
-/

namespace DLang

/-! ## Sites -/

mutual

/-- An expression and the expressions in it, each before its parts. -/
def Expr.nodes : Expr → List Expr
  | .integer value ty => [.integer value ty]
  | .var name symbol ty => [.var name symbol ty]
  | .element name index symbol ty => .element name index symbol ty :: index.nodes
  | .arith op left right ty => .arith op left right ty :: (left.nodes ++ right.nodes)
  | .compare op left right ty => .compare op left right ty :: (left.nodes ++ right.nodes)
  | .call name none ty => [.call name none ty]
  | .call name (some args) ty => .call name (some args) ty :: Expr.nodesAll args

/-- Expressions and the expressions in them, in order. -/
def Expr.nodesAll : List Expr → List Expr
  | [] => []
  | e :: rest => e.nodes ++ Expr.nodesAll rest

end

/-- A place whose annotations lowering relies on. -/
inductive Site where
  | node (e : Expr)
  /-- A variable that is assigned to or read into. -/
  | slot (name : String) (symbol : Option Symbol)
  /-- An array that an element is assigned to. -/
  | cells (name : String) (symbol : Option Symbol)

/-- The sites of an expression. -/
def Expr.sites (e : Expr) : List Site :=
  e.nodes.map .node

/-- The sites of a target. -/
def Target.sites : Target → List Site
  | .var name symbol => [.slot name symbol]
  | .element name index symbol => .cells name symbol :: index.sites

mutual

/-- The sites of a statement.  Those of an assigned value come before those of its target. -/
def Stmt.sites : Stmt → List Site
  | .assign target value _ _ => value.sites ++ target.sites
  | .print value => value.sites
  | .read name symbol => [.slot name symbol]
  | .ret value => value.sites
  | .branch condition yes none => condition.sites ++ Stmt.sitesAll yes
  | .branch condition yes (some no) =>
    condition.sites ++ (Stmt.sitesAll yes ++ Stmt.sitesAll no)
  | .loop condition body => condition.sites ++ Stmt.sitesAll body
  | .block body => Stmt.sitesAll body

/-- The sites of statements, in order. -/
def Stmt.sitesAll : List Stmt → List Site
  | [] => []
  | s :: rest => s.sites ++ Stmt.sitesAll rest

end

/-- The sites of a program: those of its functions in order, then those of its body. -/
def Program.sites (p : Program) : List Site :=
  p.functions.flatMap (fun f => Stmt.sitesAll f.body) ++ Stmt.sitesAll p.body

/-! ## Defects -/

/-- A name that should stand for an array, and does not. -/
def arrayDefect? (name : String) (symbol : Option Symbol) : Option LoweringError :=
  if symbol.map Symbol.kind = some .array then none else some (.unknownArraySize name)

/-- What is wrong with the symbol of an expression, if it needs one. -/
def Expr.symbolDefect? : Expr → Option LoweringError
  | .var name symbol _ =>
    if symbol.map Symbol.kind = some .var ∨ symbol.map Symbol.kind = some .arg then none
    else some (.unresolvedSymbol name)
  | .element name _ symbol _ => arrayDefect? name symbol
  | _ => none

/-- What is wrong with an expression itself: it has no type, or else its symbol is not right. -/
def Expr.defect? (e : Expr) : Option LoweringError :=
  match e.ty with
  | none => some (.missingType e.text)
  | some _ => e.symbolDefect?

/-- A name that should stand for a variable with a slot, and does not. -/
def slotDefect? (name : String) (symbol : Option Symbol) : Option LoweringError :=
  match symbol with
  | none => some (.unresolvedSymbol name)
  | some s => if s.kind = .var then none else some (.invalidTarget name)

/-- What is wrong at a site. -/
def Site.defect? : Site → Option LoweringError
  | .node e => e.defect?
  | .slot name symbol => slotDefect? name symbol
  | .cells name symbol => arrayDefect? name symbol

/-- What lowering relies on: every expression has a type, every variable that is used has the symbol
of a variable or an argument, every array has that of an array, and whatever is assigned to or read
into has that of a variable. -/
structure Program.Lowerable (p : Program) : Prop where
  typed : ∀ e, .node e ∈ p.sites → ∃ ty, e.ty = some ty
  scalars : ∀ name symbol ty, .node (.var name symbol ty) ∈ p.sites →
    ∃ s, symbol = some s ∧ (s.kind = .var ∨ s.kind = .arg)
  elements : ∀ name index symbol ty, .node (.element name index symbol ty) ∈ p.sites →
    ∃ s, symbol = some s ∧ s.kind = .array
  cells : ∀ name symbol, .cells name symbol ∈ p.sites → ∃ s, symbol = some s ∧ s.kind = .array
  slots : ∀ name symbol, .slot name symbol ∈ p.sites → ∃ s, symbol = some s ∧ s.kind = .var

/-! ## Expressions -/

lemma errorOf_requireSize (name : String) (symbol : Option Symbol) :
    errorOf (requireSize name symbol) = arrayDefect? name symbol := by
  cases symbol with
  | none => rfl
  | some s => cases s <;> rfl

lemma errorOf_requireSlot (name : String) (symbol : Option Symbol) :
    errorOf (requireSlot name symbol) = slotDefect? name symbol := by
  cases symbol with
  | none => rfl
  | some s => cases s <;> rfl

lemma errorOf_lowerVariable (name : String) (symbol : Option Symbol) (ty : Option Ty) (t : Nat) :
    errorOf (lowerVariable name symbol t) = (Expr.var name symbol ty).symbolDefect? := by
  cases symbol with
  | none => rfl
  | some s => cases s <;> rfl

/-- An expression that was lowered has a type. -/
lemma Expr.errorOf_requireTy_of_lower {e : Expr} {t : Nat} {l : LoweredExpr}
    (h : e.lower t = .ok l) : errorOf e.requireTy = none := by
  rw [Expr.lower.eq_def] at h
  obtain ⟨ty, hty, _⟩ := exists_of_bind_eq_ok h
  rw [hty]
  rfl

/-- The type of an expression is asked for first, then its symbol, then what is inside. -/
lemma Expr.findSome?_defect?_cons (e : Expr) (inside : List Expr) :
    (e :: inside).findSome? Expr.defect? =
      (errorOf e.requireTy).or (e.symbolDefect?.or (inside.findSome? Expr.defect?)) := by
  rw [List.findSome?_cons, Expr.defect?, Expr.requireTy]
  cases e.ty with
  | none => rfl
  | some ty => cases e.symbolDefect? <;> rfl

lemma Expr.errorOf_lowerArgs {args : List Expr}
    (h : ∀ e ∈ args, ∀ t, errorOf (e.lower t) = e.nodes.findSome? Expr.defect?) :
    ∀ t, errorOf (Expr.lowerArgs args t) = (Expr.nodesAll args).findSome? Expr.defect? := by
  induction args with
  | nil => exact fun t => rfl
  | cons e rest ih =>
    intro t
    obtain ⟨he, hrest⟩ := List.forall_mem_cons.1 h
    rw [Expr.lowerArgs, Expr.nodesAll, List.findSome?_append, ← he t]
    refine errorOf_bind fun l hl => ?_
    refine errorOf_bind_right (Expr.errorOf_requireTy_of_lower hl) fun ty _ => ?_
    rw [← ih hrest (l.toInt ty).temporaries]
    exact errorOf_bind_left fun more _ => rfl

/-- Lowering an expression reports its first defect. -/
lemma Expr.errorOf_lower (e : Expr) :
    ∀ t, errorOf (e.lower t) = e.nodes.findSome? Expr.defect? := by
  induction e with
  | integer value ty =>
    intro t
    rw [Expr.lower, Expr.nodes, Expr.findSome?_defect?_cons]
    exact errorOf_bind fun _ _ => rfl
  | var name symbol ty =>
    intro t
    rw [Expr.lower, Expr.nodes, Expr.findSome?_defect?_cons, List.findSome?_nil, Option.or_none]
    exact errorOf_bind fun _ _ => errorOf_lowerVariable name symbol ty t
  | element name index symbol ty ih =>
    intro t
    rw [Expr.lower, Expr.nodes, Expr.findSome?_defect?_cons, Expr.symbolDefect?, ← ih t,
      ← errorOf_requireSize]
    refine errorOf_bind fun _ _ => errorOf_bind fun size _ => ?_
    refine errorOf_bind_left fun i hi => ?_
    exact errorOf_bind_right (Expr.errorOf_requireTy_of_lower hi) fun _ _ => rfl
  | arith op left right ty ihl ihr =>
    intro t
    rw [Expr.lower, Expr.nodes, Expr.findSome?_defect?_cons, List.findSome?_append, ← ihl t]
    refine errorOf_bind fun _ _ => errorOf_bind fun l _ => ?_
    rw [← ihr l.temporaries]
    exact errorOf_bind_left fun r _ => rfl
  | compare op left right ty ihl ihr =>
    intro t
    rw [Expr.lower, Expr.nodes, Expr.findSome?_defect?_cons, List.findSome?_append, ← ihl t]
    refine errorOf_bind fun _ _ => errorOf_bind fun l hl => ?_
    rw [← ihr l.temporaries]
    refine errorOf_bind_left fun r hr => ?_
    refine errorOf_bind_right (Expr.errorOf_requireTy_of_lower hl) fun _ _ => ?_
    exact errorOf_bind_right (Expr.errorOf_requireTy_of_lower hr) fun _ _ => rfl
  | call name args ty ih =>
    intro t
    cases args with
    | none =>
      rw [Expr.lower, Expr.nodes, Expr.findSome?_defect?_cons]
      exact errorOf_bind fun _ _ => rfl
    | some args =>
      have hargs := Expr.errorOf_lowerArgs ih t
      rw [Expr.lower, Expr.nodes, Expr.findSome?_defect?_cons]
      refine errorOf_bind fun _ _ => ?_
      exact (errorOf_bind_left fun _ _ => rfl).trans hargs

/-- The first defect among some sites. -/
def firstDefect? (sites : List Site) : Option LoweringError :=
  sites.findSome? Site.defect?

lemma firstDefect?_append (sites sites' : List Site) :
    firstDefect? (sites ++ sites') = (firstDefect? sites).or (firstDefect? sites') :=
  List.findSome?_append

lemma firstDefect?_cons (site : Site) (sites : List Site) :
    firstDefect? (site :: sites) = site.defect?.or (firstDefect? sites) := by
  rw [firstDefect?, List.findSome?_cons]
  cases site.defect? <;> rfl

lemma Expr.firstDefect?_sites (e : Expr) :
    firstDefect? e.sites = e.nodes.findSome? Expr.defect? := by
  rw [firstDefect?, Expr.sites, List.findSome?_map]
  rfl

lemma Expr.errorOf_lower_eq_firstDefect? (e : Expr) (t : Nat) :
    errorOf (e.lower t) = firstDefect? e.sites := by
  rw [e.errorOf_lower, e.firstDefect?_sites]

lemma Expr.errorOf_lowerInt (e : Expr) (t : Nat) :
    errorOf (e.lowerInt t) = firstDefect? e.sites := by
  rw [Expr.lowerInt, ← e.errorOf_lower_eq_firstDefect? t]
  refine errorOf_bind_left fun l hl => ?_
  exact errorOf_bind_right (Expr.errorOf_requireTy_of_lower hl) fun _ _ => rfl

/-! ## Statements -/

lemma Target.errorOf_lowerStore (target : Target) (v : LoweredExpr) :
    errorOf (target.lowerStore v) = firstDefect? target.sites := by
  cases target with
  | var name symbol =>
    rw [Target.lowerStore, Target.sites, firstDefect?_cons, Site.defect?, ← errorOf_requireSlot]
    exact errorOf_bind fun _ _ => rfl
  | element name index symbol =>
    rw [Target.lowerStore, Target.sites, firstDefect?_cons, Site.defect?, ← errorOf_requireSize,
      ← index.errorOf_lower_eq_firstDefect? v.temporaries]
    refine errorOf_bind fun size _ => errorOf_bind_left fun i hi => ?_
    exact errorOf_bind_right (Expr.errorOf_requireTy_of_lower hi) fun _ _ => rfl

lemma Stmt.errorOf_lowerAll_of {body : List Stmt}
    (h : ∀ s ∈ body, ∀ c, errorOf (s.lower c) = firstDefect? s.sites) :
    ∀ c, errorOf (Stmt.lowerAll body c) = firstDefect? (Stmt.sitesAll body) := by
  induction body with
  | nil => exact fun c => rfl
  | cons s rest ih =>
    intro c
    obtain ⟨hs, hrest⟩ := List.forall_mem_cons.1 h
    rw [Stmt.lowerAll, Stmt.sitesAll, firstDefect?_append, ← hs c]
    refine errorOf_bind fun first _ => ?_
    rw [← ih hrest first.counters]
    exact errorOf_bind_left fun more _ => rfl

/-- Lowering a statement reports its first defect. -/
lemma Stmt.errorOf_lower (s : Stmt) : ∀ c, errorOf (s.lower c) = firstDefect? s.sites := by
  induction s with
  | assign target value targetTy ty =>
    intro c
    rw [Stmt.lower, Stmt.sites, firstDefect?_append, ← value.errorOf_lowerInt c.temporaries]
    refine errorOf_bind fun v _ => ?_
    rw [← target.errorOf_lowerStore v]
    exact errorOf_bind_left fun stored _ => rfl
  | print value =>
    intro c
    rw [Stmt.lower, Stmt.sites, ← value.errorOf_lowerInt c.temporaries]
    exact errorOf_bind_left fun v _ => rfl
  | read name symbol =>
    intro c
    rw [Stmt.lower, Stmt.sites, firstDefect?_cons, Site.defect?, ← errorOf_requireSlot]
    exact errorOf_bind fun slot _ => rfl
  | ret value =>
    intro c
    rw [Stmt.lower, Stmt.sites, ← value.errorOf_lowerInt c.temporaries]
    exact errorOf_bind_left fun v _ => rfl
  | branch condition yes no ihyes ihno =>
    intro c
    have hyes := Stmt.errorOf_lowerAll_of ihyes
    cases no with
    | none =>
      rw [Stmt.lower, Stmt.sites, firstDefect?_append,
        ← condition.errorOf_lower_eq_firstDefect? c.temporaries]
      refine errorOf_bind fun test _ => (errorOf_bind_left fun y _ => ?_).trans (hyes _)
      rw [Stmt.lowerElse]
      rfl
    | some no =>
      have hno : ∀ c, errorOf (Stmt.lowerAll no c) = firstDefect? (Stmt.sitesAll no) :=
        Stmt.errorOf_lowerAll_of ihno
      rw [Stmt.lower, Stmt.sites, firstDefect?_append, firstDefect?_append,
        ← condition.errorOf_lower_eq_firstDefect? c.temporaries]
      refine errorOf_bind fun test _ => ?_
      rw [← hyes]
      refine errorOf_bind fun y _ => ?_
      rw [Stmt.lowerElse]
      exact (errorOf_bind_left fun n _ => rfl).trans (hno y.counters)
  | loop condition body ih =>
    intro c
    have hbody := Stmt.errorOf_lowerAll_of ih
    rw [Stmt.lower, Stmt.sites, firstDefect?_append,
      ← condition.errorOf_lower_eq_firstDefect? c.temporaries]
    refine errorOf_bind fun test _ => ?_
    exact (errorOf_bind_left fun b _ => rfl).trans (hbody _)
  | block body ih =>
    intro c
    rw [Stmt.lower, Stmt.sites]
    exact Stmt.errorOf_lowerAll_of ih c

lemma Stmt.errorOf_lowerAll (body : List Stmt) (c : Counters) :
    errorOf (Stmt.lowerAll body c) = firstDefect? (Stmt.sitesAll body) :=
  Stmt.errorOf_lowerAll_of (fun s _ => s.errorOf_lower) c

/-! ## Programs -/

lemma errorOf_lowerFunctions (finalReturn : Bool) (functions : List FunctionDecl) :
    ∀ c, errorOf (lowerFunctions finalReturn functions c).result =
      firstDefect? (functions.flatMap fun f => Stmt.sitesAll f.body) := by
  induction functions with
  | nil => exact fun c => rfl
  | cons f rest ih =>
    intro c
    have hf : errorOf (f.lower finalReturn c) = firstDefect? (Stmt.sitesAll f.body) := by
      rw [FunctionDecl.lower, ← Stmt.errorOf_lowerAll f.body c]
      exact errorOf_bind_left fun body _ => rfl
    rw [lowerFunctions, List.flatMap_cons, firstDefect?_append, ← hf, Logged.result_bind]
    refine errorOf_bind fun first _ => ?_
    rw [Logged.result_bind]
    refine errorOf_bind_right rfl fun _ _ => ?_
    rw [Logged.result_bind, ← ih first.2]
    exact errorOf_bind_left fun more _ => rfl

lemma Program.errorOf_lower (p : Program) (finalReturn : Bool) :
    errorOf (p.lower finalReturn).result = firstDefect? p.sites := by
  rw [Program.lower, Program.sites, firstDefect?_append, Logged.result_bind,
    ← errorOf_lowerFunctions finalReturn p.functions { temporaries := 0, labels := 0 }]
  refine errorOf_bind fun lowered _ => ?_
  have hmain : errorOf (p.lowerMain lowered.2) = firstDefect? (Stmt.sitesAll p.body) := by
    rw [Program.lowerMain, ← Stmt.errorOf_lowerAll p.body lowered.2]
    exact errorOf_bind_left fun body _ => rfl
  rw [Logged.result_bind, ← hmain]
  exact errorOf_bind_left fun main _ => rfl

/-- Generating a module reports the first defect of the program, whatever the options. -/
lemma Program.errorOf_generate (p : Program) (options : Options) :
    errorOf (p.generate options).result = firstDefect? p.sites := by
  rw [Program.generate, Logged.result_bind, ← p.errorOf_lower options.finalReturn]
  refine errorOf_bind_left fun lowered _ => ?_
  rw [Logged.result_bind]
  rfl

lemma map_kind_eq_some_iff {symbol : Option Symbol} {kind : SymbolKind} :
    symbol.map Symbol.kind = some kind ↔ ∃ s, symbol = some s ∧ s.kind = kind :=
  Option.map_eq_some_iff

lemma arrayDefect?_eq_none_iff {name : String} {symbol : Option Symbol} :
    arrayDefect? name symbol = none ↔ ∃ s, symbol = some s ∧ s.kind = .array := by
  rw [arrayDefect?, ← map_kind_eq_some_iff]
  split <;> simp [*]

lemma slotDefect?_eq_none_iff {name : String} {symbol : Option Symbol} :
    slotDefect? name symbol = none ↔ ∃ s, symbol = some s ∧ s.kind = .var := by
  cases symbol with
  | none => simp [slotDefect?]
  | some s => simp [slotDefect?]

lemma Expr.defect?_eq_none_iff {e : Expr} :
    e.defect? = none ↔ (∃ ty, e.ty = some ty) ∧ e.symbolDefect? = none := by
  rw [Expr.defect?]
  cases e.ty <;> simp

/-- A program can be lowered if and only if none of its sites has a defect. -/
lemma Program.lowerable_iff (p : Program) :
    p.Lowerable ↔ ∀ site ∈ p.sites, site.defect? = none := by
  constructor
  · intro h site hsite
    cases site with
    | node e =>
      refine Expr.defect?_eq_none_iff.2 ⟨h.typed e hsite, ?_⟩
      cases e with
      | var name symbol ty =>
        obtain ⟨s, rfl, hkind⟩ := h.scalars name symbol ty hsite
        rw [Expr.symbolDefect?, if_pos]
        simpa using hkind
      | element name index symbol ty =>
        exact arrayDefect?_eq_none_iff.2 (h.elements name index symbol ty hsite)
      | _ => rfl
    | slot name symbol => exact slotDefect?_eq_none_iff.2 (h.slots name symbol hsite)
    | cells name symbol => exact arrayDefect?_eq_none_iff.2 (h.cells name symbol hsite)
  · intro h
    have hnode : ∀ e, .node e ∈ p.sites → (∃ ty, e.ty = some ty) ∧ e.symbolDefect? = none :=
      fun e he => Expr.defect?_eq_none_iff.1 (h (.node e) he)
    refine ⟨fun e he => (hnode e he).1, fun name symbol ty he => ?_,
      fun name index symbol ty he => arrayDefect?_eq_none_iff.1 (hnode _ he).2,
      fun name symbol he => arrayDefect?_eq_none_iff.1 (h _ he),
      fun name symbol he => slotDefect?_eq_none_iff.1 (h _ he)⟩
    have hsymbol := (hnode _ he).2
    rw [Expr.symbolDefect?] at hsymbol
    split at hsymbol
    · rename_i hkind
      rcases hkind with hkind | hkind
      · obtain ⟨s, hs, hkind⟩ := map_kind_eq_some_iff.1 hkind
        exact ⟨s, hs, .inl hkind⟩
      · obtain ⟨s, hs, hkind⟩ := map_kind_eq_some_iff.1 hkind
        exact ⟨s, hs, .inr hkind⟩
    · cases hsymbol

/-- **Which trees the generator accepts.**  A tree with any annotations is generated if and only if
it has the types and symbols that lowering relies on.  Otherwise the error is that of the first
defect in the order of lowering. -/
theorem Program.generate_ok_iff_lowerable (p : Program) (options : Options) :
    ((∃ text, (p.generate options).result = .ok text) ↔ p.Lowerable) ∧
      ∀ error, (p.generate options).result = .error error ↔
        ∃ before site after, p.sites = before ++ site :: after ∧
          (∀ earlier ∈ before, earlier.defect? = none) ∧ site.defect? = some error := by
  constructor
  · rw [← errorOf_eq_none_iff, p.errorOf_generate, firstDefect?, List.findSome?_eq_none_iff,
      p.lowerable_iff]
  · intro error
    rw [← errorOf_eq_some_iff, p.errorOf_generate, firstDefect?, List.findSome?_eq_some_iff]
    constructor
    · rintro ⟨before, site, after, hsites, hsite, hbefore⟩
      exact ⟨before, site, after, hsites, hbefore, hsite⟩
    · rintro ⟨before, site, after, hsites, hbefore, hsite⟩
      exact ⟨before, site, after, hsites, hsite, hbefore⟩

-- The value comes before the target, and of the value its type before its symbol.
example :
    errorOf ((Program.mk none [.assign (.var "x" none) (.var "y" none none) none none]).generate
      {}).result = some (.missingType "Variable(y)") := by
  rw [Program.errorOf_generate]
  decide

end DLang
