import DLang.Proofs.Grammar.Names
import DLang.Proofs.Static.Scopes

/-!
# Renamings, and that analysis commutes with them

A renaming maps identifiers to identifiers, distinct ones to distinct ones, and keeps the names that
the module itself defines or declares.  It acts on everything that has names in it: symbols, trees,
symbol tables, errors and events.

Analysis looks at a name in three ways only: it compares it with names that were declared, compares
it with the reserved ones, and writes it into what it returns.  A renaming changes no answer of the
first two.  So to analyse a renamed program is to rename what the analysis of the program gives: the
annotated tree, the verdict, the table and the journal (`Analyzer.visit_rename`).  This holds of
every tree and every analyser, whether the visit accepts or rejects.
-/

namespace DLang

/-! ## Renamings -/

/-- A name that the language can write. -/
abbrev Identifier := { name : String // isIdentifier name = true }

/-- Another name for each identifier. -/
structure Renaming where
  map : Identifier → Identifier
  injective : Function.Injective map
  fixes : ∀ name : Identifier, name.1 ∈ reservedNames → map name = name

namespace Renaming

/-- The other name for a name.  A text that is no identifier is kept. -/
def apply (r : Renaming) (name : String) : String :=
  if h : isIdentifier name = true then (r.map ⟨name, h⟩).1 else name

instance : CoeFun Renaming fun _ => String → String :=
  ⟨apply⟩

variable (r : Renaming)

lemma apply_of_isIdentifier {name : String} (h : isIdentifier name = true) :
    r name = (r.map ⟨name, h⟩).1 := by
  rw [apply, dif_pos h]

lemma apply_of_not_isIdentifier {name : String} (h : ¬ isIdentifier name = true) :
    r name = name := by
  rw [apply, dif_neg h]

lemma isIdentifier_apply {name : String} (h : isIdentifier name = true) :
    isIdentifier (r name) = true := by
  rw [r.apply_of_isIdentifier h]
  exact (r.map ⟨name, h⟩).2

/-- Names are distinct after a renaming if they were before, whatever texts they are. -/
lemma apply_injective : Function.Injective r := by
  intro name name' heq
  by_cases h : isIdentifier name = true
  · by_cases h' : isIdentifier name' = true
    · rw [r.apply_of_isIdentifier h, r.apply_of_isIdentifier h'] at heq
      exact congrArg Subtype.val (r.injective (Subtype.ext heq))
    · rw [r.apply_of_not_isIdentifier h'] at heq
      exact absurd (heq ▸ r.isIdentifier_apply h) h'
  · by_cases h' : isIdentifier name' = true
    · rw [r.apply_of_not_isIdentifier h] at heq
      exact absurd (heq ▸ r.isIdentifier_apply h') h
    · rwa [r.apply_of_not_isIdentifier h, r.apply_of_not_isIdentifier h'] at heq

lemma apply_of_mem_reservedNames {name : String} (h : name ∈ reservedNames) : r name = name := by
  by_cases hname : isIdentifier name = true
  · rw [r.apply_of_isIdentifier hname, r.fixes ⟨name, hname⟩ h]
  · exact r.apply_of_not_isIdentifier hname

lemma apply_mem_reservedNames_iff {name : String} :
    r name ∈ reservedNames ↔ name ∈ reservedNames := by
  constructor
  · intro h
    rwa [r.apply_injective (r.apply_of_mem_reservedNames h)] at h
  · intro h
    rwa [r.apply_of_mem_reservedNames h]

end Renaming

/-! ## What has names in it -/

/-- A symbol under another name. -/
def Symbol.rename (r : Renaming) : Symbol → Symbol
  | var name ty => var (r name) ty
  | arg name ty => arg (r name) ty
  | array name ty size => array (r name) ty size
  | function name arity => function (r name) arity

mutual

/-- An expression with other names. -/
def Expr.rename (r : Renaming) : Expr → Expr
  | .integer value ty => .integer value ty
  | .var name symbol ty => .var (r name) (symbol.map (Symbol.rename r)) ty
  | .element name index symbol ty =>
    .element (r name) (index.rename r) (symbol.map (Symbol.rename r)) ty
  | .arith op left right ty => .arith op (left.rename r) (right.rename r) ty
  | .compare op left right ty => .compare op (left.rename r) (right.rename r) ty
  | .call name none ty => .call (r name) none ty
  | .call name (some args) ty => .call (r name) (some (Expr.renameAll r args)) ty

/-- Expressions with other names. -/
def Expr.renameAll (r : Renaming) : List Expr → List Expr
  | [] => []
  | e :: rest => e.rename r :: Expr.renameAll r rest

end

/-- A target with other names. -/
def Target.rename (r : Renaming) : Target → Target
  | .var name symbol => .var (r name) (symbol.map (Symbol.rename r))
  | .element name index symbol =>
    .element (r name) (index.rename r) (symbol.map (Symbol.rename r))

mutual

/-- A statement with other names. -/
def Stmt.rename (r : Renaming) : Stmt → Stmt
  | .assign target value targetTy ty => .assign (target.rename r) (value.rename r) targetTy ty
  | .print value => .print (value.rename r)
  | .read name symbol => .read (r name) (symbol.map (Symbol.rename r))
  | .ret value => .ret (value.rename r)
  | .branch condition yes none => .branch (condition.rename r) (Stmt.renameAll r yes) none
  | .branch condition yes (some no) =>
    .branch (condition.rename r) (Stmt.renameAll r yes) (some (Stmt.renameAll r no))
  | .loop condition body => .loop (condition.rename r) (Stmt.renameAll r body)
  | .block body => .block (Stmt.renameAll r body)

/-- Statements with other names. -/
def Stmt.renameAll (r : Renaming) : List Stmt → List Stmt
  | [] => []
  | s :: rest => s.rename r :: Stmt.renameAll r rest

end

/-- A definition of another name. -/
def VarDef.rename (r : Renaming) : VarDef → VarDef
  | scalar name => scalar (r name)
  | array name size => array (r name) size

/-- A function with other names. -/
def FunctionDecl.rename (r : Renaming) (f : FunctionDecl) : FunctionDecl where
  name := r f.name
  params := f.params.map (List.map r)
  locals := f.locals.map (List.map (VarDef.rename r))
  body := Stmt.renameAll r f.body

/-- A declaration with other names. -/
def Decl.rename (r : Renaming) : Decl → Decl
  | .vars group => .vars (group.map (VarDef.rename r))
  | .function f => .function (f.rename r)

/-- A program in which every name, declared or used, is replaced by another. -/
def Program.rename (r : Renaming) (p : Program) : Program where
  declarations := p.declarations.map (List.map (Decl.rename r))
  body := Stmt.renameAll r p.body

/-- A table with other names. -/
def SymbolTable.rename (r : Renaming) (table : SymbolTable) : SymbolTable :=
  ⟨table.scopes.map (List.map (Symbol.rename r))⟩

/-- A resolution with other names. -/
def Resolution.rename (r : Renaming) : Resolution → Resolution
  | found symbol => found (symbol.rename r)
  | wrongKind symbol => wrongKind (symbol.rename r)
  | notFound => notFound

/-- An error about another name. -/
def TypeMismatch.rename (r : Renaming) : TypeMismatch → TypeMismatch
  | condition found => condition found
  | assignment target => assignment (r target)
  | operand op => operand op
  | comparison op => comparison op
  | index array => index (r array)

/-- An error about another name. -/
def SemanticError.rename (r : Renaming) : SemanticError → SemanticError
  | undeclaredVariable name => undeclaredVariable (r name)
  | undeclaredFunction name arguments => undeclaredFunction (r name) arguments
  | typeMismatch mismatch => typeMismatch (mismatch.rename r)
  | redeclared name => redeclared (r name)

/-- An event with other names. -/
def Event.rename (r : Renaming) : Event → Event
  | addedSymbol symbol depth => addedSymbol (symbol.rename r) depth
  | analyzedFunction name params => analyzedFunction (r name) params
  | loweredFunction name locals => loweredFunction (r name) locals
  | event => event

/-- An analyser with other names in its table and its journal. -/
def Analyzer.rename (r : Renaming) (a : Analyzer) : Analyzer where
  table := a.table.rename r
  journal := a.journal.map (Event.rename r)

variable (r : Renaming)

@[simp] lemma Symbol.name_rename (symbol : Symbol) : (symbol.rename r).name = r symbol.name := by
  cases symbol <;> rfl

@[simp] lemma Symbol.kind_rename (symbol : Symbol) : (symbol.rename r).kind = symbol.kind := by
  cases symbol <;> rfl

@[simp] lemma Target.name_rename (target : Target) : (target.rename r).name = r target.name := by
  cases target <;> rfl

@[simp] lemma VarDef.symbol_rename (d : VarDef) : (d.rename r).symbol = d.symbol.rename r := by
  cases d <;> rfl

lemma Expr.renameAll_eq_map (list : List Expr) :
    Expr.renameAll r list = list.map (Expr.rename r) := by
  induction list with
  | nil => rfl
  | cons e rest ih => rw [Expr.renameAll, ih, List.map_cons]

lemma Stmt.renameAll_eq_map (list : List Stmt) :
    Stmt.renameAll r list = list.map (Stmt.rename r) := by
  induction list with
  | nil => rfl
  | cons s rest ih => rw [Stmt.renameAll, ih, List.map_cons]

lemma FunctionDecl.paramList_rename (f : FunctionDecl) :
    (f.rename r).paramList = f.paramList.map r := by
  rw [FunctionDecl.paramList, FunctionDecl.paramList, FunctionDecl.rename]
  cases f.params <;> rfl

lemma FunctionDecl.localList_rename (f : FunctionDecl) :
    (f.rename r).localList = f.localList.map (VarDef.rename r) := by
  rw [FunctionDecl.localList, FunctionDecl.localList, FunctionDecl.rename]
  cases f.locals <;> rfl

lemma FunctionDecl.symbol_rename (f : FunctionDecl) :
    (f.rename r).symbol = f.symbol.rename r := by
  rw [FunctionDecl.symbol, f.paramList_rename, List.length_map]
  rfl

lemma FunctionDecl.innerSymbols_rename (f : FunctionDecl) :
    (f.rename r).innerSymbols = f.innerSymbols.map (Symbol.rename r) := by
  rw [FunctionDecl.innerSymbols, f.paramList_rename, f.localList_rename,
    FunctionDecl.innerSymbols, List.map_append, List.map_map, List.map_map, List.map_map,
    List.map_map]
  simp [Function.comp_def, Symbol.rename]

lemma Program.declarationList_rename (p : Program) :
    (p.rename r).declarationList = p.declarationList.map (Decl.rename r) := by
  rw [Program.declarationList, Program.declarationList, Program.rename]
  cases p.declarations <;> rfl

/-! ## Look-ups -/

lemma Scope.find?_rename (scope : Scope) (name : String) :
    Scope.find? (scope.map (Symbol.rename r)) (r name) =
      (Scope.find? scope name).map (Symbol.rename r) := by
  have hsame : ((fun symbol : Symbol => symbol.name == r name) ∘ Symbol.rename r) =
      fun symbol : Symbol => symbol.name == name := by
    funext symbol
    rw [Function.comp_apply, Symbol.name_rename, Bool.eq_iff_iff, beq_iff_eq, beq_iff_eq,
      r.apply_injective.eq_iff]
  rw [Scope.find?, Scope.find?, List.find?_map, hsame]

namespace SymbolTable

variable (table : SymbolTable) (name : String)

lemma findLocal?_rename :
    (table.rename r).findLocal? (r name) = (table.findLocal? name).map (Symbol.rename r) := by
  obtain ⟨scopes⟩ := table
  cases scopes with
  | nil => rfl
  | cons innermost outer => exact Scope.find?_rename r innermost name

lemma find?_rename :
    (table.rename r).find? (r name) = (table.find? name).map (Symbol.rename r) := by
  obtain ⟨scopes⟩ := table
  induction scopes with
  | nil => rfl
  | cons innermost outer ih =>
    rw [find?_eq_findLocal?_or, findLocal?_rename, find?_eq_findLocal?_or ⟨innermost :: outer⟩,
      Option.map_or]
    exact congrArg _ ih

lemma declaresLocally_rename :
    (table.rename r).declaresLocally (r name) = table.declaresLocally name := by
  rw [declaresLocally, declaresLocally, findLocal?_rename, Option.isSome_map]

/-- What a name stands for is renamed with it, since the kinds that are admitted stay the same. -/
lemma resolve_rename (kinds : List SymbolKind) (reach : Reach) :
    (table.rename r).resolve (r name) kinds reach = (table.resolve name kinds reach).rename r := by
  cases reach with
  | innermost =>
    rw [resolve, resolve, findLocal?_rename]
    cases table.findLocal? name with
    | none => rfl
    | some symbol => by_cases hkind : symbol.kind ∈ kinds <;> simp [hkind, Resolution.rename]
  | enclosing =>
    rw [resolve, resolve, find?_rename]
    cases table.find? name with
    | none => rfl
    | some symbol => by_cases hkind : symbol.kind ∈ kinds <;> simp [hkind, Resolution.rename]

lemma scalar?_rename :
    (table.rename r).scalar? (r name) = (table.scalar? name).map (Symbol.rename r) := by
  rw [scalar?, scalar?, resolve_rename]
  cases table.resolve name [.var, .arg] .innermost <;> rfl

lemma array?_rename :
    (table.rename r).array? (r name) =
      (table.array? name).map fun found => (found.1.rename r, found.2) := by
  rw [array?, array?, resolve_rename]
  cases table.resolve name [.array] .innermost with
  | found symbol => cases symbol <;> rfl
  | _ => rfl

lemma hasFunction_rename (arity : Nat) :
    (table.rename r).hasFunction (r name) arity = table.hasFunction name arity := by
  rw [hasFunction, hasFunction, resolve_rename]
  cases table.resolve name [.function] .enclosing with
  | found symbol => cases symbol <;> rfl
  | _ => rfl

end SymbolTable

/-! ## Checks -/

/-- A check with other names in its tree and in its error. -/
def Checked.rename {α β : Type} (r : Renaming) (onTree : α → α) (c : Checked α β) :
    Checked α β where
  tree := onTree c.tree
  verdict := c.verdict.mapError (SemanticError.rename r)

section Checks

variable {α β γ δ : Type} {onPart : α → α} {onWhole : γ → γ}

/-- If renaming commutes with what is done after a check of a part, it commutes with both. -/
lemma Checked.andThen_rename {part : Checked α β} {whole whole' : α → γ}
    {next next' : α → β → Checked γ δ}
    (hwhole : ∀ tree, whole' (onPart tree) = onWhole (whole tree))
    (hnext : ∀ tree result, next' (onPart tree) result = (next tree result).rename r onWhole) :
    (part.rename r onPart).andThen whole' next' = (part.andThen whole next).rename r onWhole := by
  cases hverdict : part.verdict with
  | ok result =>
    have hverdict' : (part.rename r onPart).verdict = .ok result := by
      rw [Checked.rename, hverdict]
      rfl
    rw [andThen_of_ok hverdict, andThen_of_ok hverdict']
    exact hnext part.tree result
  | error error =>
    have hverdict' : (part.rename r onPart).verdict = .error (error.rename r) := by
      rw [Checked.rename, hverdict]
      rfl
    rw [andThen_of_error hverdict, andThen_of_error hverdict', Checked.rename, hwhole]
    rfl

lemma Checked.map_rename {part : Checked α β} {whole whole' : α → γ}
    (hwhole : ∀ tree, whole' (onPart tree) = onWhole (whole tree)) :
    (part.rename r onPart).map whole' = (part.map whole).rename r onWhole := by
  rw [Checked.map, Checked.map, Checked.rename, Checked.rename, hwhole]

end Checks

variable (table : SymbolTable)

lemma Expr.checkAll_rename {list : List Expr}
    (h : ∀ e ∈ list,
      (e.rename r).check (table.rename r) = (e.check table).rename r (Expr.rename r)) :
    Expr.checkAll (table.rename r) (Expr.renameAll r list) =
      (Expr.checkAll table list).rename r (Expr.renameAll r) := by
  induction list with
  | nil => rfl
  | cons e rest ih =>
    obtain ⟨he, hrest⟩ := List.forall_mem_cons.1 h
    rw [Expr.renameAll, Expr.checkAll, Expr.checkAll, he, ih hrest]
    exact Checked.andThen_rename r (fun _ => rfl) fun _ _ => Checked.map_rename r fun _ => rfl

/-- Expressions are checked up to names. -/
lemma Expr.check_rename (e : Expr) :
    (e.rename r).check (table.rename r) = (e.check table).rename r (Expr.rename r) := by
  induction e with
  | integer value ty => rfl
  | var name symbol ty =>
    rw [Expr.rename, Expr.check, Expr.check, SymbolTable.scalar?_rename]
    cases table.scalar? name <;> rfl
  | element name index symbol ty ih =>
    rw [Expr.rename, Expr.check, Expr.check, SymbolTable.array?_rename]
    cases table.array? name with
    | none => rfl
    | some found =>
      simp only [Option.map_some, ih]
      refine Checked.andThen_rename r (fun _ => rfl) fun index' indexTy => ?_
      split <;> rfl
  | arith op left right ty ihl ihr =>
    rw [Expr.rename, Expr.check, Expr.check, ihl]
    refine Checked.andThen_rename r (fun _ => rfl) fun left' leftTy => ?_
    rw [ihr]
    refine Checked.andThen_rename r (fun _ => rfl) fun right' rightTy => ?_
    split <;> rfl
  | compare op left right ty ihl ihr =>
    rw [Expr.rename, Expr.check, Expr.check, ihl]
    refine Checked.andThen_rename r (fun _ => rfl) fun left' leftTy => ?_
    rw [ihr]
    refine Checked.andThen_rename r (fun _ => rfl) fun right' rightTy => ?_
    split <;> rfl
  | call name args ty ih =>
    cases args with
    | none =>
      rw [Expr.rename, Expr.check, Expr.check, SymbolTable.hasFunction_rename]
      split <;> rfl
    | some args =>
      have hargs : Expr.checkAll (table.rename r) (Expr.renameAll r args) =
          (Expr.checkAll table args).rename r (Expr.renameAll r) := Expr.checkAll_rename r table ih
      have hlength : (Expr.renameAll r args).length = args.length := by
        rw [Expr.renameAll_eq_map, List.length_map]
      rw [Expr.rename, Expr.check, Expr.check, hlength, SymbolTable.hasFunction_rename]
      split
      · rw [hargs]
        exact Checked.andThen_rename r (fun _ => rfl) fun _ _ => rfl
      · rfl

lemma Target.check_rename (target : Target) :
    (target.rename r).check (table.rename r) = (target.check table).rename r (Target.rename r) := by
  cases target with
  | var name symbol =>
    rw [Target.rename, Target.check, Target.check, SymbolTable.scalar?_rename]
    cases table.scalar? name <;> rfl
  | element name index symbol =>
    rw [Target.rename, Target.check, Target.check, SymbolTable.array?_rename]
    cases table.array? name with
    | none => rfl
    | some found =>
      simp only [Option.map_some, Expr.check_rename]
      refine Checked.andThen_rename r (fun _ => rfl) fun index' indexTy => ?_
      split <;> rfl

lemma Expr.checkCondition_rename (e : Expr) :
    (e.rename r).checkCondition (table.rename r) =
      (e.checkCondition table).rename r (Expr.rename r) := by
  rw [Expr.checkCondition, Expr.checkCondition, Expr.check_rename]
  refine Checked.andThen_rename r (fun _ => rfl) fun condition' ty => ?_
  split <;> rfl

lemma Stmt.checkAll_rename_of_forall {list : List Stmt}
    (h : ∀ s ∈ list,
      (s.rename r).check (table.rename r) = (s.check table).rename r (Stmt.rename r)) :
    Stmt.checkAll (table.rename r) (Stmt.renameAll r list) =
      (Stmt.checkAll table list).rename r (Stmt.renameAll r) := by
  induction list with
  | nil => rfl
  | cons s rest ih =>
    obtain ⟨hs, hrest⟩ := List.forall_mem_cons.1 h
    rw [Stmt.renameAll, Stmt.checkAll, Stmt.checkAll, hs, ih hrest]
    exact Checked.andThen_rename r (fun _ => rfl) fun _ _ => Checked.map_rename r fun _ => rfl

/-- Statements are checked up to names. -/
lemma Stmt.check_rename (s : Stmt) :
    (s.rename r).check (table.rename r) = (s.check table).rename r (Stmt.rename r) := by
  induction s with
  | assign target value targetTy ty =>
    rw [Stmt.rename, Stmt.check, Stmt.check, Target.check_rename, Target.name_rename]
    refine Checked.andThen_rename r (fun _ => rfl) fun target' found => ?_
    rw [Expr.check_rename]
    refine Checked.andThen_rename r (fun _ => rfl) fun value' valueTy => ?_
    split <;> rfl
  | print value =>
    rw [Stmt.rename, Stmt.check, Stmt.check, Expr.check_rename]
    exact Checked.andThen_rename r (fun _ => rfl) fun _ _ => rfl
  | read name symbol =>
    rw [Stmt.rename, Stmt.check, Stmt.check, SymbolTable.scalar?_rename]
    cases table.scalar? name <;> rfl
  | ret value =>
    rw [Stmt.rename, Stmt.check, Stmt.check, Expr.check_rename]
    exact Checked.andThen_rename r (fun _ => rfl) fun _ _ => rfl
  | branch condition yes no ihyes ihno =>
    have hyes := Stmt.checkAll_rename_of_forall r table ihyes
    cases no with
    | none =>
      rw [Stmt.rename, Stmt.check, Stmt.check, Expr.checkCondition_rename]
      refine Checked.andThen_rename r (fun _ => rfl) fun condition' _ => ?_
      rw [hyes]
      exact Checked.map_rename r fun _ => rfl
    | some no =>
      have hno : Stmt.checkAll (table.rename r) (Stmt.renameAll r no) =
          (Stmt.checkAll table no).rename r (Stmt.renameAll r) :=
        Stmt.checkAll_rename_of_forall r table ihno
      rw [Stmt.rename, Stmt.check, Stmt.check, Expr.checkCondition_rename]
      refine Checked.andThen_rename r (fun _ => rfl) fun condition' _ => ?_
      rw [hyes]
      refine Checked.andThen_rename r (fun _ => rfl) fun yes' _ => ?_
      rw [hno]
      exact Checked.map_rename r fun _ => rfl
  | loop condition body ih =>
    rw [Stmt.rename, Stmt.check, Stmt.check, Expr.checkCondition_rename]
    refine Checked.andThen_rename r (fun _ => rfl) fun condition' _ => ?_
    rw [Stmt.checkAll_rename_of_forall r table ih]
    exact Checked.map_rename r fun _ => rfl
  | block body ih =>
    rw [Stmt.rename, Stmt.check, Stmt.check, Stmt.checkAll_rename_of_forall r table ih]
    exact Checked.map_rename r fun _ => rfl

lemma Stmt.checkAll_rename (list : List Stmt) :
    Stmt.checkAll (table.rename r) (Stmt.renameAll r list) =
      (Stmt.checkAll table list).rename r (Stmt.renameAll r) :=
  Stmt.checkAll_rename_of_forall r table fun s _ => s.check_rename r table

/-! ## Visits -/

/-- A visit with other names in all that it leaves. -/
def Visit.rename {α : Type} (r : Renaming) (onTree : α → α) (v : Visit α) : Visit α where
  tree := onTree v.tree
  verdict := v.verdict.mapError (SemanticError.rename r)
  analyzer := v.analyzer.rename r

namespace Analyzer

variable (a : Analyzer)

lemma note_rename (event : Event) :
    (a.rename r).note (event.rename r) = (a.note event).rename r := by
  simp [note, rename]

lemma enter_rename : (a.rename r).enter = a.enter.rename r := by
  simp [enter, note, rename, Event.rename, SymbolTable.rename, SymbolTable.enter,
    SymbolTable.depth]

lemma leave_rename : (a.rename r).leave = a.leave.rename r := by
  simp [leave, note, rename, Event.rename, SymbolTable.rename, SymbolTable.exit,
    SymbolTable.depth]

lemma add_rename (symbol : Symbol) :
    (a.rename r).add (symbol.rename r) = (a.add symbol).rename r := by
  obtain ⟨⟨scopes⟩, journal⟩ := a
  cases scopes <;> simp [add, note, rename, Event.rename, SymbolTable.rename, SymbolTable.add?,
    SymbolTable.depth]

lemma declareAll_rename (symbols : List Symbol) :
    (a.rename r).declareAll (symbols.map (Symbol.rename r)) =
      (a.declareAll symbols).rename r id := by
  induction symbols generalizing a with
  | nil => rfl
  | cons symbol rest ih =>
    have hsame : (a.rename r).table.declaresLocally (symbol.rename r).name =
        a.table.declaresLocally symbol.name := by
      rw [Symbol.name_rename]
      exact a.table.declaresLocally_rename r symbol.name
    rw [List.map_cons, declareAll, declareAll, declare, declare, hsame]
    by_cases hdeclared : a.table.declaresLocally symbol.name = true
    · rw [if_pos hdeclared, if_pos hdeclared, Symbol.name_rename]
      rfl
    · rw [if_neg hdeclared, if_neg hdeclared, add_rename]
      exact ih (a.add symbol)

lemma visitInside_rename (f : FunctionDecl) :
    (a.rename r).visitInside (f.rename r) = (a.visitInside f).rename r (FunctionDecl.rename r) := by
  rw [visitInside, visitInside, FunctionDecl.innerSymbols_rename, declareAll_rename]
  cases hverdict : (a.declareAll f.innerSymbols).verdict with
  | error error => simp only [Visit.rename, hverdict, Except.mapError]
  | ok _ =>
    have hbody : Stmt.checkAll ((a.declareAll f.innerSymbols).analyzer.rename r).table
        (f.rename r).body =
          (Stmt.checkAll (a.declareAll f.innerSymbols).analyzer.table f.body).rename r
            (Stmt.renameAll r) := Stmt.checkAll_rename r _ f.body
    simp only [Visit.rename, hverdict, Except.mapError, hbody]
    rfl

lemma refuses_rename_iff {name : String} : (a.rename r).Refuses (r name) ↔ a.Refuses name := by
  rw [Refuses, Refuses, r.apply_mem_reservedNames_iff]
  exact or_congr_right (iff_of_eq (congrArg (· = true) (a.table.declaresLocally_rename r name)))

lemma visitFunction_rename (f : FunctionDecl) :
    (a.rename r).visitFunction (f.rename r) =
      (a.visitFunction f).rename r (FunctionDecl.rename r) := by
  by_cases hrefuses : a.Refuses f.name
  · have hrefuses' : (a.rename r).Refuses (f.rename r).name := (a.refuses_rename_iff r).2 hrefuses
    rw [visitFunction_of_refuses hrefuses, visitFunction_of_refuses hrefuses']
    rfl
  · have hrefuses' : ¬ (a.rename r).Refuses (f.rename r).name :=
      mt (a.refuses_rename_iff r).1 hrefuses
    have hinside : ((a.rename r).add (f.rename r).symbol).enter.visitInside (f.rename r) =
        ((a.add f.symbol).enter.visitInside f).rename r (FunctionDecl.rename r) := by
      rw [f.symbol_rename, add_rename, enter_rename, visitInside_rename]
    cases hverdict : ((a.add f.symbol).enter.visitInside f).verdict with
    | error e =>
      have hverdict' : (((a.rename r).add (f.rename r).symbol).enter.visitInside
          (f.rename r)).verdict = .error (e.rename r) := by
        rw [hinside, Visit.rename, hverdict]
        rfl
      rw [visitFunction_of_inside_error hrefuses hverdict,
        visitFunction_of_inside_error hrefuses' hverdict', hinside]
      rfl
    | ok _ =>
      have hverdict' : (((a.rename r).add (f.rename r).symbol).enter.visitInside
          (f.rename r)).verdict = .ok () := by
        rw [hinside, Visit.rename, hverdict]
        rfl
      rw [visitFunction_of_inside_ok hrefuses hverdict,
        visitFunction_of_inside_ok hrefuses' hverdict', hinside, f.paramList_rename,
        List.length_map, Visit.rename, Visit.rename, leave_rename]
      exact congrArg (Visit.mk _ _) (note_rename r _ (.analyzedFunction f.name _))

lemma visitDecl_rename (d : Decl) :
    (a.rename r).visitDecl (d.rename r) = (a.visitDecl d).rename r (Decl.rename r) := by
  cases d with
  | vars group =>
    have hsymbols : (group.map (VarDef.rename r)).map VarDef.symbol =
        (group.map VarDef.symbol).map (Symbol.rename r) := by
      simp [Function.comp_def]
    rw [Decl.rename, visitDecl, visitDecl, hsymbols, declareAll_rename]
    rfl
  | function f =>
    rw [Decl.rename, visitDecl, visitDecl, visitFunction_rename]
    rfl

lemma visitDecls_rename (list : List Decl) :
    (a.rename r).visitDecls (list.map (Decl.rename r)) =
      (a.visitDecls list).rename r (List.map (Decl.rename r)) := by
  induction list generalizing a with
  | nil => rfl
  | cons d rest ih =>
    rw [List.map_cons, visitDecls, visitDecls, visitDecl_rename]
    cases hverdict : (a.visitDecl d).verdict with
    | error e => simp only [Visit.rename, hverdict, Except.mapError, List.map_cons]
    | ok _ =>
      simp only [Visit.rename, hverdict, Except.mapError]
      rw [ih]
      rfl

/-- A visit of a renamed program by a renamed analyser is the visit of the program, renamed. -/
lemma visit_rename (p : Program) :
    (a.rename r).visit (p.rename r) = (a.visit p).rename r (Program.rename r) := by
  have hdeclarations (list : List Decl) :
      ((p.rename r).declarations.map fun _ => list.map (Decl.rename r)) =
        (p.declarations.map fun _ => list).map (List.map (Decl.rename r)) := by
    rw [Program.rename]
    cases p.declarations <;> rfl
  rw [visit, visit, enter_rename, p.declarationList_rename, visitDecls_rename]
  cases hverdict : (a.enter.visitDecls p.declarationList).verdict with
  | error e =>
    simp only [Visit.rename, hverdict, Except.mapError, hdeclarations]
    rfl
  | ok _ =>
    have hbody : Stmt.checkAll
        ((a.enter.visitDecls p.declarationList).analyzer.rename r).table (p.rename r).body =
          (Stmt.checkAll (a.enter.visitDecls p.declarationList).analyzer.table p.body).rename r
            (Stmt.renameAll r) := Stmt.checkAll_rename r _ p.body
    simp only [Visit.rename, hverdict, Except.mapError, hdeclarations, hbody]
    cases hchecked :
        (Stmt.checkAll (a.enter.visitDecls p.declarationList).analyzer.table p.body).verdict with
    | error e =>
      simp only [Checked.rename, hchecked, Except.mapError]
      rfl
    | ok _ =>
      simp only [Checked.rename, hchecked, Except.mapError, leave_rename]
      exact congrArg (Visit.mk _ _) (note_rename r _ .analyzed)

/-- What a fresh analyser says of a renamed program. -/
lemma fresh_visit_rename (p : Program) :
    fresh.visit (p.rename r) = (fresh.visit p).rename r (Program.rename r) :=
  visit_rename r fresh p

end Analyzer

end DLang
