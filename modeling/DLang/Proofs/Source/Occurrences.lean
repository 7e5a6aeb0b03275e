import DLang.Proofs.Grammar.Identifiers
import DLang.Proofs.Static.Analysis

/-!
# Occurrences of names

An identifier of a source text either declares its name or uses it, in the scope of the program or
in that of a function.  `Program.occurrences` lists the identifiers of a program with what they are
there for, in the order of the text (`Program.names_occurrences`).  Whether one of them offends is
told from those on its left alone (`Occurrence.Offends`): a declaration offends if its name is
taken, and a use if no declaration fits it.

As long as nothing offends, no scope declares a name twice (`Distinct.append`), and in the table
that the occurrences declare, `tableAt`, a use finds what it needs exactly if it does not offend
(`Use.isFaulty_tableAt_iff`).
-/

namespace DLang

/-! ## Uses of names -/

/-- A use of a name. -/
inductive Use where
  /-- As a variable or parameter: its value is taken, or it is assigned to or read into. -/
  | scalar (name : String)
  /-- As an array, of which an element is taken or assigned to. -/
  | array (name : String)
  | call (name : String) (arguments : Nat)
  deriving DecidableEq, Repr

namespace Use

/-- The name that is used. -/
def name : Use → String
  | scalar name => name
  | array name => name
  | call name _ => name

/-- The error of a use that is not right. -/
def error : Use → SemanticError
  | scalar name => .undeclaredVariable name
  | array name => .undeclaredVariable name
  | call name arguments => .undeclaredFunction name arguments

end Use

mutual

/-- The uses in an expression, in order. -/
def Expr.uses : Expr → List Use
  | .integer .. => []
  | .var name _ _ => [.scalar name]
  | .element name index _ _ => .array name :: index.uses
  | .arith _ left right _ => left.uses ++ right.uses
  | .compare _ left right _ => left.uses ++ right.uses
  | .call name none _ => [.call name 0]
  | .call name (some args) _ => .call name args.length :: Expr.usesAll args

/-- The uses in expressions, in order. -/
def Expr.usesAll : List Expr → List Use
  | [] => []
  | e :: rest => e.uses ++ Expr.usesAll rest

end

/-- The uses in a target, in order. -/
def Target.uses : Target → List Use
  | .var name _ => [.scalar name]
  | .element name index _ => .array name :: index.uses

mutual

/-- The uses in a statement, in order. -/
def Stmt.uses : Stmt → List Use
  | .assign target value _ _ => target.uses ++ value.uses
  | .print value => value.uses
  | .read name _ => [.scalar name]
  | .ret value => value.uses
  | .branch condition yes none => condition.uses ++ Stmt.usesAll yes
  | .branch condition yes (some no) => condition.uses ++ (Stmt.usesAll yes ++ Stmt.usesAll no)
  | .loop condition body => condition.uses ++ Stmt.usesAll body
  | .block body => Stmt.usesAll body

/-- The uses in statements, in order. -/
def Stmt.usesAll : List Stmt → List Use
  | [] => []
  | s :: rest => s.uses ++ Stmt.usesAll rest

end

/-! ## Occurrences of names -/

/-- An identifier of a program and what it is there for.  Its scope is that of the program (`none`)
or that of the function which is the declaration with this number, counted from zero. -/
inductive Occurrence where
  | declaration (scope : Option Nat) (symbol : Symbol)
  | use (scope : Option Nat) (used : Use)
  deriving DecidableEq, Repr

namespace Occurrence

/-- The identifier. -/
def name : Occurrence → String
  | declaration _ symbol => symbol.name
  | use _ used => used.name

/-- The error of an occurrence that offends. -/
def error : Occurrence → SemanticError
  | declaration _ symbol => .redeclared symbol.name
  | use _ used => used.error

end Occurrence

/-- The occurrences in a declaration, which has a number. -/
def Decl.occurrences (number : Nat) : Decl → List Occurrence
  | .vars group => group.map fun d => .declaration none d.symbol
  | .function f =>
    .declaration none f.symbol ::
      (f.innerSymbols.map (.declaration (some number)) ++
        (Stmt.usesAll f.body).map (.use (some number)))

/-- The occurrences in declarations that are numbered from some number on. -/
def Decl.occurrencesAll (number : Nat) : List Decl → List Occurrence
  | [] => []
  | d :: rest => d.occurrences number ++ Decl.occurrencesAll (number + 1) rest

/-- The occurrences in a program, in order. -/
def Program.occurrences (p : Program) : List Occurrence :=
  Decl.occurrencesAll 0 p.declarationList ++ (Stmt.usesAll p.body).map (.use none)

/-- The symbols that are declared in a scope, in order. -/
def declaredIn (occurrences : List Occurrence) (scope : Option Nat) : List Symbol :=
  occurrences.filterMap fun
    | .declaration scope' symbol => if scope' = scope then some symbol else none
    | .use .. => none

/-- Those of them that have a given name. -/
def declaredAs (occurrences : List Occurrence) (scope : Option Nat) (name : String) :
    List Symbol :=
  (declaredIn occurrences scope).filter fun symbol => symbol.name = name

/-- Whether an occurrence is wrong after those on its left: the name it declares is declared in its
scope already, or reserved and that of a function; its own scope does not declare the name it uses
as a variable or parameter, or as an array; or the function it calls, which is looked for by its
name in its own scope and then in that of the program, does not take so many arguments. -/
def Occurrence.Offends (left : List Occurrence) : Occurrence → Prop
  | .declaration scope symbol =>
    declaredAs left scope symbol.name ≠ [] ∨
      (symbol.kind = .function ∧ symbol.name ∈ reservedNames)
  | .use scope (.scalar name) =>
    ∀ symbol ∈ declaredAs left scope name, symbol.kind ≠ .var ∧ symbol.kind ≠ .arg
  | .use scope (.array name) => ∀ symbol ∈ declaredAs left scope name, symbol.kind ≠ .array
  | .use scope (.call name arguments) =>
    .function name arguments ∉
      if declaredAs left scope name = [] then declaredAs left none name
      else declaredAs left scope name

instance (left : List Occurrence) (o : Occurrence) : Decidable (o.Offends left) :=
  match o with
  | .declaration .. => inferInstanceAs (Decidable (_ ∨ _))
  | .use _ (.scalar _) => inferInstanceAs (Decidable (∀ _ ∈ _, _))
  | .use _ (.array _) => inferInstanceAs (Decidable (∀ _ ∈ _, _))
  | .use _ (.call ..) => inferInstanceAs (Decidable (¬ _))

/-! ## Names of occurrences -/

lemma Expr.names_usesAll {list : List Expr} (h : ∀ e ∈ list, e.uses.map Use.name = e.mentioned) :
    (Expr.usesAll list).map Use.name = Expr.mentionedAll list := by
  induction list with
  | nil => rfl
  | cons e rest ih =>
    obtain ⟨he, hrest⟩ := List.forall_mem_cons.1 h
    rw [Expr.usesAll, Expr.mentionedAll, List.map_append, he, ih hrest]

lemma Expr.names_uses (e : Expr) : e.uses.map Use.name = e.mentioned := by
  induction e with
  | integer value ty => rfl
  | var name symbol ty => rfl
  | element name index symbol ty ih => rw [Expr.uses, Expr.mentioned, List.map_cons, ih, Use.name]
  | arith op left right ty ihl ihr => rw [Expr.uses, Expr.mentioned, List.map_append, ihl, ihr]
  | compare op left right ty ihl ihr => rw [Expr.uses, Expr.mentioned, List.map_append, ihl, ihr]
  | call name args ty ih =>
    cases args with
    | none => rfl
    | some args =>
      have hargs := Expr.names_usesAll ih
      rw [Expr.uses, Expr.mentioned, List.map_cons, Use.name]
      exact congrArg (name :: ·) hargs

lemma Target.names_uses (target : Target) : target.uses.map Use.name = target.mentioned := by
  cases target with
  | var name symbol => rfl
  | element name index symbol =>
    rw [Target.uses, Target.mentioned, List.map_cons, index.names_uses, Use.name]

lemma Stmt.names_usesAll_of_forall {list : List Stmt}
    (h : ∀ s ∈ list, s.uses.map Use.name = s.mentioned) :
    (Stmt.usesAll list).map Use.name = Stmt.mentionedAll list := by
  induction list with
  | nil => rfl
  | cons s rest ih =>
    obtain ⟨hs, hrest⟩ := List.forall_mem_cons.1 h
    rw [Stmt.usesAll, Stmt.mentionedAll, List.map_append, hs, ih hrest]

lemma Stmt.uses_branch (condition : Expr) (yes : List Stmt) (no : Option (List Stmt)) :
    (Stmt.branch condition yes no).uses =
      condition.uses ++ (Stmt.usesAll yes ++ Stmt.usesAll (no.getD [])) := by
  cases no <;> simp [Stmt.uses, Stmt.usesAll]

lemma Stmt.names_uses (s : Stmt) : s.uses.map Use.name = s.mentioned := by
  induction s with
  | assign target value targetTy ty =>
    rw [Stmt.uses, Stmt.mentioned, List.map_append, target.names_uses, value.names_uses]
  | print value => exact value.names_uses
  | read name symbol => rfl
  | ret value => exact value.names_uses
  | branch condition yes no ihyes ihno =>
    rw [Stmt.uses_branch, Stmt.mentioned_branch, List.map_append, List.map_append,
      condition.names_uses, Stmt.names_usesAll_of_forall ihyes, Stmt.names_usesAll_of_forall ihno]
  | loop condition body ih =>
    rw [Stmt.uses, Stmt.mentioned, List.map_append, condition.names_uses,
      Stmt.names_usesAll_of_forall ih]
  | block body ih => exact Stmt.names_usesAll_of_forall ih

/-- The uses in statements are those of the names that the statements mention. -/
lemma Stmt.names_occurrences (scope : Option Nat) (list : List Stmt) :
    ((Stmt.usesAll list).map (Occurrence.use scope)).map Occurrence.name =
      Stmt.mentionedAll list := by
  rw [List.map_map]
  exact Stmt.names_usesAll_of_forall fun s _ => s.names_uses

lemma Decl.names_occurrences (number : Nat) (d : Decl) :
    (d.occurrences number).map Occurrence.name = d.identifiers := by
  cases d with
  | vars group =>
    rw [Decl.occurrences, List.map_map, Decl.identifiers]
    exact List.map_congr_left fun d _ => d.name_symbol
  | function f =>
    have hinner : (f.innerSymbols.map (Occurrence.declaration (some number))).map Occurrence.name =
        f.innerNames := by
      rw [List.map_map]
      exact f.names_innerSymbols
    rw [Decl.occurrences, List.map_cons, List.map_append, hinner, Stmt.names_occurrences]
    rfl

lemma Decl.names_occurrencesAll (number : Nat) (list : List Decl) :
    (Decl.occurrencesAll number list).map Occurrence.name = list.flatMap Decl.identifiers := by
  induction list generalizing number with
  | nil => rfl
  | cons d rest ih =>
    rw [Decl.occurrencesAll, List.map_append, d.names_occurrences, ih, List.flatMap_cons]

/-- The occurrences in a program are its names, in order. -/
lemma Program.names_occurrences (p : Program) :
    p.occurrences.map Occurrence.name = p.identifiers := by
  rw [Program.occurrences, List.map_append, Decl.names_occurrencesAll, Stmt.names_occurrences]
  rfl

/-! ## The first offence -/

/-- The error of the first occurrence in a list that offends after those on its left. -/
def firstOffence? (left : List Occurrence) : List Occurrence → Option SemanticError
  | [] => none
  | o :: rest => if o.Offends left then some o.error else firstOffence? (left ++ [o]) rest

lemma firstOffence?_append (left list list' : List Occurrence) :
    firstOffence? left (list ++ list') =
      (firstOffence? left list).or (firstOffence? (left ++ list) list') := by
  induction list generalizing left with
  | nil => rw [List.append_nil, firstOffence?, Option.none_or, List.nil_append]
  | cons o rest ih =>
    rw [List.cons_append, firstOffence?, firstOffence?]
    by_cases h : o.Offends left
    · rw [if_pos h, if_pos h, Option.some_or]
    · rw [if_neg h, if_neg h, ih, List.append_assoc, List.singleton_append]

lemma firstOffence?_eq_none_iff {left list : List Occurrence} :
    firstOffence? left list = none ↔
      ∀ front o rest, list = front ++ o :: rest → ¬ o.Offends (left ++ front) := by
  induction list generalizing left with
  | nil =>
    constructor
    · intro _ front o rest hsplit
      exact absurd hsplit (by simp)
    · exact fun _ => rfl
  | cons o list ih =>
    rw [firstOffence?]
    constructor
    · intro h front o' rest hsplit
      by_cases ho : o.Offends left
      · rw [if_pos ho] at h
        cases h
      · rw [if_neg ho, ih] at h
        rcases List.cons_eq_append_iff.1 hsplit with ⟨rfl, heq⟩ | ⟨front, rfl, hlist⟩
        · obtain ⟨rfl, _⟩ := List.cons_eq_cons.1 heq
          rwa [List.append_nil]
        · have hnot := h front o' rest hlist
          rwa [List.append_assoc, List.singleton_append] at hnot
    · intro h
      have ho := h [] o list rfl
      rw [List.append_nil] at ho
      rw [if_neg ho, ih]
      intro front o' rest hsplit
      rw [List.append_assoc, List.singleton_append]
      exact h (o :: front) o' rest (by rw [hsplit, List.cons_append])

/-- The first offence splits the list where nothing on its left offends. -/
lemma firstOffence?_eq_some_iff {left list : List Occurrence} {e : SemanticError} :
    firstOffence? left list = some e ↔
      ∃ before o after, list = before ++ o :: after ∧ firstOffence? left before = none ∧
        o.Offends (left ++ before) ∧ e = o.error := by
  constructor
  · intro h
    induction list generalizing left with
    | nil => cases h
    | cons o list ih =>
      rw [firstOffence?] at h
      by_cases ho : o.Offends left
      · rw [if_pos ho] at h
        cases h
        exact ⟨[], o, list, rfl, rfl, by rwa [List.append_nil], rfl⟩
      · rw [if_neg ho] at h
        obtain ⟨before, o', after, rfl, hbefore, ho', he⟩ := ih h
        refine ⟨o :: before, o', after, rfl, ?_, ?_, he⟩
        · rw [firstOffence?, if_neg ho, hbefore]
        · rwa [List.append_assoc, List.singleton_append] at ho'
  · rintro ⟨before, o, after, rfl, hbefore, ho, rfl⟩
    rw [firstOffence?_append, hbefore, Option.none_or, firstOffence?, if_pos ho]

/-! ## What occurrences declare -/

lemma declaredIn_append (left list : List Occurrence) (scope : Option Nat) :
    declaredIn (left ++ list) scope = declaredIn left scope ++ declaredIn list scope :=
  List.filterMap_append

lemma declaredIn_uses (scope scope' : Option Nat) (uses : List Use) :
    declaredIn (uses.map (.use scope')) scope = [] := by
  simp [declaredIn]

lemma declaredIn_declarations (scope : Option Nat) (symbols : List Symbol) :
    declaredIn (symbols.map (.declaration scope)) scope = symbols := by
  simp [declaredIn]

lemma declaredIn_declarations_of_ne {scope scope' : Option Nat} (h : scope' ≠ scope)
    (symbols : List Symbol) : declaredIn (symbols.map (.declaration scope')) scope = [] := by
  simp [declaredIn, h]

lemma mem_declaredAs_iff {left : List Occurrence} {scope : Option Nat} {name : String}
    {symbol : Symbol} :
    symbol ∈ declaredAs left scope name ↔ symbol ∈ declaredIn left scope ∧ symbol.name = name := by
  simp [declaredAs]

lemma declaredAs_eq_nil_iff {left : List Occurrence} {scope : Option Nat} {name : String} :
    declaredAs left scope name = [] ↔ name ∉ (declaredIn left scope).map Symbol.name := by
  simp [declaredAs, List.filter_eq_nil_iff]

/-- No scope declares a name twice. -/
def Distinct (left : List Occurrence) : Prop :=
  ∀ scope, ((declaredIn left scope).map Symbol.name).Nodup

lemma Distinct.snoc {left : List Occurrence} (h : Distinct left) {o : Occurrence}
    (ho : ¬ o.Offends left) : Distinct (left ++ [o]) := by
  intro scope
  rw [declaredIn_append]
  cases o with
  | use scope' u => simpa [declaredIn] using h scope
  | declaration scope' symbol =>
    by_cases heq : scope' = scope
    · subst heq
      have hfree : symbol.name ∉ (declaredIn left scope').map Symbol.name := by
        rw [← declaredAs_eq_nil_iff]
        by_contra hne
        exact ho (.inl hne)
      have hone : declaredIn [.declaration scope' symbol] scope' = [symbol] :=
        declaredIn_declarations scope' [symbol]
      rw [hone, List.map_append, List.nodup_append]
      refine ⟨h scope', List.nodup_singleton _, ?_⟩
      intro name hname name' hname' heq
      rw [List.map_singleton, List.mem_singleton] at hname'
      rw [heq, hname'] at hname
      exact hfree hname
    · have hnone : declaredIn [.declaration scope' symbol] scope = [] :=
        declaredIn_declarations_of_ne heq [symbol]
      rw [hnone, List.append_nil]
      exact h scope

/-- Where nothing offends, no scope declares a name twice. -/
lemma Distinct.append {left list : List Occurrence} (h : Distinct left)
    (hlist : firstOffence? left list = none) : Distinct (left ++ list) := by
  induction list generalizing left with
  | nil => rwa [List.append_nil]
  | cons o rest ih =>
    rw [firstOffence?] at hlist
    by_cases ho : o.Offends left
    · rw [if_pos ho] at hlist
      cases hlist
    · rw [if_neg ho] at hlist
      have hrest := ih (h.snoc ho) hlist
      rwa [List.append_assoc, List.singleton_append] at hrest

/-! ## Look-ups in the table of the occurrences -/

/-- The table that occurrences declare, seen from a scope. -/
def tableAt (left : List Occurrence) : Option Nat → SymbolTable
  | none => ⟨[(declaredIn left none).reverse]⟩
  | some number => ⟨[(declaredIn left (some number)).reverse, (declaredIn left none).reverse]⟩

section Lookup

variable {left : List Occurrence} {scope : Option Nat} {name : String} {symbol : Symbol}

lemma declaresLocally_tableAt :
    (tableAt left scope).declaresLocally name = true ↔ declaredAs left scope name ≠ [] := by
  have hlocal : (tableAt left scope).findLocal? name =
      Scope.find? (declaredIn left scope).reverse name := by
    cases scope <;> rfl
  rw [SymbolTable.declaresLocally, hlocal, Option.isSome_iff_ne_none, Ne, Ne,
    Scope.find?_reverse_eq_none, declaredAs_eq_nil_iff]

lemma findLocal?_tableAt (h : Distinct left) :
    (tableAt left scope).findLocal? name = some symbol ↔ symbol ∈ declaredAs left scope name := by
  rw [mem_declaredAs_iff, ← Scope.find?_reverse (h scope)]
  cases scope <;> rfl

lemma find?_tableAt (h : Distinct left) :
    (tableAt left scope).find? name = some symbol ↔
      symbol ∈ if declaredAs left scope name = [] then declaredAs left none name
        else declaredAs left scope name := by
  have hprogram : (tableAt left none).find? name = (tableAt left none).findLocal? name := by
    rw [SymbolTable.find?_eq_findLocal?_or]
    exact Option.or_none
  cases scope with
  | none => rw [ite_self, hprogram, findLocal?_tableAt h]
  | some number =>
    rw [SymbolTable.find?_eq_findLocal?_or]
    show ((tableAt left (some number)).findLocal? name).or ((tableAt left none).find? name) = _ ↔ _
    rw [hprogram]
    by_cases hfree : declaredAs left (some number) name = []
    · have hnone : (tableAt left (some number)).findLocal? name = none := by
        rw [Option.eq_none_iff_forall_ne_some]
        intro found hfound
        rw [findLocal?_tableAt h, hfree] at hfound
        cases hfound
      rw [hnone, Option.none_or, if_pos hfree, findLocal?_tableAt h]
    · rw [if_neg hfree, ← findLocal?_tableAt h]
      obtain ⟨found, hfound⟩ := List.exists_mem_of_ne_nil _ hfree
      rw [(findLocal?_tableAt h).2 hfound, Option.some_or]

end Lookup

/-! ## Uses that a table rejects -/

namespace Use

/-- Whether a table has nothing that fits a use. -/
def isFaulty (table : SymbolTable) : Use → Bool
  | scalar name => (table.scalar? name).isNone
  | array name => (table.array? name).isNone
  | call name arguments => !table.hasFunction name arguments

/-- The error of a use for which a table has nothing that fits. -/
def fault? (table : SymbolTable) (u : Use) : Option SemanticError :=
  if u.isFaulty table then some u.error else none

/-- In the table of the occurrences on its left, a use is faulty if it offends. -/
lemma isFaulty_tableAt_iff {left : List Occurrence} (h : Distinct left) (scope : Option Nat)
    (u : Use) :
    u.isFaulty (tableAt left scope) = true ↔ (Occurrence.use scope u).Offends left := by
  cases u with
  | scalar name =>
    rw [isFaulty, Option.isNone_iff_eq_none, Option.eq_none_iff_forall_ne_some]
    simp only [Ne, SymbolTable.scalar?_eq_some_iff, findLocal?_tableAt h, not_and, not_or]
    rfl
  | array name =>
    rw [isFaulty, Option.isNone_iff_eq_none, Option.eq_none_iff_forall_ne_some]
    constructor
    · intro hnone symbol hsymbol hkind
      cases symbol with
      | array found ty size =>
        exact hnone (.array found ty size, ty) (SymbolTable.array?_eq_some_iff.2
          ⟨(findLocal?_tableAt h).2 hsymbol, found, size, rfl⟩)
      | _ => cases hkind
    · rintro hoffends ⟨symbol, ty⟩ hfound
      obtain ⟨hlocal, found, size, rfl⟩ := SymbolTable.array?_eq_some_iff.1 hfound
      exact hoffends _ ((findLocal?_tableAt h).1 hlocal) rfl
  | call name arguments =>
    rw [isFaulty, Bool.not_eq_true', ← Bool.not_eq_true, SymbolTable.hasFunction_iff,
      find?_tableAt h]
    rfl

end Use

/-- Uses declare nothing. -/
lemma tableAt_append_uses (left : List Occurrence) (scope scope' : Option Nat) (uses : List Use) :
    tableAt (left ++ uses.map (.use scope')) scope = tableAt left scope := by
  cases scope <;> simp [tableAt, declaredIn_append, declaredIn_uses]

/-- So the table is the same for all uses in a list. -/
lemma firstOffence?_uses {left : List Occurrence} (h : Distinct left) (scope : Option Nat)
    (uses : List Use) :
    firstOffence? left (uses.map (.use scope)) =
      uses.findSome? (Use.fault? (tableAt left scope)) := by
  induction uses generalizing left with
  | nil => rfl
  | cons u rest ih =>
    have hfaulty := u.isFaulty_tableAt_iff h scope
    rw [List.map_cons, firstOffence?, List.findSome?_cons, Use.fault?]
    by_cases ho : (Occurrence.use scope u).Offends left
    · rw [if_pos ho, if_pos (hfaulty.2 ho)]
      rfl
    · have hsame : tableAt (left ++ [.use scope u]) scope = tableAt left scope :=
        tableAt_append_uses left scope scope [u]
      rw [if_neg ho, if_neg (mt hfaulty.1 ho), ih (h.snoc ho), hsame]

end DLang
