import DLang.Symbol.Basic

/-!
# The symbol table

A stack of scopes, the innermost first, each with the symbols declared in it, the latest first.
Lookups go by name, and the first symbol met with that name decides: a later symbol of a scope
replaces an earlier one of the same name, and an inner scope hides what an outer one declares, also
when the inner symbol turns out to be of the wrong kind.

Leaving a scope drops its symbols; with no scope open it does nothing.  A symbol can be added only
while a scope is open, so `add?` is partial.
-/

namespace DLang

/-- The symbols declared in one scope, the latest first. -/
abbrev Scope := List Symbol

/-- The symbol with a given name in a scope. -/
def Scope.find? (scope : Scope) (name : String) : Option Symbol :=
  List.find? (fun symbol => symbol.name == name) scope

/-- A stack of scopes, the innermost first. -/
structure SymbolTable where
  scopes : List Scope
  deriving DecidableEq, Repr

/-- How far a lookup goes: the innermost scope only, or all open scopes. -/
inductive Reach where
  | innermost
  | enclosing
  deriving DecidableEq, Repr

/-- What a name stands for, seen from a place that admits only some kinds of symbol. -/
inductive Resolution where
  /-- The symbol met first, of an admitted kind. -/
  | found (symbol : Symbol)
  /-- The symbol met first, of a kind that is not admitted. -/
  | wrongKind (symbol : Symbol)
  /-- No scope in reach declares the name. -/
  | notFound
  deriving DecidableEq, Repr

namespace SymbolTable

/-- The table in which no scope is open. -/
def empty : SymbolTable :=
  ⟨[]⟩

/-- The number of open scopes. -/
def depth (table : SymbolTable) : Nat :=
  table.scopes.length

/-- Opens a scope without symbols. -/
def enter (table : SymbolTable) : SymbolTable :=
  ⟨[] :: table.scopes⟩

/-- Leaves the innermost scope, if one is open. -/
def exit (table : SymbolTable) : SymbolTable :=
  ⟨table.scopes.tail⟩

/-- Adds a symbol to the innermost scope; there is no result if none is open. -/
def add? (table : SymbolTable) (symbol : Symbol) : Option SymbolTable :=
  match table.scopes with
  | [] => none
  | innermost :: outer => some ⟨(symbol :: innermost) :: outer⟩

/-- The symbol with a given name in the innermost scope. -/
def findLocal? (table : SymbolTable) (name : String) : Option Symbol :=
  table.scopes.head?.bind fun scope => scope.find? name

/-- The symbol with a given name in the innermost scope that has one. -/
def find? (table : SymbolTable) (name : String) : Option Symbol :=
  table.scopes.findSome? fun scope => scope.find? name

/-- Whether the innermost scope declares a name. -/
def declaresLocally (table : SymbolTable) (name : String) : Bool :=
  (table.findLocal? name).isSome

/-- What a name stands for where only symbols of the given kinds are admitted. -/
def resolve (table : SymbolTable) (name : String) (kinds : List SymbolKind) (reach : Reach) :
    Resolution :=
  let symbol? :=
    match reach with
    | .innermost => table.findLocal? name
    | .enclosing => table.find? name
  match symbol? with
  | some symbol => if symbol.kind ∈ kinds then .found symbol else .wrongKind symbol
  | none => .notFound

/-! ## What the operations do to lookups -/

variable {table table' : SymbolTable} {symbol : Symbol} {name : String}

@[simp] theorem exit_enter (table : SymbolTable) : table.enter.exit = table := rfl

@[simp] theorem depth_enter (table : SymbolTable) : table.enter.depth = table.depth + 1 := rfl

@[simp] theorem depth_exit (table : SymbolTable) : table.exit.depth = table.depth - 1 :=
  List.length_tail

/-- Adding a symbol needs an open scope and nothing else. -/
theorem isSome_add?_iff : (table.add? symbol).isSome ↔ 0 < table.depth := by
  obtain ⟨scopes⟩ := table
  cases scopes with
  | nil => simp [add?, depth]
  | cons innermost outer => simp [add?, depth]

/-- Adding a symbol opens no scope and closes none. -/
theorem depth_of_add? (h : table.add? symbol = some table') : table'.depth = table.depth := by
  obtain ⟨scopes⟩ := table
  cases scopes with
  | nil => cases h
  | cons innermost outer =>
    cases h
    rfl

/-- A symbol just added is the one its name stands for, and other names are not affected. -/
theorem findLocal?_of_add? (h : table.add? symbol = some table') :
    table'.findLocal? name =
      if symbol.name = name then some symbol else table.findLocal? name := by
  obtain ⟨scopes⟩ := table
  cases scopes with
  | nil => cases h
  | cons innermost outer =>
    cases h
    by_cases hname : symbol.name = name
    · simp [findLocal?, Scope.find?, hname]
    · simp [findLocal?, Scope.find?, hname]

/-- The innermost scope is searched before the others. -/
theorem find?_eq_findLocal?_or (table : SymbolTable) (name : String) :
    table.find? name = (table.findLocal? name).or (table.exit.find? name) := by
  obtain ⟨scopes⟩ := table
  cases scopes with
  | nil => rfl
  | cons innermost outer =>
    simp only [find?, findLocal?, exit, List.findSome?_cons, List.head?_cons, Option.bind_some,
      List.tail_cons]
    cases innermost.find? name <;> rfl

/-- Whatever a scope finds under a name has that name. -/
theorem name_of_scope_find? {scope : Scope} (h : scope.find? name = some symbol) :
    symbol.name = name := by
  have := List.find?_some h
  simpa using this

/-- Whatever a table finds under a name has that name. -/
theorem name_of_find? (h : table.find? name = some symbol) : symbol.name = name := by
  obtain ⟨scope, _, hscope⟩ := List.exists_of_findSome?_eq_some h
  exact name_of_scope_find? hscope

end SymbolTable

end DLang
