import DLang.Proofs.Static.Bare
import DLang.Proofs.Static.Checking
import Mathlib.Data.List.Nodup

/-!
# Symbol tables and places

The scopes that are open while a program is analysed hold exactly the symbols declared so far, the
latest first.  This module reads such a stack of scopes as a place: inside a function
(`shows_functionEnv`) and in the body of the program (`shows_programEnv`).

Both rest on one fact about a scope without repeated names, `Scope.find?_reverse`: a look-up finds
exactly the symbol that was declared under the name, whatever the order of declaration.
-/

namespace DLang

/-! ## What a declaration introduces -/

/-- The symbols that a declaration adds to the scope of the program. -/
def Decl.symbols : Decl → List Symbol
  | .vars group => group.map VarDef.symbol
  | .function f => [f.symbol]

@[simp] lemma VarDef.name_symbol (d : VarDef) : d.symbol.name = d.name := by
  cases d <;> rfl

lemma Decl.names_eq_map (d : Decl) : d.names = d.symbols.map Symbol.name := by
  cases d with
  | vars group => simp [Decl.names, Decl.symbols, Function.comp_def]
  | function f => rfl

lemma flatMap_names_eq_map (list : List Decl) :
    list.flatMap Decl.names = (list.flatMap Decl.symbols).map Symbol.name := by
  rw [List.map_flatMap]
  exact congrArg (fun f => list.flatMap f) (funext Decl.names_eq_map)

/-- A symbol of an integer variable, argument or array. -/
def Symbol.IsData (s : Symbol) : Prop :=
  s = .var s.name .int ∨ s = .arg s.name .int ∨ ∃ size, s = .array s.name .int size

lemma VarDef.isData_symbol (d : VarDef) : d.symbol.IsData := by
  cases d with
  | scalar name => exact .inl rfl
  | array name size => exact .inr (.inr ⟨size, rfl⟩)

lemma FunctionDecl.isData_of_mem_innerSymbols {f : FunctionDecl} {s : Symbol}
    (h : s ∈ f.innerSymbols) : s.IsData := by
  rcases List.mem_append.1 h with h | h
  · obtain ⟨param, _, rfl⟩ := List.mem_map.1 h
    exact .inr (.inl rfl)
  · obtain ⟨d, _, rfl⟩ := List.mem_map.1 h
    exact d.isData_symbol

lemma FunctionDecl.names_innerSymbols (f : FunctionDecl) :
    f.innerSymbols.map Symbol.name = f.paramList ++ f.localList.map VarDef.name := by
  have hparams : (f.paramList.map fun param => Symbol.arg param .int).map Symbol.name =
      f.paramList := by
    rw [List.map_map]
    exact List.map_id _
  simp [FunctionDecl.innerSymbols, hparams, Function.comp_def]

lemma FunctionDecl.arg_mem_innerSymbols_iff {f : FunctionDecl} {name : String} :
    Symbol.arg name .int ∈ f.innerSymbols ↔ name ∈ f.paramList := by
  rw [FunctionDecl.innerSymbols, List.mem_append]
  constructor
  · rintro (h | h)
    · obtain ⟨param, hparam, heq⟩ := List.mem_map.1 h
      cases heq
      exact hparam
    · obtain ⟨d, _, heq⟩ := List.mem_map.1 h
      cases d <;> cases heq
  · intro h
    exact .inl (List.mem_map_of_mem h)

/-- Where the names of a function's scope are distinct, a symbol that is not an argument does not
have the name of a parameter. -/
lemma FunctionDecl.notMem_paramList {f : FunctionDecl} {symbol : Symbol}
    (hdistinct : (f.paramList ++ f.localList.map VarDef.name).Nodup)
    (h : symbol ∈ f.innerSymbols) (hkind : symbol.kind ≠ .arg) : symbol.name ∉ f.paramList := by
  intro hparam
  rcases List.mem_append.1 h with h | h
  · obtain ⟨param, _, rfl⟩ := List.mem_map.1 h
    exact hkind rfl
  · obtain ⟨d, hd, rfl⟩ := List.mem_map.1 h
    rw [d.name_symbol] at hparam
    exact (List.nodup_append.1 hdistinct).2.2 d.name hparam d.name (List.mem_map_of_mem hd) rfl

lemma mem_flatMap_symbols {list : List Decl} {s : Symbol} :
    s ∈ list.flatMap Decl.symbols ↔
      s ∈ (list.flatMap Decl.varDefs).map VarDef.symbol ∨
        s ∈ (list.flatMap Decl.functions).map FunctionDecl.symbol := by
  induction list with
  | nil => simp
  | cons d rest ih =>
    rw [List.flatMap_cons, List.mem_append, ih]
    cases d with
    | vars group =>
      simp only [Decl.symbols, List.flatMap_cons, Decl.varDefs, Decl.functions, List.map_append,
        List.mem_append, List.nil_append, or_assoc]
    | function f =>
      simp only [Decl.symbols, List.flatMap_cons, Decl.varDefs, Decl.functions, List.map_append,
        List.mem_append, List.nil_append, List.map_cons, List.map_nil]
      exact or_left_comm

/-! ## Look-ups in a scope without repeated names -/

/-- A scope without repeated names finds what was declared under a name. -/
lemma Scope.find?_reverse {list : List Symbol} (hnodup : (list.map Symbol.name).Nodup)
    {name : String} {s : Symbol} :
    Scope.find? list.reverse name = some s ↔ s ∈ list ∧ s.name = name := by
  have hnodup' : (list.reverse.map Symbol.name).Nodup := by
    rwa [List.map_reverse, List.nodup_reverse]
  rw [Scope.find?, List.find?_eq_some_iff_append, ← List.mem_reverse]
  constructor
  · rintro ⟨hname, before, after, hsplit, _⟩
    refine ⟨?_, by simpa using hname⟩
    rw [hsplit]
    exact List.mem_append_right before List.mem_cons_self
  · rintro ⟨hmem, hname⟩
    obtain ⟨before, after, hsplit⟩ := List.append_of_mem hmem
    refine ⟨by simpa using hname, before, after, hsplit, ?_⟩
    intro other hother
    rw [hsplit, List.map_append, List.map_cons] at hnodup'
    have hne : other.name ≠ s.name :=
      (List.nodup_append.1 hnodup').2.2 _ (List.mem_map_of_mem hother) _ List.mem_cons_self
    simpa [← hname] using hne

/-- A scope without repeated names finds nothing under a name that it does not declare. -/
lemma Scope.find?_reverse_eq_none {list : List Symbol} {name : String} :
    Scope.find? list.reverse name = none ↔ name ∉ list.map Symbol.name := by
  rw [Scope.find?, List.find?_eq_none]
  constructor
  · intro h hmem
    obtain ⟨s, hs, rfl⟩ := List.mem_map.1 hmem
    exact h s (List.mem_reverse.2 hs) (by simp)
  · intro h s hs hname
    have hs' := List.mem_map_of_mem (f := Symbol.name) (List.mem_reverse.1 hs)
    rw [show s.name = name by simpa using hname] at hs'
    exact h hs'

/-! ## Look-ups in a table -/

namespace SymbolTable

variable {table : SymbolTable} {name : String} {s : Symbol}

lemma scalar?_eq_some_iff :
    table.scalar? name = some s ↔
      table.findLocal? name = some s ∧ (s.kind = .var ∨ s.kind = .arg) := by
  rw [scalar?, resolve]
  cases hfind : table.findLocal? name with
  | none => simp
  | some found =>
    constructor
    · intro h
      cases found <;> cases h
      · exact ⟨rfl, .inl rfl⟩
      · exact ⟨rfl, .inr rfl⟩
    · rintro ⟨h, hkind⟩
      cases h
      rcases hkind with hkind | hkind <;> simp [hkind]

lemma array?_eq_some_iff {ty : Ty} :
    table.array? name = some (s, ty) ↔
      table.findLocal? name = some s ∧ ∃ found size, s = .array found ty size := by
  rw [array?, resolve]
  cases hfind : table.findLocal? name with
  | none => simp
  | some found =>
    cases found with
    | array arrayName arrayTy size =>
      constructor
      · intro h
        cases h
        exact ⟨rfl, arrayName, size, rfl⟩
      · rintro ⟨h, _, _, rfl⟩
        cases h
        rfl
    | _ =>
      constructor
      · intro h
        cases h
      · rintro ⟨h, _, _, rfl⟩
        cases h

lemma hasFunction_iff {arity : Nat} :
    table.hasFunction name arity = true ↔ table.find? name = some (.function name arity) := by
  rw [hasFunction, resolve]
  cases hfind : table.find? name with
  | none => simp
  | some found =>
    have hname := name_of_find? hfind
    cases found with
    | function found params =>
      obtain rfl : found = name := hname
      simp [Symbol.kind]
    | _ => simp [Symbol.kind]

end SymbolTable

/-! ## Places -/

section Innermost

variable {list : List Symbol} {outer : List Scope} {name : String} {s : Symbol}
  (hnodup : (list.map Symbol.name).Nodup) (hdata : ∀ s ∈ list, s.kind ≠ .function → s.IsData)

include hnodup hdata

/-- The variables and arguments that a table finds are those of its innermost scope. -/
lemma scalar?_innermost :
    SymbolTable.scalar? ⟨list.reverse :: outer⟩ name = some s ↔
      s ∈ list ∧ (s = .var name .int ∨ s = .arg name .int) := by
  rw [SymbolTable.scalar?_eq_some_iff]
  show Scope.find? list.reverse name = some s ∧ _ ↔ _
  rw [Scope.find?_reverse hnodup]
  constructor
  · rintro ⟨⟨hmem, rfl⟩, hkind⟩
    have hfunction : s.kind ≠ .function := by
      rcases hkind with hkind | hkind <;> simp [hkind]
    refine ⟨hmem, ?_⟩
    rcases hdata s hmem hfunction with h | h | ⟨size, h⟩
    · exact .inl h
    · exact .inr h
    · rw [h] at hkind
      rcases hkind with hkind | hkind <;> cases hkind
  · rintro ⟨hmem, rfl | rfl⟩
    · exact ⟨⟨hmem, rfl⟩, .inl rfl⟩
    · exact ⟨⟨hmem, rfl⟩, .inr rfl⟩

/-- The arrays that a table finds are those of its innermost scope. -/
lemma array?_innermost {ty : Ty} :
    SymbolTable.array? ⟨list.reverse :: outer⟩ name = some (s, ty) ↔
      (s ∈ list ∧ ∃ size, s = .array name .int size) ∧ ty = .int := by
  rw [SymbolTable.array?_eq_some_iff]
  show Scope.find? list.reverse name = some s ∧ _ ↔ _
  rw [Scope.find?_reverse hnodup]
  constructor
  · rintro ⟨⟨hmem, rfl⟩, found, size, rfl⟩
    rcases hdata _ hmem nofun with h | h | ⟨size', h⟩
    · cases h
    · cases h
    · cases h
      exact ⟨⟨hmem, size, rfl⟩, rfl⟩
  · rintro ⟨⟨hmem, size, rfl⟩, rfl⟩
    exact ⟨⟨hmem, rfl⟩, name, size, rfl⟩

end Innermost

lemma function_mem_flatMap_symbols {list : List Decl} {name : String} {arity : Nat} :
    .function name arity ∈ list.flatMap Decl.symbols ↔
      ∃ g ∈ list.flatMap Decl.functions, g.name = name ∧ g.paramList.length = arity := by
  rw [mem_flatMap_symbols]
  constructor
  · rintro (h | h)
    · obtain ⟨d, _, hd⟩ := List.mem_map.1 h
      cases d <;> cases hd
    · obtain ⟨g, hg, hsymbol⟩ := List.mem_map.1 h
      cases hsymbol
      exact ⟨g, hg, rfl, rfl⟩
  · rintro ⟨g, hg, rfl, rfl⟩
    exact .inr (List.mem_map.2 ⟨g, hg, rfl⟩)

lemma data_mem_flatMap_symbols {list : List Decl} {s : Symbol} (hs : s.kind ≠ .function) :
    s ∈ list.flatMap Decl.symbols ↔ s ∈ (list.flatMap Decl.varDefs).map VarDef.symbol := by
  rw [mem_flatMap_symbols]
  constructor
  · rintro (h | h)
    · exact h
    · obtain ⟨g, _, rfl⟩ := List.mem_map.1 h
      exact absurd rfl hs
  · exact .inl

lemma isData_of_mem_flatMap_symbols {list : List Decl} {s : Symbol}
    (hmem : s ∈ list.flatMap Decl.symbols) (hs : s.kind ≠ .function) : s.IsData := by
  obtain ⟨d, _, rfl⟩ := List.mem_map.1 ((data_mem_flatMap_symbols hs).1 hmem)
  exact d.isData_symbol

/-- Where the names of some declarations are distinct, no variable has the name of a function. -/
lemma notMem_varDefs_of_function {list : List Decl} (hnodup : (list.flatMap Decl.names).Nodup)
    {g : FunctionDecl} (hg : g ∈ list.flatMap Decl.functions) :
    g.name ∉ (list.flatMap Decl.varDefs).map VarDef.name := by
  rw [flatMap_names_eq_map] at hnodup
  intro hvar
  obtain ⟨d, hd, hname⟩ := List.mem_map.1 hvar
  have hdmem : d.symbol ∈ list.flatMap Decl.symbols :=
    mem_flatMap_symbols.2 (.inl (List.mem_map_of_mem hd))
  have hgmem : g.symbol ∈ list.flatMap Decl.symbols :=
    mem_flatMap_symbols.2 (.inr (List.mem_map_of_mem hg))
  have hsame : d.symbol = g.symbol :=
    List.inj_on_of_nodup_map hnodup hdmem hgmem (by rw [VarDef.name_symbol, hname]; rfl)
  cases d <;> cases hsame

/-- **The place inside a function.**  With the symbols of the function in the innermost scope and
those of the program so far around it, look-ups are those of the function's place. -/
lemma shows_functionEnv {f : FunctionDecl} {before : List Decl}
    (houter : ((before ++ [Decl.function f]).flatMap Decl.names).Nodup)
    (hinner : (f.paramList ++ f.localList.map VarDef.name).Nodup) :
    SymbolTable.Shows
      ⟨[f.innerSymbols.reverse, ((before ++ [Decl.function f]).flatMap Decl.symbols).reverse]⟩
      (f.env before) := by
  have hinner' : (f.innerSymbols.map Symbol.name).Nodup := by rwa [f.names_innerSymbols]
  have hdata : ∀ s ∈ f.innerSymbols, s.kind ≠ .function → s.IsData :=
    fun s hs _ => FunctionDecl.isData_of_mem_innerSymbols hs
  have hfunctions : (before ++ [Decl.function f]).flatMap Decl.functions =
      before.flatMap Decl.functions ++ [f] := by
    rw [List.flatMap_append]
    rfl
  refine ⟨?_, ?_, ?_⟩
  · intro name symbol
    exact scalar?_innermost hinner' hdata
  · rintro name ⟨symbol, ty⟩
    exact array?_innermost hinner' hdata
  · intro name arity
    have houter' := houter
    rw [flatMap_names_eq_map] at houter'
    rw [SymbolTable.hasFunction_iff, SymbolTable.find?_eq_findLocal?_or, Option.or_eq_some_iff]
    show (Scope.find? f.innerSymbols.reverse name = _ ∨
      Scope.find? f.innerSymbols.reverse name = none ∧ SymbolTable.find? ⟨[_]⟩ name = _) ↔ _
    rw [Scope.find?_reverse hinner', Scope.find?_reverse_eq_none, f.names_innerSymbols,
      SymbolTable.find?, List.findSome?_singleton, Scope.find?_reverse houter',
      function_mem_flatMap_symbols, hfunctions]
    constructor
    · rintro (⟨hmem, _⟩ | ⟨hfree, hcall, _⟩)
      · rcases FunctionDecl.isData_of_mem_innerSymbols hmem with h | h | ⟨_, h⟩ <;> cases h
      · obtain ⟨g, hg, hname, _⟩ := id hcall
        refine ⟨hcall, fun h => hfree (List.mem_append_left _ h),
          fun h => hfree (List.mem_append_right _ h), ?_⟩
        have hvar := notMem_varDefs_of_function houter (hfunctions ▸ hg)
        rw [hname, List.flatMap_append, List.map_append] at hvar
        exact fun h => hvar (List.mem_append_left _ h)
    · rintro ⟨hcall, hparam, hlocal, _⟩
      refine .inr ⟨?_, hcall, rfl⟩
      rw [List.mem_append]
      rintro (h | h)
      · exact hparam h
      · exact hlocal h

/-- **The place of the program's body.**  With all declared symbols in the only scope, look-ups are
those of the program's place. -/
lemma shows_programEnv {p : Program} (hnodup : (p.declarationList.flatMap Decl.names).Nodup) :
    SymbolTable.Shows ⟨[(p.declarationList.flatMap Decl.symbols).reverse]⟩ p.env := by
  have hnodup' := hnodup
  rw [flatMap_names_eq_map] at hnodup'
  have hdata : ∀ s ∈ p.declarationList.flatMap Decl.symbols, s.kind ≠ .function → s.IsData :=
    fun s => isData_of_mem_flatMap_symbols
  have hown : ∀ s : Symbol, s.kind ≠ .function →
      (s ∈ p.declarationList.flatMap Decl.symbols ↔ p.env.own s) := by
    intro s hs
    rw [data_mem_flatMap_symbols hs, ← p.varDefs_eq]
    rfl
  refine ⟨?_, ?_, ?_⟩
  · intro name symbol
    rw [scalar?_innermost hnodup' hdata, Env.IsScalar]
    constructor
    · rintro ⟨hmem, rfl | rfl⟩
      · exact ⟨(hown (.var name .int) nofun).1 hmem, .inl rfl⟩
      · exact ⟨(hown (.arg name .int) nofun).1 hmem, .inr rfl⟩
    · rintro ⟨hmem, rfl | rfl⟩
      · exact ⟨(hown (.var name .int) nofun).2 hmem, .inl rfl⟩
      · exact ⟨(hown (.arg name .int) nofun).2 hmem, .inr rfl⟩
  · rintro name ⟨symbol, ty⟩
    rw [array?_innermost hnodup' hdata, Env.IsArray]
    constructor
    · rintro ⟨⟨hmem, size, rfl⟩, rfl⟩
      exact ⟨⟨(hown (.array name .int size) nofun).1 hmem, size, rfl⟩, rfl⟩
    · rintro ⟨⟨hmem, size, rfl⟩, rfl⟩
      exact ⟨⟨(hown (.array name .int size) nofun).2 hmem, size, rfl⟩, rfl⟩
  · intro name arity
    rw [SymbolTable.hasFunction_iff, SymbolTable.find?, List.findSome?_singleton,
      Scope.find?_reverse hnodup', function_mem_flatMap_symbols, ← p.functions_eq]
    constructor
    · rintro ⟨⟨g, hg, rfl, harity⟩, _⟩
      refine ⟨⟨g, hg, rfl, harity⟩, ?_⟩
      rw [p.varDefs_eq]
      exact notMem_varDefs_of_function hnodup (p.functions_eq ▸ hg)
    · rintro ⟨hcall, _⟩
      exact ⟨hcall, rfl⟩

end DLang
