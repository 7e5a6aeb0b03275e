import DLang.Proofs.Grammar.Identifiers
import DLang.Proofs.Module.ControlFlow
import DLang.Proofs.Module.Operands
import DLang.Proofs.Static.Analysis

/-!
# The registers of a module

A function defines its parameters, its slots, its temporaries and its labels.  Their names are
distinct for three reasons: analysis has checked that the parameters and the variables are distinct;
lowering counts temporaries and labels, over the whole module; and identifiers have no dot in them,
while the names of temporaries and labels have one.

So a name stands for one register, with one type.  The main results are `compileSource_registers`,
about how registers are defined and where they are used, and `Program.generate_typed`, about the
types at which they are.
-/

namespace DLang

open IR (definitions labels Available Supplied)

/-! ## Definitions -/

lemma definitions_slots (slots : List VarDef) :
    definitions (instrLines (slots.flatMap VarDef.lower)) =
      slots.map fun d => (.named d.name, d.slotType) := by
  induction slots with
  | nil => rfl
  | cons d rest ih =>
    rw [List.flatMap_cons, instrLines, List.map_append, IR.definitions_append, List.map_cons, ← ih]
    cases d <;> rfl

lemma definitions_functionLines (slots : List VarDef) (body : List IR.Line) (finalReturn : Bool) :
    definitions (functionLines slots body finalReturn) =
      slots.map (fun d => (.named d.name, d.slotType)) ++ definitions body := by
  have hlast : definitions (if finalReturn then [.instr (.ret (.constant 0))] else []) = [] := by
    cases finalReturn <;> rfl
  rw [functionLines, IR.definitions_append, hlast, List.append_nil, IR.definitions_append,
    IR.definitions_append, definitions_slots]
  rfl

/-- The registers of a function: its own names, then the temporaries in the order of their
numbers. -/
lemma FunctionDecl.registers_of_lower {f : FunctionDecl} {finalReturn : Bool} {c c' : Counters}
    {g : IR.Function} (h : f.lower finalReturn c = .ok (g, c')) :
    ∃ count, c'.temporaries = c.temporaries + count ∧
      g.registers.map Prod.fst = f.innerNames.map IR.Register.named ++
        (List.range' (c.temporaries + 1) count).map IR.Register.temporary := by
  obtain ⟨l, hl, rfl, rfl⟩ := FunctionDecl.lower_inv h
  obtain ⟨count, hcount, hnumbered⟩ := Stmt.numbered_lowerAll (fun s _ => s.numbered_lower) c l hl
  refine ⟨count, hcount, ?_⟩
  rw [IR.Function.registers, definitions_functionLines, List.map_append, List.map_append, hnumbered,
    FunctionDecl.innerNames, List.map_append, List.append_assoc]
  simp [Function.comp_def]

/-! ## Names -/

lemma nodup_text_named {names : List String} (h : names.Nodup) :
    (names.map fun name => (IR.Register.named name).text).Nodup :=
  h.map fun _ _ heq => IR.Register.text_named_inj.1 heq

lemma nodup_text_temporary (start count : Nat) :
    ((List.range' start count).map fun k => (IR.Register.temporary k).text).Nodup :=
  (List.nodup_range' 1).map fun _ _ heq => IR.Register.text_temporary_inj.1 heq

/-- The names that a function defines are distinct if those of its own are, and have no dots. -/
lemma FunctionDecl.nodup_names_of_lower {f : FunctionDecl} {finalReturn : Bool} {c c' : Counters}
    {g : IR.Function} (hdistinct : f.innerNames.Nodup)
    (hdots : ∀ name ∈ f.innerNames, '.' ∉ name.toList)
    (h : f.lower finalReturn c = .ok (g, c')) : g.names.Nodup := by
  obtain ⟨count, _, hregisters⟩ := FunctionDecl.registers_of_lower h
  have htexts : g.registers.map (fun definition => definition.1.text) =
      f.innerNames.map (fun name => (IR.Register.named name).text) ++
        (List.range' (c.temporaries + 1) count).map fun k => (IR.Register.temporary k).text := by
    have hmap := congrArg (List.map IR.Register.text) hregisters
    simpa [Function.comp_def] using hmap
  obtain ⟨l, hl, _, rfl⟩ := FunctionDecl.lower_inv h
  have hbody := (Stmt.branches_lowerAll (fun s _ => s.branches_lower) c l hl).branching
  have hlabels : ((labels (functionLines f.localList l.code finalReturn)).map
      IR.Label.name).Nodup := by
    rw [labels_functionLines]
    have hnames := (nodup_text_of_nodup_number hbody.nodup_numbers).map
      fun _ _ heq => (String.append_right_inj "%").1 heq
    rwa [List.map_map] at hnames
  rw [IR.Function.names, htexts, List.nodup_append, List.nodup_append]
  refine ⟨⟨nodup_text_named hdistinct, nodup_text_temporary _ _, ?_⟩, hlabels, ?_⟩
  · intro s hs s' hs'
    obtain ⟨name, hname, rfl⟩ := List.mem_map.1 hs
    obtain ⟨k, _, rfl⟩ := List.mem_map.1 hs'
    exact IR.Register.text_named_ne_temporary (hdots name hname) k
  · intro s hs s' hs'
    obtain ⟨label, _, rfl⟩ := List.mem_map.1 hs'
    rcases List.mem_append.1 hs with hs | hs
    · obtain ⟨name, hname, rfl⟩ := List.mem_map.1 hs
      exact IR.Register.text_named_ne_label (hdots name hname) label
    · obtain ⟨k, _, rfl⟩ := List.mem_map.1 hs
      exact IR.Register.text_temporary_ne_label k label

/-! ## Temporaries of a module -/

/-- Whether a name is written as those of temporaries are. -/
def isTemporaryName (name : String) : Bool :=
  "%tmp.".toList.isPrefixOf name.toList

/-- The names among those that functions define that are written as temporaries, in the order of the
lines. -/
def temporaryNames (functions : List IR.Function) : List String :=
  (functions.flatMap fun g => g.registers.map fun definition => definition.1.text).filter
    isTemporaryName

lemma isTemporaryName_temporary (k : Nat) :
    isTemporaryName (IR.Register.temporary k).text = true := by
  simp [isTemporaryName, IR.Register.text]

lemma isTemporaryName_named {name : String} (h : '.' ∉ name.toList) :
    isTemporaryName (IR.Register.named name).text = false := by
  rw [Bool.eq_false_iff]
  intro htemporary
  obtain ⟨rest, hrest⟩ := List.isPrefixOf_iff_prefix.1 htemporary
  apply h
  have hlist : "tmp.".toList ++ rest = name.toList := by
    simpa [IR.Register.text] using hrest
  simp [← hlist]

lemma FunctionDecl.temporaryNames_of_lower {f : FunctionDecl} {finalReturn : Bool}
    {c c' : Counters} {g : IR.Function} (hdots : ∀ name ∈ f.innerNames, '.' ∉ name.toList)
    (h : f.lower finalReturn c = .ok (g, c')) :
    ∃ count, c'.temporaries = c.temporaries + count ∧
      temporaryNames [g] =
        (List.range' (c.temporaries + 1) count).map fun k => (IR.Register.temporary k).text := by
  obtain ⟨count, hcount, hregisters⟩ := FunctionDecl.registers_of_lower h
  refine ⟨count, hcount, ?_⟩
  have htexts := congrArg (List.map IR.Register.text) hregisters
  rw [List.map_map, List.map_append, List.map_map, List.map_map] at htexts
  rw [temporaryNames, List.flatMap_singleton]
  refine (congrArg (List.filter isTemporaryName) htexts).trans ?_
  rw [List.filter_append, List.filter_eq_nil_iff.2, List.nil_append, List.filter_eq_self.2]
  · rfl
  · intro s hs
    obtain ⟨k, _, rfl⟩ := List.mem_map.1 hs
    exact isTemporaryName_temporary k
  · intro s hs
    obtain ⟨name, hname, rfl⟩ := List.mem_map.1 hs
    simpa using isTemporaryName_named (hdots name hname)

/-- The temporaries of a module are numbered in the order of its lines, without a gap. -/
lemma LowersTo.temporaryNames_eq {units : List (FunctionDecl × Bool)} {c c' : Counters}
    {list : List IR.Function} (h : LowersTo units c list c')
    (hdots : ∀ unit ∈ units, ∀ name ∈ unit.1.innerNames, '.' ∉ name.toList) :
    ∃ count, c'.temporaries = c.temporaries + count ∧
      temporaryNames list =
        (List.range' (c.temporaries + 1) count).map fun k => (IR.Register.temporary k).text := by
  induction h with
  | nil => exact ⟨0, rfl, rfl⟩
  | @cons f finalReturn units c c₁ c₂ g list hf _ ih =>
    obtain ⟨m, hm, hfirst⟩ := FunctionDecl.temporaryNames_of_lower (hdots _ List.mem_cons_self) hf
    obtain ⟨n, hn, hrest⟩ := ih fun unit hunit => hdots unit (List.mem_cons_of_mem _ hunit)
    have hsplit : temporaryNames (g :: list) = temporaryNames [g] ++ temporaryNames list := by
      simp [temporaryNames]
    have hstart : c₁.temporaries + 1 = c.temporaries + 1 + m := by omega
    refine ⟨m + n, by omega, ?_⟩
    rw [hsplit, hfirst, hrest, hstart, ← List.map_append, List.range'_append_1]

/-! ## Programs -/

section Programs

variable {p : Program} {finalReturn : Bool} {unit : FunctionDecl × Bool}

lemma Program.nodup_innerNames (hwell : p.WellFormed) (h : unit ∈ p.units finalReturn) :
    unit.1.innerNames.Nodup := by
  rcases List.mem_append.1 h with h | h
  · obtain ⟨f, hf, rfl⟩ := List.mem_map.1 h
    obtain ⟨before, after, hsplit⟩ := p.mem_functions_iff.1 hf
    exact (hwell.functions before f after hsplit).distinct
  · cases List.mem_singleton.1 h
    exact Program.nodup_names_varDefs hwell.distinct

lemma Program.innerNames_subset (h : unit ∈ p.units finalReturn) :
    unit.1.innerNames ⊆ p.declaredNames := by
  rcases List.mem_append.1 h with h | h
  · obtain ⟨f, hf, rfl⟩ := List.mem_map.1 h
    exact Program.innerNames_subset_declaredNames hf
  · cases List.mem_singleton.1 h
    exact p.names_varDefs_subset_declaredNames

/-- The names in the scopes of a program have no dots if its declared names are identifiers, and no
annotations change that. -/
lemma Program.dot_notMem_innerNames {annotated : Program} (hbare : annotated.bare = p.bare)
    (hnames : ∀ name ∈ p.declaredNames, isIdentifier name = true)
    (h : unit ∈ annotated.units finalReturn) :
    ∀ name ∈ unit.1.innerNames, '.' ∉ name.toList := by
  intro name hname
  have hdeclared : annotated.declaredNames = p.declaredNames := by
    rw [← annotated.declaredNames_bare, hbare, p.declaredNames_bare]
  have hmem := Program.innerNames_subset h hname
  rw [hdeclared] at hmem
  exact dot_notMem_of_isIdentifier (hnames name hmem)

/-- All names of a function of the module are distinct. -/
lemma Program.nodup_names_of_lower {annotated : Program} {m : IR.Module} {counters : Counters}
    (hbare : annotated.bare = p.bare) (hwell : annotated.WellFormed)
    (hnames : ∀ name ∈ p.declaredNames, isIdentifier name = true)
    (h : (annotated.lower finalReturn).result = .ok (m, counters)) {g : IR.Function}
    (hg : g ∈ m.functions) : g.names.Nodup := by
  obtain ⟨f, _, c, c', hunit, hf⟩ := (Program.lowersTo h).exists_of_mem hg
  exact FunctionDecl.nodup_names_of_lower (Program.nodup_innerNames hwell hunit)
    (Program.dot_notMem_innerNames hbare hnames hunit) hf

end Programs

/-- **The registers of a module are defined once and used where they are known.**  If a source text
compiles, then in each function of the module all names are distinct: those of the parameters, the
slots, the temporaries and the labels.  The temporaries of the whole module are numbered from one in
the order in which they are defined.  And every register that an instruction uses is a parameter, a
slot that was reserved in the entry block, or a temporary that was defined since the last end or
beginning of a block. -/
theorem compileSource_registers {options : Options} {source text : String}
    (h : (compileSource options source).result = .ok text) :
    ∃ p illegals annotated m counters, (parseSource source).result = .ok (p, illegals) ∧
      p.analyze.result = .ok annotated ∧
      (annotated.lower options.finalReturn).result = .ok (m, counters) ∧
      text = m.text options.pointers ∧ m.HasText options.pointers text ∧
      (∀ g ∈ m.functions, g.names.Nodup) ∧
      temporaryNames m.functions =
        (List.range' 1 counters.temporaries).map (fun k => (IR.Register.temporary k).text) ∧
      ∀ g ∈ m.functions, ∀ before i after, g.lines = before ++ .instr i :: after →
        ∀ r ty, (.register r, ty) ∈ i.operands → Available g.params before r ty := by
  obtain ⟨p, illegals, annotated, m, counters, hparse, hanalyze, hlower, htext⟩ :=
    exists_of_compileSource h
  obtain ⟨hbare, hwell, hann⟩ := Analyzer.of_result_eq_ok hanalyze
  have hnames := isIdentifier_of_parseSource hparse
  refine ⟨p, illegals, annotated, m, counters, hparse, hanalyze, hlower, htext,
    IR.Module.hasText_iff.2 htext, ?_, ?_, ?_⟩
  · exact fun g hg => Program.nodup_names_of_lower hbare hwell hnames hlower hg
  · obtain ⟨count, hcount, htemporaries⟩ := (Program.lowersTo hlower).temporaryNames_eq
      fun unit hunit => Program.dot_notMem_innerNames hbare hnames hunit
    have hall : counters.temporaries = count := hcount.trans (Nat.zero_add count)
    rw [hall]
    exact htemporaries
  · intro g hg before i after hlines r ty hr
    have husable := Program.supplied_of_lower hann hlower hg before i after hlines _ ty hr
    cases husable with
    | register havailable => exact havailable

/-- Calls a function whose parameter has the name of a variable, and uses the words of which labels
and temporaries are made as names. -/
def entrySource : String :=
  "tmp(entry); int end; \x7b end = entry; while (end > 0) \x7b end = end - 1 \x7d; " ++
    "return end + entry \x7d int entry, if1, a[2]; \x7b read(entry); " ++
    "if (entry < 2) \x7b a[entry] = tmp(tmp(entry)) \x7d; print(a[0] * if1) \x7d"

/-- Names cannot be chosen so that they clash with labels or temporaries. -/
theorem compileSource_registers_entry :
    ∃ text m count, (compileSource { pointers := .untyped, finalReturn := false }
        entrySource).result = .ok text ∧ text = IR.Module.text .untyped m ∧
      m.HasText .untyped text ∧
      (∀ g ∈ m.functions, g.names.Nodup) ∧
      temporaryNames m.functions =
        (List.range' 1 count).map (fun k => (IR.Register.temporary k).text) ∧
      ∀ g ∈ m.functions, ∀ before i after, g.lines = before ++ .instr i :: after →
        ∀ r ty, (.register r, ty) ∈ i.operands → Available g.params before r ty := by
  have hcompiles : (compileSource { pointers := .untyped, finalReturn := false }
      entrySource).result.toOption.isSome := by decide +kernel
  obtain ⟨text, hsome⟩ := Option.isSome_iff_exists.1 hcompiles
  have htext := eq_ok_of_toOption_eq_some hsome
  obtain ⟨_, _, _, m, counters, _, _, _, hmodule, hregisters⟩ := compileSource_registers htext
  exact ⟨text, m, counters.temporaries, htext, hmodule, hregisters⟩

/-! ## Types -/

lemma IR.mem_definitions {lines : List IR.Line} {i : IR.Instr} {r : IR.Register} {ty : IR.ValueType}
    (hi : .instr i ∈ lines) (h : i.definition? = some (r, ty)) : (r, ty) ∈ definitions lines :=
  List.mem_filterMap.2 ⟨.instr i, hi, h⟩

/-- An available register is one of the function's registers. -/
lemma IR.Available.mem_registers {g : IR.Function} {before after : List IR.Line}
    {r : IR.Register} {ty : IR.ValueType} (hlines : g.lines = before ++ after)
    (h : Available g.params before r ty) : (r, ty) ∈ g.registers := by
  cases h with
  | param hname => exact List.mem_append_left _ (List.mem_map.2 ⟨_, hname, rfl⟩)
  | slot hbefore _ _ hdefines =>
    refine List.mem_append_right _ (IR.mem_definitions ?_ hdefines)
    simp [hlines, hbefore]
  | temporary hbefore _ hdefines =>
    refine List.mem_append_right _ (IR.mem_definitions ?_ hdefines)
    simp [hlines, hbefore]

/-- Every operand of a function is used at the type at which it is defined. -/
structure IR.Function.WellTyped (style : PointerStyle) (g : IR.Function) : Prop where
  /-- No two registers have one name, so that a name has one type. -/
  distinct : (g.registers.map fun definition => definition.1.text).Nodup
  /-- A register that is used is defined at that type. -/
  register : ∀ i, .instr i ∈ g.lines → ∀ r ty, (.register r, ty) ∈ i.operands →
    (r, ty) ∈ g.registers
  /-- A constant is used as an integer. -/
  constant : ∀ i, .instr i ∈ g.lines → ∀ value ty, (.constant value, ty) ∈ i.operands →
    ty = .scalar .int
  /-- The type at which an operand is used is the one that the text writes for it. -/
  written : ∀ i, .instr i ∈ g.lines → ∀ x ty, (x, ty) ∈ i.operands → i.Writes style x ty

lemma IR.Function.wellTyped_of_supplied {g : IR.Function} (style : PointerStyle)
    (hdistinct : g.names.Nodup) (h : Supplied g.params [] g.lines) : g.WellTyped style := by
  refine ⟨(List.nodup_append.1 hdistinct).1, ?_, ?_,
    fun i _ x ty hx => i.writes_of_mem_operands style hx⟩
  · intro i hi r ty hr
    obtain ⟨before, after, hlines⟩ := List.append_of_mem hi
    have husable := h before i after hlines _ ty hr
    cases husable with
    | register havailable => exact havailable.mem_registers hlines
  · intro i hi value ty hvalue
    obtain ⟨before, after, hlines⟩ := List.append_of_mem hi
    have husable := h before i after hlines _ ty hvalue
    cases husable with
    | constant => rfl

/-- **A module is well typed.**  If analysis accepts a tree whose declared names are identifiers,
and a module can be generated from the tree it returns, then every function of the module uses every
operand at the type at which the function defines it, and this is the type that the text writes. -/
theorem Program.generate_typed {p annotated : Program} {options : Options} {text : String}
    (hnames : ∀ name ∈ p.declaredNames, isIdentifier name = true)
    (hanalyze : p.analyze.result = .ok annotated)
    (h : (annotated.generate options).result = .ok text) :
    ∃ m counters, (annotated.lower options.finalReturn).result = .ok (m, counters) ∧
      text = m.text options.pointers ∧ m.HasText options.pointers text ∧
      ∀ g ∈ m.functions, g.WellTyped options.pointers := by
  obtain ⟨m, counters, hlower, htext⟩ := Program.exists_of_generate h
  obtain ⟨hbare, hwell, hann⟩ := Analyzer.of_result_eq_ok hanalyze
  refine ⟨m, counters, hlower, htext, IR.Module.hasText_iff.2 htext, fun g hg => ?_⟩
  exact IR.Function.wellTyped_of_supplied options.pointers
    (Program.nodup_names_of_lower hbare hwell hnames hlower hg)
    (Program.supplied_of_lower hann hlower hg)

/-- A tree with comparisons as values: one is returned, one is an argument, and one is compared with
an integer. -/
def comparisonValues : Program where
  declarations := some
    [.function { name := "f", params := some ["n"], locals := none
                 body := [.ret (.compare .less (.compare .equal (.var "n" none none)
                   (.integer 1 none) none) (.var "n" none none) none)] },
     .vars [.scalar "x", .array "a" 3]]
  body :=
    [.print (.call "f" (some [.compare .less (.var "x" none none)
      (.element "a" (.integer 0 none) none none) none]) none)]

/-- Comparisons as values are used as the truth values that they are. -/
theorem generate_typed_comparisonValues :
    (∀ name ∈ comparisonValues.declaredNames, isIdentifier name = true) ∧
      ∃ annotated text m, comparisonValues.analyze.result = .ok annotated ∧
        (annotated.generate { pointers := .typed, finalReturn := true }).result = .ok text ∧
        text = IR.Module.text .typed m ∧ m.HasText .typed text ∧
        ∀ g ∈ m.functions, g.WellTyped .typed := by
  have hnames : ∀ name ∈ comparisonValues.declaredNames, isIdentifier name = true := by decide
  have hgenerates : (comparisonValues.analyze.result.toOption.bind fun annotated =>
      (annotated.generate { pointers := .typed, finalReturn := true }).result.toOption).isSome := by
    decide +kernel
  obtain ⟨text, hsome⟩ := Option.isSome_iff_exists.1 hgenerates
  obtain ⟨annotated, hannotated, hgenerated⟩ := Option.bind_eq_some_iff.1 hsome
  have hanalyze := eq_ok_of_toOption_eq_some hannotated
  have htext := eq_ok_of_toOption_eq_some hgenerated
  obtain ⟨m, _, _, hmodule, htyped⟩ := Program.generate_typed hnames hanalyze htext
  exact ⟨hnames, annotated, text, m, hanalyze, htext, hmodule, htyped⟩

end DLang
