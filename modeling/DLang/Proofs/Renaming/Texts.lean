import DLang.Proofs.Grammar.Identifiers
import DLang.Proofs.Lowering.Acceptance
import DLang.Proofs.Module.Names
import DLang.Proofs.Renaming.Code
import Mathlib.Logic.Equiv.Basic

/-!
# Compilation commutes with renamings

To rename a program and compile it is to compile it and rename the result
(`Program.compile_rename`).  A program is accepted if and only if it is accepted under other names;
its error is then about the other name; and its text has the other names where the names were, and
is the same everywhere else.

In a text a name stands after a percent sign or an at sign.  Names with a dot in them are those that
lowering makes up, and no name of a program has one.  `renameLine` replaces what stands after such a
sign and has no dot; it knows nothing of modules.  A renaming is a respelling
(`Renaming.respelling`), which is why it finds the names of a module there and nothing else.
-/

namespace DLang

/-! ## Renaming in a text -/

/-- A name under another name, unless it has a dot. -/
def Renaming.word (r : Renaming) (name : List Char) : List Char :=
  if '.' ∈ name then name else (r (String.ofList name)).toList

/-- A line with other names. -/
def renameLine (r : Renaming) (line : String) : String :=
  String.ofList (replaceNames r.word 0 line.toList)

/-- The text of a module with other names.  The first three lines, which every module has, stay. -/
def renameText (r : Renaming) (text : String) : String :=
  "\n".intercalate ((Text.lines text).take 3 ++ ((Text.lines text).drop 3).map (renameLine r))

/-- An identifier is replaced by the other name for it. -/
lemma word_of_isIdentifier (r : Renaming) {name : String} (h : isIdentifier name = true) :
    r.word name.toList = (r name).toList := by
  rw [Renaming.word, if_neg (dot_notMem_of_isIdentifier h), String.ofList_toList]

/-- A name that lowering makes up stays. -/
lemma word_of_dot (r : Renaming) {w : List Char} (h : '.' ∈ w) : r.word w = w := by
  rw [Renaming.word, if_pos h]

/-- No line has a name of the program at its head. -/
lemma renameLine_eq (r : Renaming) (line : String) :
    renameLine r line = replaceLine r.word line := by
  have hnameless : IR.Nameless (line.toList.takeWhile isNameChar) :=
    IR.nameless_of_isNameChar (List.all_eq_true.1 List.all_takeWhile)
  have hhead : (if '.' ∈ line.toList.takeWhile isNameChar then
      r.word (line.toList.takeWhile isNameChar) else line.toList.takeWhile isNameChar) =
      line.toList.takeWhile isNameChar :=
    ite_eq_right_iff.2 fun h => word_of_dot r h
  rw [renameLine, replaceLine, hhead, ← IR.replaceNames_of_nameless hnameless,
    List.takeWhile_append_dropWhile]

/-- A renaming writes the names of the program anew, and keeps temporaries and labels. -/
def Renaming.respelling (r : Renaming) : IR.Respelling where
  onName := r
  onTemporary := id
  onLabel := id
  word := r.word
  word_name _ h := word_of_isIdentifier r h
  word_temporary n := by
    have hdot : '.' ∈ "tmp.".toList := by decide
    rw [String.toList_append, word_of_dot r (List.mem_append_left _ hdot), ← String.toList_append]
    rfl
  word_label l := word_of_dot r (IR.dot_mem_label l)
  word_format := word_of_dot r (by decide)
  onName_reserved _ h := r.apply_of_mem_reservedNames h

namespace IR

variable (r : Renaming)

/-! ## Renamed modules -/

lemma Register.rename_eq_subst (reg : Register) :
    reg.rename r = reg.subst r.respelling.toSubstitution := by
  cases reg <;> rfl

lemma Operand.rename_eq_subst (x : Operand) :
    x.rename r = x.subst r.respelling.toSubstitution := by
  cases x with
  | constant value => rfl
  | register reg => exact congrArg Operand.register (reg.rename_eq_subst r)

lemma Instr.rename_eq_subst (i : Instr) : i.rename r = i.subst r.respelling.toSubstitution := by
  have hargs (args : List Operand) :
      args.map (Operand.rename r) = args.map (Operand.subst r.respelling.toSubstitution) :=
    List.map_congr_left fun x _ => x.rename_eq_subst r
  cases i <;>
    simp only [Instr.rename, Instr.subst, Operand.rename_eq_subst, Register.rename_eq_subst,
      hargs] <;>
    rfl

lemma Line.rename_eq_subst (line : Line) :
    line.rename r = line.subst r.respelling.toSubstitution := by
  cases line with
  | label l => rfl
  | instr i => exact congrArg Line.instr (i.rename_eq_subst r)

lemma Function.map_renameLine {g : Function}
    (h : ∀ name ∈ g.mentioned, isIdentifier name = true) (style : PointerStyle) :
    (g.textLines style).map (renameLine r) = (g.rename r).textLines style := by
  have hsubst : g.rename r = g.subst r.respelling.toSubstitution := by
    rw [Function.rename, List.map_congr_left fun line _ => Line.rename_eq_subst r line]
    rfl
  rw [hsubst, ← Function.map_replaceLine r.respelling h style]
  exact List.map_congr_left fun line _ => renameLine_eq r line

/-- The text of a renamed module is its text, renamed. -/
lemma Module.renameText_text {m : Module}
    (h : ∀ g ∈ m.functions, ∀ name ∈ g.mentioned, isIdentifier name = true)
    (style : PointerStyle) : renameText r (m.text style) = (m.rename r).text style := by
  have hopening : (openingLines style).length = 3 := rfl
  have hempty : renameLine r "" = "" := rfl
  have hfunctions : (m.functions.flatMap (Function.textLines style)).map (renameLine r) =
      (m.rename r).functions.flatMap (Function.textLines style) := by
    rw [Module.rename, List.map_flatMap, List.flatMap_map]
    exact List.flatMap_congr fun g hg => Function.map_renameLine r (h g hg) style
  have hlines : Text.lines (m.text style) =
      openingLines style ++ (m.functions.flatMap (Function.textLines style) ++ [""]) := by
    rw [Module.lines_text h, Module.textLines, List.append_assoc]
  apply String.ext
  rw [renameText, hlines, List.take_left' hopening, List.drop_left' hopening, List.map_append,
    hfunctions, List.map_singleton, hempty, String.toList_intercalate, Module.text,
    Text.toList_join_lines, Module.textLines, List.append_assoc]
  rfl

end IR

/-! ## Compilation -/

/-- An error under other names. -/
def CompileError.rename (r : Renaming) : CompileError → CompileError
  | parse error => parse error
  | semantic error => semantic (error.rename r)
  | lowering error => lowering (error.rename r)

/-- What analysis says of a renamed program. -/
lemma Program.result_analyze_rename (r : Renaming) (p : Program) :
    (p.rename r).analyze.result =
      (p.analyze.result.map (Program.rename r)).mapError (SemanticError.rename r) := by
  have hvisit : (Analyzer.fresh.visit (p.rename r)).result =
      ((Analyzer.fresh.visit p).result.map (Program.rename r)).mapError
        (SemanticError.rename r) := by
    rw [Analyzer.fresh_visit_rename, Visit.result, Visit.result, Visit.rename]
    cases (Analyzer.fresh.visit p).verdict <;> rfl
  exact hvisit

/-- The text of a renamed program that analysis has annotated.  All its expressions have types, so
that an error of lowering can only be about a parameter. -/
lemma Program.result_generate_rename {p : Program} (hwell : p.WellFormed) (hann : p.Annotated)
    (hnames : ∀ name ∈ p.mentioned, isIdentifier name = true) (r : Renaming) (options : Options) :
    ((p.rename r).generate options).result =
      ((p.generate options).result.map (renameText r)).mapError (LoweringError.rename r) := by
  have hlowers := Program.lowersUnless_lower hwell hann options.finalReturn
  have hsame := p.lower_rename r options.finalReturn
  rw [Program.result_generate, Program.result_generate]
  generalize ((p.rename r).lower options.finalReturn).result = renamed at hsame ⊢
  cases hlower : (p.lower options.finalReturn).result with
  | ok lowered =>
    rw [hlower] at hsame
    have hidentifiers := Program.isIdentifier_of_lower hnames hlower
    cases hsame with
    | ok heq =>
      rw [← heq]
      exact congrArg Except.ok (IR.Module.renameText_text r hidentifiers options.pointers).symm
  | error e =>
    rw [hlower] at hsame hlowers
    obtain ⟨name, rfl⟩ := LowersUnless.exists_of_error hlowers
    cases hsame with
    | error => rfl

/-- Compilation commutes with renamings.  For a program that a source text has, to rename it and
compile it gives the error of the program about the other name, or its text with the other names. -/
theorem Program.compile_rename {source : String} {p : Program} {illegals : List IllegalCharacter}
    (hparse : (parseSource source).result = .ok (p, illegals)) (r : Renaming) (options : Options) :
    (compileSource options source).result = p.compile options ∧
      (p.rename r).compile options =
        ((p.compile options).map (renameText r)).mapError (CompileError.rename r) := by
  constructor
  · rw [result_compileSource, hparse]
    rfl
  rw [Program.compile, Program.compile, Program.result_analyze_rename]
  cases hanalyze : p.analyze.result with
  | error e => rfl
  | ok annotated =>
    obtain ⟨hbare, hwell, hann⟩ := Analyzer.of_result_eq_ok hanalyze
    have hmentioned : annotated.mentioned = p.mentioned := by
      rw [← annotated.mentioned_bare, hbare, p.mentioned_bare]
    have hnames : ∀ name ∈ annotated.mentioned, isIdentifier name = true := by
      rw [hmentioned]
      exact fun name hname =>
        isIdentifier_of_mem_identifiers hparse name (p.mentioned_subset_identifiers hname)
    show ((annotated.rename r).generate options).result.mapError CompileError.lowering =
      (((annotated.generate options).result.mapError CompileError.lowering).map
        (renameText r)).mapError (CompileError.rename r)
    rw [Program.result_generate_rename hwell hann hnames]
    cases (annotated.generate options).result <;> rfl

/-- The renaming that exchanges two names. -/
def Renaming.swap (name name' : Identifier) (h : name.1 ∉ reservedNames)
    (h' : name'.1 ∉ reservedNames) : Renaming where
  map := Equiv.swap name name'
  injective := (Equiv.swap name name').injective
  fixes := by
    intro other hother
    apply Equiv.swap_apply_of_ne_of_ne
    · rintro rfl
      exact h hother
    · rintro rfl
      exact h' hother

/-- Exchanges the words that begin the first label of a function and each temporary. -/
def swapEntryTmp : Renaming :=
  .swap ⟨"entry", by decide⟩ ⟨"tmp", by decide⟩ (by decide) (by decide)

/-- A source text with a variable and a parameter of one name, and a function of the other. -/
def entryTmpSource : String :=
  "int entry;tmp(entry);int a[2];\x7bwhile(entry>a[0])\x7ba[0]=entry\x7d;return a[0]\x7d" ++
    "\x7bread(entry);print(tmp(entry))\x7d"

theorem Program.compile_rename_entry :
    ∃ p illegals text, (parseSource entryTmpSource).result = .ok (p, illegals) ∧
      (compileSource {} entryTmpSource).result = .ok text ∧
      (p.rename swapEntryTmp).compile {} = .ok (renameText swapEntryTmp text) := by
  have hcompiles : (compileSource {} entryTmpSource).result.toOption.isSome := by decide +kernel
  obtain ⟨text, hcompiled⟩ := Option.isSome_iff_exists.1 hcompiles
  have htext := eq_ok_of_toOption_eq_some hcompiled
  obtain ⟨p, illegals, _, _, _, hparse, _⟩ := exists_of_compileSource htext
  obtain ⟨hsource, hrenamed⟩ := Program.compile_rename hparse swapEntryTmp {}
  rw [← hsource, htext] at hrenamed
  exact ⟨p, illegals, text, hparse, htext, hrenamed⟩

end DLang
