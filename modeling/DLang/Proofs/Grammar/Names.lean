import DLang.Proofs.Compilation.Stages
import DLang.Proofs.Lexing.Layout
import DLang.Proofs.Static.Bare

/-!
# Names

The names that a program declares.  In a tree built by hand they can be any texts.  Those of a
source text are identifiers, the only names that lexing finds (`isIdentifier_of_mem_scan`).  An
identifier has no dot in it, which is what keeps it apart from the names that lowering makes up.
-/

namespace DLang

/-! ## Identifiers -/

/-- Whether a text is a lower-case letter followed by lower-case letters and digits. -/
def isIdentifier (name : String) : Bool :=
  match name.toList with
  | [] => false
  | c :: rest => c.isLower && rest.all Segment.isWordChar

lemma isWordChar_of_isIdentifier {name : String} (h : isIdentifier name = true) :
    ∀ c ∈ name.toList, Segment.isWordChar c = true := by
  unfold isIdentifier at h
  cases hname : name.toList with
  | nil => exact fun c hc => absurd hc List.not_mem_nil
  | cons first rest =>
    rw [hname] at h
    obtain ⟨hfirst, hrest⟩ := Bool.and_eq_true_iff.1 h
    exact List.forall_mem_cons.2
      ⟨Segment.isWordChar_iff.2 (.inl hfirst), List.all_eq_true.1 hrest⟩

lemma dot_notMem_of_isIdentifier {name : String} (h : isIdentifier name = true) :
    '.' ∉ name.toList :=
  fun hdot => absurd (isWordChar_of_isIdentifier h '.' hdot) (by decide)

/-! ## Tokens of identifiers -/

lemma isIdentifier_iff_isWord {name : String} :
    isIdentifier name = true ↔ Segment.IsWord name.toList := by
  unfold isIdentifier
  constructor
  · intro h
    split at h
    · simp at h
    · rename_i c rest hname
      rw [hname]
      simp only [Bool.and_eq_true, List.all_eq_true, Segment.isWordChar_iff] at h
      exact .mk h.1 h.2
  · intro h
    generalize name.toList = word at h
    obtain ⟨hlower, hrest⟩ := h
    simp only [Bool.and_eq_true, List.all_eq_true, Segment.isWordChar_iff]
    exact ⟨hlower, hrest⟩

lemma isIdentifier_of_mem_scan {source : String} {token : Token}
    (h : token ∈ (scan source).tokens) (hkind : token.kind = .identifier) :
    isIdentifier token.text = true := by
  have hproper := proper_of_mem_scan h
  rw [Token.lexeme, hkind] at hproper
  cases hproper with
  | name hword _ => exact isIdentifier_iff_isWord.2 hword
  | spelled hspelling => simp [Kind.spelling?] at hspelling

/-! ## Declared names -/

/-- The names in the scope of a function. -/
def FunctionDecl.innerNames (f : FunctionDecl) : List String :=
  f.paramList ++ f.localList.map VarDef.name

/-- The names that a declaration introduces, in the scope of the program and in one of its own. -/
def Decl.declaredNames : Decl → List String
  | .vars group => group.map VarDef.name
  | .function f => f.name :: f.innerNames

/-- All names that a program declares. -/
def Program.declaredNames (p : Program) : List String :=
  p.declarationList.flatMap Decl.declaredNames

lemma Program.declaredNames_bare (p : Program) : p.bare.declaredNames = p.declaredNames := by
  have hdecl : ∀ d : Decl, d.bare.declaredNames = d.declaredNames := by
    intro d
    cases d <;> rfl
  rw [Program.declaredNames, declarationList_bare, List.flatMap_map]
  simp only [hdecl]
  rfl

lemma Program.innerNames_subset_declaredNames {p : Program} {f : FunctionDecl}
    (hf : f ∈ p.functions) : f.innerNames ⊆ p.declaredNames := by
  intro name hname
  obtain ⟨before, after, hsplit⟩ := p.mem_functions_iff.1 hf
  rw [Program.declaredNames, hsplit]
  refine List.mem_flatMap.2 ⟨.function f, ?_, List.mem_cons_of_mem _ hname⟩
  exact List.mem_append_right before List.mem_cons_self

lemma Program.names_varDefs_subset_declaredNames (p : Program) :
    p.varDefs.map VarDef.name ⊆ p.declaredNames := by
  intro name hname
  obtain ⟨d, hd, rfl⟩ := List.mem_map.1 hname
  rw [Program.varDefs_eq] at hd
  obtain ⟨decl, hdecl, hd⟩ := List.mem_flatMap.1 hd
  refine List.mem_flatMap.2 ⟨decl, hdecl, ?_⟩
  cases decl with
  | vars group => exact List.mem_map_of_mem hd
  | function f => cases hd

end DLang
