import DLang.Proofs.Lowering.Mentions

/-!
# The identifiers of a source text

The names in a tree, read from left to right, are the identifiers of the word that the tree was
derived from, one for one (`Derives.identifiers_eq`).  No rule of the grammar drops an identifier,
repeats one or moves it: the name of a call stands before its arguments, that of an array before the
index, the target of an assignment before the value, and the parameters of a function before its
local variables, in the tree as in the text.
-/

namespace DLang

/-! ## Names in order -/

/-- The names in a declaration, in order. -/
def Decl.identifiers : Decl → List String
  | .vars group => group.map VarDef.name
  | .function f => f.mentioned

/-- The names in a program, in order. -/
def Program.identifiers (p : Program) : List String :=
  p.declarationList.flatMap Decl.identifiers ++ Stmt.mentionedAll p.body

lemma Stmt.mentionedAll_append (list list' : List Stmt) :
    Stmt.mentionedAll (list ++ list') = Stmt.mentionedAll list ++ Stmt.mentionedAll list' := by
  induction list with
  | nil => rfl
  | cons s rest ih => rw [List.cons_append, Stmt.mentionedAll, Stmt.mentionedAll, ih,
      List.append_assoc]

/-- Taken in order, the names are those that the program mentions. -/
lemma Program.mentioned_subset_identifiers (p : Program) : p.mentioned ⊆ p.identifiers := by
  intro name hname
  rw [Program.mentioned, List.mem_append, List.mem_append] at hname
  rw [Program.identifiers, List.mem_append]
  rcases hname with hname | hname | hname
  · rw [Program.functions_eq] at hname
    obtain ⟨f, hf, hname⟩ := List.mem_flatMap.1 hname
    obtain ⟨d, hd, hf⟩ := List.mem_flatMap.1 hf
    refine .inl (List.mem_flatMap.2 ⟨d, hd, ?_⟩)
    cases d with
    | vars group => cases hf
    | function f' =>
      obtain rfl := List.mem_singleton.1 hf
      exact hname
  · rw [Program.varDefs_eq] at hname
    obtain ⟨v, hv, rfl⟩ := List.mem_map.1 hname
    obtain ⟨d, hd, hv⟩ := List.mem_flatMap.1 hv
    refine .inl (List.mem_flatMap.2 ⟨d, hd, ?_⟩)
    cases d with
    | vars group => exact List.mem_map_of_mem hv
    | function f => cases hv
  · exact .inr hname

/-- The names in the module of a program are identifiers if those in the program are.  Annotations
add none. -/
lemma Program.isIdentifier_of_annotated {p annotated : Program} {finalReturn : Bool} {m : IR.Module}
    {counters : Counters} (hnames : ∀ name ∈ p.identifiers, isIdentifier name = true)
    (hbare : annotated.bare = p.bare)
    (hlower : (annotated.lower finalReturn).result = .ok (m, counters)) :
    ∀ g ∈ m.functions, ∀ name ∈ g.mentioned, isIdentifier name = true := by
  have hmentioned : annotated.mentioned = p.mentioned := by
    rw [← annotated.mentioned_bare, hbare, p.mentioned_bare]
  refine Program.isIdentifier_of_lower (fun name hname => ?_) hlower
  rw [hmentioned] at hname
  exact hnames name (p.mentioned_subset_identifiers hname)

lemma Program.declaredNames_subset_identifiers (p : Program) : p.declaredNames ⊆ p.identifiers := by
  intro name hname
  obtain ⟨d, hd, hname⟩ := List.mem_flatMap.1 hname
  refine List.mem_append_left _ (List.mem_flatMap.2 ⟨d, hd, ?_⟩)
  cases d with
  | vars group => exact hname
  | function f =>
    rw [Decl.identifiers, FunctionDecl.mentioned, ← List.cons_append]
    exact List.mem_append_left _ hname

/-! ## Identifiers of a word -/

/-- The texts of the identifiers in a word of tokens. -/
def identifierTexts (w : List Token) : List String :=
  (w.filter fun token => token.kind = .identifier).map Token.text

lemma identifierTexts_append (u v : List Token) :
    identifierTexts (u ++ v) = identifierTexts u ++ identifierTexts v := by
  rw [identifierTexts, List.filter_append, List.map_append]
  rfl

@[simp] lemma identifierTexts_nil : identifierTexts [] = [] :=
  rfl

@[simp] lemma identifierTexts_cons (token : Token) (w : List Token) :
    identifierTexts (token :: w) =
      if token.kind = .identifier then token.text :: identifierTexts w else identifierTexts w := by
  by_cases h : token.kind = .identifier <;> simp [identifierTexts, h]

lemma SumSign.ne_identifier {kind : Kind} {op : ArithOp} (h : SumSign kind op) :
    kind ≠ .identifier := by
  cases h <;> decide

lemma ProductSign.ne_identifier {kind : Kind} {op : ArithOp} (h : ProductSign kind op) :
    kind ≠ .identifier := by
  cases h <;> decide

lemma RelSign.ne_identifier {kind : Kind} {op : RelOp} (h : RelSign kind op) :
    kind ≠ .identifier := by
  cases h <;> decide

/-! ## Derivations -/

/-- The names in the tree of a phrase, in order. -/
def Phrase.identifiers : Phrase → List String
  | .program p => p.identifiers
  | .declarations list => list.flatMap Decl.identifiers
  | .declaration d => d.identifiers
  | .variables group => group.map VarDef.name
  | .definitions group => group.map VarDef.name
  | .definition d => [d.name]
  | .function f => f.mentioned
  | .params list => list.getD []
  | .names list => list
  | .locals group => (group.getD []).map VarDef.name
  | .block body => Stmt.mentionedAll body
  | .statements body => Stmt.mentionedAll body
  | .statement s => Stmt.mentionedAll s.toList
  | .alternative no => Stmt.mentionedAll (no.getD [])
  | .assignment s => s.mentioned
  | .comparison e => e.mentioned
  | .expression e => e.mentioned
  | .term e => e.mentioned
  | .factor e => e.mentioned
  | .args list => Expr.mentionedAll (list.getD [])
  | .expressions list => Expr.mentionedAll list

/-- The names in the tree of a phrase are the identifiers of its word, in order. -/
lemma Derives.identifiers_eq {w : List Token} {phrase : Phrase} (h : Derives w phrase) :
    phrase.identifiers = identifierTexts w := by
  -- A rule names the kind of each token of its own, which says if the token is an identifier; the
  -- others are those of the parts.
  induction h with
  | bareProgram _ ih => exact ih
  | program _ _ ihu ihv =>
    rw [identifierTexts_append, ← ihu, ← ihv]
    rfl
  | lastDeclaration _ ih =>
    rw [← ih]
    exact List.flatMap_singleton ..
  | moreDeclarations _ _ ihu ihv =>
    rw [identifierTexts_append, ← ihu, ← ihv]
    exact List.flatMap_cons
  | variablesDeclaration _ ih => exact ih
  | functionDeclaration _ ih => exact ih
  | variableGroup hint _ hsemi ih =>
    simp [identifierTexts_append, hint, hsemi, ← ih, Phrase.identifiers]
  | lastDefinition _ ih => exact ih
  | moreDefinitions _ hcomma _ ihu ihv =>
    simp [identifierTexts_append, hcomma, ← ihu, ← ihv, Phrase.identifiers]
  | scalarDefinition hname => simp [hname, Phrase.identifiers, VarDef.name]
  | arrayDefinition hname hlbr hnum _ hrbr =>
    simp [hname, hlbr, hnum, hrbr, Phrase.identifiers, VarDef.name]
  | function hname hlpar _ hrpar hsemi _ _ ihu ihv ihw =>
    simp [identifierTexts_append, hname, hlpar, hrpar, hsemi, ← ihu, ← ihv, ← ihw,
      Phrase.identifiers, FunctionDecl.mentioned, FunctionDecl.innerNames, FunctionDecl.paramList,
      FunctionDecl.localList]
  | noParams => rfl
  | params _ ih => exact ih
  | lastName hname => simp [hname, Phrase.identifiers]
  | moreNames hname hcomma _ ih => simp [hname, hcomma, ← ih, Phrase.identifiers]
  | noLocals => rfl
  | locals _ ih => exact ih
  | block hlbrace _ hrbrace ih =>
    simp [identifierTexts_append, hlbrace, hrbrace, ← ih, Phrase.identifiers]
  | lastStatement _ ih => exact ih
  | moreStatements _ hsemi _ ihu ihv =>
    simp [identifierTexts_append, hsemi, ← ihu, ← ihv, Phrase.identifiers,
      Stmt.mentionedAll_append]
  | emptyStatement => rfl
  | assignmentStatement _ ih => simp [← ih, Phrase.identifiers, Stmt.mentionedAll]
  | blockStatement _ ih => simp [← ih, Phrase.identifiers, Stmt.mentionedAll, Stmt.mentioned]
  | print hword hlpar _ hrpar ih =>
    simp [identifierTexts_append, hword, hlpar, hrpar, ← ih, Phrase.identifiers,
      Stmt.mentionedAll, Stmt.mentioned]
  | read hword hlpar hname hrpar =>
    simp [hword, hlpar, hname, hrpar, Phrase.identifiers, Stmt.mentionedAll, Stmt.mentioned]
  | ret hword _ ih =>
    simp [hword, ← ih, Phrase.identifiers, Stmt.mentionedAll, Stmt.mentioned]
  | loop hword hlpar _ hrpar _ ihu ihv =>
    simp [identifierTexts_append, hword, hlpar, hrpar, ← ihu, ← ihv, Phrase.identifiers,
      Stmt.mentionedAll, Stmt.mentioned]
  | branch hword hlpar _ hrpar _ _ ihu ihv ihw =>
    simp [identifierTexts_append, hword, hlpar, hrpar, ← ihu, ← ihv, ← ihw, Phrase.identifiers,
      Stmt.mentionedAll, Stmt.mentioned_branch]
  | noAlternative => rfl
  | alternative hword _ ih => simp [hword, ← ih, Phrase.identifiers]
  | assignVariable hname heq _ ih =>
    simp [hname, heq, ← ih, Phrase.identifiers, Stmt.mentioned, Target.mentioned]
  | assignElement hname hlbr _ hrbr heq _ ihu ihv =>
    simp [identifierTexts_append, hname, hlbr, hrbr, heq, ← ihu, ← ihv, Phrase.identifiers,
      Stmt.mentioned, Target.mentioned]
  | comparison _ hsign _ ihu ihv =>
    simp [identifierTexts_append, hsign.ne_identifier, ← ihu, ← ihv, Phrase.identifiers,
      Expr.mentioned]
  | firstTerm _ ih => exact ih
  | sum _ hsign _ ihu ihv =>
    simp [identifierTexts_append, hsign.ne_identifier, ← ihu, ← ihv, Phrase.identifiers,
      Expr.mentioned]
  | firstFactor _ ih => exact ih
  | product _ hsign _ ihu ihv =>
    simp [identifierTexts_append, hsign.ne_identifier, ← ihu, ← ihv, Phrase.identifiers,
      Expr.mentioned]
  | number hnum => simp [hnum, Phrase.identifiers, Expr.mentioned]
  | name hname => simp [hname, Phrase.identifiers, Expr.mentioned]
  | element hname hlbr _ hrbr ih =>
    simp [identifierTexts_append, hname, hlbr, hrbr, ← ih, Phrase.identifiers, Expr.mentioned]
  | call hname hlpar _ hrpar ih =>
    simp [identifierTexts_append, hname, hlpar, hrpar, ← ih, Phrase.identifiers,
      Expr.mentioned_call]
  | parenthesised hlpar _ hrpar ih =>
    simp [identifierTexts_append, hlpar, hrpar, ← ih, Phrase.identifiers]
  | noArgs => rfl
  | args _ ih => exact ih
  | lastExpression _ ih => simp [← ih, Phrase.identifiers, Expr.mentionedAll]
  | moreExpressions _ hcomma _ ihu ihv =>
    simp [identifierTexts_append, hcomma, ← ihu, ← ihv, Phrase.identifiers, Expr.mentionedAll]

/-- The names in the tree of a source text are the identifiers of the text, in order. -/
lemma identifiers_of_parseSource {source : String} {p : Program}
    {illegals : List IllegalCharacter} (h : (parseSource source).result = .ok (p, illegals)) :
    p.identifiers = identifierTexts (scan source).tokens :=
  (derives_of_parseSource h).identifiers_eq

/-- So all names in the tree of a source text are identifiers. -/
lemma isIdentifier_of_mem_identifiers {source : String} {p : Program}
    {illegals : List IllegalCharacter} (h : (parseSource source).result = .ok (p, illegals)) :
    ∀ name ∈ p.identifiers, isIdentifier name = true := by
  intro name hname
  rw [identifiers_of_parseSource h] at hname
  obtain ⟨token, htoken, rfl⟩ := List.mem_map.1 hname
  obtain ⟨hscan, hkind⟩ := List.mem_filter.1 htoken
  exact isIdentifier_of_mem_scan hscan (of_decide_eq_true hkind)

/-- In particular those that it declares. -/
lemma isIdentifier_of_parseSource {source : String} {p : Program}
    {illegals : List IllegalCharacter} (h : (parseSource source).result = .ok (p, illegals)) :
    ∀ name ∈ p.declaredNames, isIdentifier name = true :=
  fun name hname =>
    isIdentifier_of_mem_identifiers h name (p.declaredNames_subset_identifiers hname)

end DLang
