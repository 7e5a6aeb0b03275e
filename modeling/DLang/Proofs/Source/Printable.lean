import DLang.Proofs.Grammar.Names
import DLang.Proofs.Lexing.Numerals

/-!
# Printable trees

A tree built by hand can hold what no source text says: annotations, empty lists where the grammar
wants an absent one, names that are no identifiers, negative numbers, comparisons as values.  A tree
without all of these is printable.  Printable trees are the image of the front end: this file shows
that every tree that is parsed from a source text is printable (`printable_of_parseSource`).
-/

namespace DLang

/-! ## Names -/

/-- The reserved words. -/
def keywords : List String :=
  ["else", "if", "int", "print", "read", "return", "while"]

/-- A name that a source text can use: an identifier that is no reserved word. -/
def IsName (name : String) : Prop :=
  isIdentifier name = true ∧ name ∉ keywords

/-- Among the words, the reserved ones are those that are the spelling of a kind. -/
lemma mem_keywords_iff {name : String} (hword : Segment.IsWord name.toList) :
    name ∈ keywords ↔ ∃ kind : Kind, kind.spelling? = some name := by
  constructor
  · intro h
    simp only [keywords, List.mem_cons, List.not_mem_nil, or_false] at h
    rcases h with rfl | rfl | rfl | rfl | rfl | rfl | rfl
    · exact ⟨.elseWord, rfl⟩
    · exact ⟨.ifWord, rfl⟩
    · exact ⟨.intWord, rfl⟩
    · exact ⟨.printWord, rfl⟩
    · exact ⟨.readWord, rfl⟩
    · exact ⟨.returnWord, rfl⟩
    · exact ⟨.whileWord, rfl⟩
  · rintro ⟨kind, hspelling⟩
    have hlower : ∀ c ∈ name.toList.head?, c.isLower = true := by
      intro c hc
      generalize name.toList = word at hword hc
      obtain ⟨hfirst, _⟩ := hword
      obtain rfl := Option.some.inj hc
      exact hfirst
    -- A symbol is no word, since it does not start with a letter.
    cases kind <;> simp only [Kind.spelling?, Option.some.injEq, reduceCtorEq] at hspelling <;>
      subst hspelling <;> first | decide | exact absurd (hlower _ rfl) (by decide)

/-- The names that a source text can use are those that lexing finds. -/
lemma isName_iff_proper {name : String} : IsName name ↔ (Lexeme.ofName name).Proper := by
  rw [IsName, isIdentifier_iff_isWord]
  constructor
  · rintro ⟨hword, hkeyword⟩
    rw [mem_keywords_iff hword, not_exists] at hkeyword
    exact .name hword hkeyword
  · intro h
    cases h with
    | name hword hspelling =>
      refine ⟨hword, ?_⟩
      rw [mem_keywords_iff hword, not_exists]
      exact hspelling
    | spelled h => simp [Kind.spelling?] at h

/-! ## Printable trees -/

/-- Expressions that a source text can say. -/
inductive Expr.Printable : Expr → Prop
  /-- A number of 32 bits that is not negative lies between 0 and 2147483647. -/
  | integer {value : Int32} : 0 ≤ value.toInt → Printable (.integer value none)
  | var {name : String} : IsName name → Printable (.var name none none)
  | element {name : String} {index : Expr} :
      IsName name → Printable index → Printable (.element name index none none)
  | arith {op : ArithOp} {left right : Expr} :
      Printable left → Printable right → Printable (.arith op left right none)
  | call {name : String} {args : Option (List Expr)} :
      IsName name → args ≠ some [] → (∀ e ∈ args.getD [], Printable e) →
      Printable (.call name args none)

/-- Conditions that a source text can say: comparisons, which stand nowhere else. -/
inductive Expr.PrintableCondition : Expr → Prop
  | compare {op : RelOp} {left right : Expr} :
      left.Printable → right.Printable → PrintableCondition (.compare op left right none)

/-- Targets that a source text can say. -/
inductive Target.Printable : Target → Prop
  | var {name : String} : IsName name → Printable (.var name none)
  | element {name : String} {index : Expr} :
      IsName name → index.Printable → Printable (.element name index none)

/-- Statements that a source text can say. -/
inductive Stmt.Printable : Stmt → Prop
  | assign {target : Target} {value : Expr} :
      target.Printable → value.Printable → Printable (.assign target value none none)
  | print {value : Expr} : value.Printable → Printable (.print value)
  | read {name : String} : IsName name → Printable (.read name none)
  | ret {value : Expr} : value.Printable → Printable (.ret value)
  | branch {condition : Expr} {yes : List Stmt} {no : Option (List Stmt)} :
      condition.PrintableCondition → (∀ s ∈ yes, Printable s) → (∀ s ∈ no.getD [], Printable s) →
      Printable (.branch condition yes no)
  | loop {condition : Expr} {body : List Stmt} :
      condition.PrintableCondition → (∀ s ∈ body, Printable s) → Printable (.loop condition body)
  | block {body : List Stmt} : (∀ s ∈ body, Printable s) → Printable (.block body)

/-- Definitions that a source text can say. -/
inductive VarDef.Printable : VarDef → Prop
  | scalar {name : String} : IsName name → Printable (.scalar name)
  | array {name : String} {size : Nat} :
      IsName name → size ≤ 2147483647 → Printable (.array name size)

/-- Functions that a source text can say. -/
structure FunctionDecl.Printable (f : FunctionDecl) : Prop where
  name : IsName f.name
  params_ne : f.params ≠ some []
  params : ∀ name ∈ f.paramList, IsName name
  locals_ne : f.locals ≠ some []
  locals : ∀ d ∈ f.localList, d.Printable
  body : ∀ s ∈ f.body, s.Printable

/-- Declarations that a source text can say. -/
inductive Decl.Printable : Decl → Prop
  | vars {group : List VarDef} :
      group ≠ [] → (∀ d ∈ group, d.Printable) → Printable (.vars group)
  | function {f : FunctionDecl} : f.Printable → Printable (.function f)

/-- Programs that a source text can say. -/
structure Program.Printable (p : Program) : Prop where
  declarations_ne : p.declarations ≠ some []
  declarations : ∀ d ∈ p.declarationList, d.Printable
  body : ∀ s ∈ p.body, s.Printable

/-! ## The image of the front end -/

/-- The trees of a phrase are printable. -/
def Phrase.Printable : Phrase → Prop
  | .program p => p.Printable
  | .declarations list => list ≠ [] ∧ ∀ d ∈ list, d.Printable
  | .declaration d => d.Printable
  | .variables group => group ≠ [] ∧ ∀ d ∈ group, d.Printable
  | .definitions group => group ≠ [] ∧ ∀ d ∈ group, d.Printable
  | .definition d => d.Printable
  | .function f => f.Printable
  | .params list => list ≠ some [] ∧ ∀ name ∈ list.getD [], IsName name
  | .names list => list ≠ [] ∧ ∀ name ∈ list, IsName name
  | .locals group => group ≠ some [] ∧ ∀ d ∈ group.getD [], d.Printable
  | .block body => ∀ s ∈ body, s.Printable
  | .statements body => ∀ s ∈ body, s.Printable
  | .statement s => ∀ s' ∈ s.toList, s'.Printable
  | .alternative no => ∀ s ∈ no.getD [], s.Printable
  | .assignment s => s.Printable
  | .comparison e => e.PrintableCondition
  | .expression e => e.Printable
  | .term e => e.Printable
  | .factor e => e.Printable
  | .args list => list ≠ some [] ∧ ∀ e ∈ list.getD [], e.Printable
  | .expressions list => list ≠ [] ∧ ∀ e ∈ list, e.Printable

lemma isName_of_proper {token : Token} (h : token.lexeme.Proper)
    (hkind : token.kind = .identifier) : IsName token.text := by
  rw [isName_iff_proper]
  rw [Token.lexeme, hkind] at h
  exact h

/-- A number token is read as a number that is not negative. -/
lemma nonneg_of_proper {token : Token} {value : Int32} (h : token.lexeme.Proper)
    (hkind : token.kind = .number) (hread : Text.readInt32 token.text = some value) :
    0 ≤ value.toInt := by
  rw [Token.lexeme, hkind] at h
  cases h with
  | number hne hdigits =>
    have hvalue := (Text.readInt32_eq_some_iff hne hdigits).1 hread
    omega
  | spelled h => simp [Kind.spelling?] at h

lemma ne_nil_and_forall_cons {α : Type} {P : α → Prop} {a : α} {list : List α} (ha : P a)
    (h : ∀ b ∈ list, P b) : a :: list ≠ [] ∧ ∀ b ∈ a :: list, P b :=
  ⟨List.cons_ne_nil a list, List.forall_mem_cons.2 ⟨ha, h⟩⟩

lemma ne_some_nil_and_forall {α : Type} {P : α → Prop} {list : List α}
    (h : list ≠ [] ∧ ∀ a ∈ list, P a) : some list ≠ some [] ∧ ∀ a ∈ (some list).getD [], P a :=
  ⟨fun heq => h.1 (Option.some.inj heq), h.2⟩

/-- From proper tokens the grammar derives printable trees only. -/
lemma Derives.printable {w : List Token} {phrase : Phrase} (h : Derives w phrase)
    (hw : ∀ token ∈ w, token.lexeme.Proper) : phrase.Printable := by
  induction h
  all_goals
    try simp only [List.forall_mem_append, List.forall_mem_cons, List.not_mem_nil,
      IsEmpty.forall_iff, implies_true, and_true] at hw
  case bareProgram ih => exact ⟨by simp, by simp [Program.declarationList], ih hw⟩
  case program ihu ihv =>
    obtain ⟨hne, hlist⟩ := ne_some_nil_and_forall (ihu hw.1)
    exact ⟨hne, hlist, ihv hw.2⟩
  case lastDeclaration ih => exact ne_nil_and_forall_cons (ih hw) (by simp)
  case moreDeclarations ihu ihv => exact ne_nil_and_forall_cons (ihu hw.1) (ihv hw.2).2
  case variablesDeclaration ih => exact .vars (ih hw).1 (ih hw).2
  case functionDeclaration ih => exact .function (ih hw)
  case variableGroup ih => exact ih hw.2.1
  case lastDefinition ih => exact ne_nil_and_forall_cons (ih hw) (by simp)
  case moreDefinitions ihu ihv => exact ne_nil_and_forall_cons (ihu hw.1) (ihv hw.2.2).2
  case scalarDefinition hname => exact .scalar (isName_of_proper hw hname)
  case arrayDefinition size hname _ hnum hread _ =>
    have hnonneg := nonneg_of_proper hw.2.2.1 hnum hread
    have hbounds := Text.toInt_bounds size
    refine .array (isName_of_proper hw.1 hname) ?_
    rw [Text.lengthOf_of_nonneg hnonneg]
    omega
  case function hname _ _ _ _ _ _ ihu ihv ihw =>
    obtain ⟨hparams_ne, hparams⟩ := ihu hw.2.2.1
    obtain ⟨hlocals_ne, hlocals⟩ := ihv hw.2.2.2.2.2.1
    exact ⟨isName_of_proper hw.1 hname, hparams_ne, hparams, hlocals_ne, hlocals,
      ihw hw.2.2.2.2.2.2⟩
  case noParams => exact ⟨by simp, by simp⟩
  case params ih => exact ne_some_nil_and_forall (ih hw)
  case lastName hname => exact ne_nil_and_forall_cons (isName_of_proper hw hname) (by simp)
  case moreNames hname _ _ ih =>
    exact ne_nil_and_forall_cons (isName_of_proper hw.1 hname) (ih hw.2.2).2
  case noLocals => exact ⟨by simp, by simp⟩
  case locals ih => exact ne_some_nil_and_forall (ih hw)
  case block ih => exact ih hw.2.1
  case lastStatement ih => exact ih hw
  case moreStatements ihu ihv => exact List.forall_mem_append.2 ⟨ihu hw.1, ihv hw.2.2⟩
  case emptyStatement => simp [Phrase.Printable]
  case assignmentStatement ih => simpa [Phrase.Printable] using ih hw
  case blockStatement ih => simpa [Phrase.Printable] using Stmt.Printable.block (ih hw)
  case print ih => simpa [Phrase.Printable] using Stmt.Printable.print (ih hw.2.2.1)
  case read hname _ =>
    simpa [Phrase.Printable] using Stmt.Printable.read (isName_of_proper hw.2.2.1 hname)
  case ret ih => simpa [Phrase.Printable] using Stmt.Printable.ret (ih hw.2)
  case loop ihu ihv =>
    simpa [Phrase.Printable] using Stmt.Printable.loop (ihu hw.2.2.1) (ihv hw.2.2.2.2)
  case branch ihu ihv ihw =>
    simpa [Phrase.Printable] using
      Stmt.Printable.branch (ihu hw.2.2.1) (ihv hw.2.2.2.2.1) (ihw hw.2.2.2.2.2)
  case noAlternative => simp [Phrase.Printable]
  case alternative ih => exact ih hw.2
  case assignVariable hname _ _ ih =>
    exact .assign (.var (isName_of_proper hw.1 hname)) (ih hw.2.2)
  case assignElement hname _ _ _ _ _ ihu ihv =>
    exact .assign (.element (isName_of_proper hw.1 hname) (ihu hw.2.2.1)) (ihv hw.2.2.2.2.2)
  case comparison ihu ihv => exact .compare (ihu hw.1) (ihv hw.2.2)
  case firstTerm ih => exact ih hw
  case sum ihu ihv => exact .arith (ihu hw.1) (ihv hw.2.2)
  case firstFactor ih => exact ih hw
  case product ihu ihv => exact .arith (ihu hw.1) (ihv hw.2.2)
  case number hnum hread => exact .integer (nonneg_of_proper hw hnum hread)
  case name hname => exact .var (isName_of_proper hw hname)
  case element hname _ _ _ ih => exact .element (isName_of_proper hw.1 hname) (ih hw.2.2.1)
  case call hname _ _ _ ih =>
    obtain ⟨hne, hargs⟩ := ih hw.2.2.1
    exact .call (isName_of_proper hw.1 hname) hne hargs
  case parenthesised ih => exact ih hw.2.1
  case noArgs => exact ⟨by simp, by simp⟩
  case args ih => exact ne_some_nil_and_forall (ih hw)
  case lastExpression ih => exact ne_nil_and_forall_cons (ih hw) (by simp)
  case moreExpressions ihu ihv => exact ne_nil_and_forall_cons (ihu hw.1) (ihv hw.2.2).2

/-- Every tree that is parsed from a source text is printable. -/
lemma printable_of_parseSource {source : String} {p : Program} {illegals : List IllegalCharacter}
    (h : (parseSource source).result = .ok (p, illegals)) : p.Printable :=
  (derives_of_parseSource h).printable fun _ htoken => proper_of_mem_scan htoken

end DLang
