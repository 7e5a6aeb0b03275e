import DLang.Proofs.Grammar.Identifiers
import DLang.Proofs.Grammar.Kinds
import DLang.Proofs.Lexing.Numerals
import DLang.Proofs.Source.Printable

/-!
# The numbers of a source text

The numbers in a tree are the values of its integer nodes and the lengths of its arrays.  Read from
left to right, they are the numbers of the word that the tree was derived from, one for one, and
each is the number that the digits denote (`Derives.numerals_eq`).

This is where it matters that digits have no sign.  An array holds its length as a pattern of 64
bits, and that of a negative number would stand for another one.
-/

namespace DLang

/-! ## Numbers of a tree -/

/-- A place in a body where the code has a number: an integer that is spelled out, or an element of
an array, whose address is taken with the length of the array. -/
inductive Figure where
  | literal (value : Int32)
  | element (array : String)
  deriving DecidableEq, Repr

/-- The number that is spelled out. -/
def Figure.number? : Figure → Option Int
  | literal value => some value.toInt
  | element _ => none

mutual

/-- The integers and array elements in an expression, in order. -/
def Expr.figures : Expr → List Figure
  | .integer value _ => [.literal value]
  | .var .. => []
  | .element name index _ _ => .element name :: index.figures
  | .arith _ left right _ => left.figures ++ right.figures
  | .compare _ left right _ => left.figures ++ right.figures
  | .call _ none _ => []
  | .call _ (some args) _ => Expr.figuresAll args

/-- The integers and array elements in expressions, in order. -/
def Expr.figuresAll : List Expr → List Figure
  | [] => []
  | e :: rest => e.figures ++ Expr.figuresAll rest

end

/-- The integers and array elements in a target, in order. -/
def Target.figures : Target → List Figure
  | .var .. => []
  | .element name index _ => .element name :: index.figures

mutual

/-- The integers and array elements in a statement, in order. -/
def Stmt.figures : Stmt → List Figure
  | .assign target value _ _ => target.figures ++ value.figures
  | .print value => value.figures
  | .read .. => []
  | .ret value => value.figures
  | .branch condition yes none => condition.figures ++ Stmt.figuresAll yes
  | .branch condition yes (some no) =>
    condition.figures ++ (Stmt.figuresAll yes ++ Stmt.figuresAll no)
  | .loop condition body => condition.figures ++ Stmt.figuresAll body
  | .block body => Stmt.figuresAll body

/-- The integers and array elements in statements, in order. -/
def Stmt.figuresAll : List Stmt → List Figure
  | [] => []
  | s :: rest => s.figures ++ Stmt.figuresAll rest

end

/-- The length in the definition of an array. -/
def VarDef.numerals : VarDef → List Int
  | .scalar _ => []
  | .array _ size => [(size : Int)]

/-- The numbers in a function, in order: the lengths of its arrays and the integers of its body. -/
def FunctionDecl.numerals (f : FunctionDecl) : List Int :=
  f.localList.flatMap VarDef.numerals ++ (Stmt.figuresAll f.body).filterMap Figure.number?

/-- The numbers in a declaration, in order. -/
def Decl.numerals : Decl → List Int
  | .vars group => group.flatMap VarDef.numerals
  | .function f => f.numerals

/-- The numbers in a program, in order. -/
def Program.numerals (p : Program) : List Int :=
  p.declarationList.flatMap Decl.numerals ++ (Stmt.figuresAll p.body).filterMap Figure.number?

lemma Expr.figures_call (name : String) (args : Option (List Expr)) (ty : Option Ty) :
    (Expr.call name args ty).figures = Expr.figuresAll (args.getD []) := by
  cases args <;> rfl

lemma Stmt.figures_branch (condition : Expr) (yes : List Stmt) (no : Option (List Stmt)) :
    (Stmt.branch condition yes no).figures =
      condition.figures ++ (Stmt.figuresAll yes ++ Stmt.figuresAll (no.getD [])) := by
  cases no <;> simp [Stmt.figures, Stmt.figuresAll]

lemma Stmt.figuresAll_append (list list' : List Stmt) :
    Stmt.figuresAll (list ++ list') = Stmt.figuresAll list ++ Stmt.figuresAll list' := by
  induction list with
  | nil => rfl
  | cons s rest ih => rw [List.cons_append, Stmt.figuresAll, Stmt.figuresAll, ih, List.append_assoc]

lemma Expr.figuresAll_eq_flatMap (list : List Expr) :
    Expr.figuresAll list = list.flatMap Expr.figures := by
  induction list with
  | nil => rfl
  | cons e rest ih => rw [Expr.figuresAll, ih, List.flatMap_cons]

lemma Stmt.figuresAll_eq_flatMap (list : List Stmt) :
    Stmt.figuresAll list = list.flatMap Stmt.figures := by
  induction list with
  | nil => rfl
  | cons s rest ih => rw [Stmt.figuresAll, ih, List.flatMap_cons]

lemma Expr.figures_bare (e : Expr) : e.bare.figures = e.figures := by
  induction e with
  | integer value ty => rfl
  | var name symbol ty => rfl
  | element name index symbol ty ih => exact congrArg (.element name :: ·) ih
  | arith op left right ty ihl ihr => exact congrArg₂ (· ++ ·) ihl ihr
  | compare op left right ty ihl ihr => exact congrArg₂ (· ++ ·) ihl ihr
  | call name args ty ih =>
    rw [Expr.bare_call, Expr.figures_call, Expr.figures_call, getD_map_map,
      Expr.figuresAll_eq_flatMap, Expr.figuresAll_eq_flatMap, List.flatMap_map]
    exact List.flatMap_congr ih

lemma Target.figures_bare (target : Target) : target.bare.figures = target.figures := by
  cases target with
  | var name symbol => rfl
  | element name index symbol => exact congrArg (.element name :: ·) index.figures_bare

lemma Stmt.figuresAll_bare_of_forall {list : List Stmt}
    (h : ∀ s ∈ list, s.bare.figures = s.figures) :
    Stmt.figuresAll (list.map Stmt.bare) = Stmt.figuresAll list := by
  rw [Stmt.figuresAll_eq_flatMap, Stmt.figuresAll_eq_flatMap, List.flatMap_map]
  exact List.flatMap_congr h

lemma Stmt.figures_bare (s : Stmt) : s.bare.figures = s.figures := by
  induction s with
  | assign target value targetTy ty =>
    exact congrArg₂ (· ++ ·) target.figures_bare value.figures_bare
  | print value => exact value.figures_bare
  | read name symbol => rfl
  | ret value => exact value.figures_bare
  | branch condition yes no ihyes ihno =>
    rw [Stmt.bare_branch, Stmt.figures_branch, Stmt.figures_branch, condition.figures_bare,
      getD_map_map, Stmt.figuresAll_bare_of_forall ihyes, Stmt.figuresAll_bare_of_forall ihno]
  | loop condition body ih =>
    rw [Stmt.bare, Stmt.bareAll_eq_map, Stmt.figures, Stmt.figures, condition.figures_bare,
      Stmt.figuresAll_bare_of_forall ih]
  | block body ih =>
    rw [Stmt.bare, Stmt.bareAll_eq_map, Stmt.figures, Stmt.figures,
      Stmt.figuresAll_bare_of_forall ih]

/-- The figures of a body do not depend on annotations. -/
lemma Stmt.figuresAll_bareAll (list : List Stmt) :
    Stmt.figuresAll (Stmt.bareAll list) = Stmt.figuresAll list := by
  rw [Stmt.bareAll_eq_map]
  exact Stmt.figuresAll_bare_of_forall fun s _ => s.figures_bare

/-! ## Numbers of a word -/

/-- The number that the text of a token denotes. -/
def Token.value (token : Token) : Nat :=
  Text.decimalValue token.text.toList

/-- The numbers in a word of tokens, in order. -/
def numberValues (w : List Token) : List Int :=
  (w.filter fun token => token.kind = .number).map fun token => (token.value : Int)

lemma numberValues_append (u v : List Token) :
    numberValues (u ++ v) = numberValues u ++ numberValues v := by
  rw [numberValues, List.filter_append, List.map_append]
  rfl

@[simp] lemma numberValues_nil : numberValues [] = [] :=
  rfl

@[simp] lemma numberValues_cons (token : Token) (w : List Token) :
    numberValues (token :: w) =
      if token.kind = .number then (token.value : Int) :: numberValues w else numberValues w := by
  by_cases h : token.kind = .number <;> simp [numberValues, h]

/-- A number token is a nonempty run of digits. -/
lemma digits_of_proper {num : Token} (hproper : num.lexeme.Proper) (hnum : num.kind = .number) :
    num.text.toList ≠ [] ∧ ∀ d ∈ num.text.toList, d.isDigit = true := by
  rw [Token.lexeme, hnum] at hproper
  cases hproper with
  | number hne hdigits => exact ⟨hne, hdigits⟩
  | spelled hspelling => cases hspelling

lemma toInt_eq_value {num : Token} {value : Int32} (hproper : num.lexeme.Proper)
    (hnum : num.kind = .number) (hread : Text.readInt32 num.text = some value) :
    value.toInt = num.value := by
  obtain ⟨hne, hdigits⟩ := digits_of_proper hproper hnum
  exact ((Text.readInt32_eq_some_iff hne hdigits).1 hread).symm

/-- A length in range is held as it is. -/
lemma lengthOf_eq_value {num : Token} {size : Int32} (hproper : num.lexeme.Proper)
    (hnum : num.kind = .number) (hread : Text.readInt32 num.text = some size) :
    Text.lengthOf size = num.value := by
  have hvalue := toInt_eq_value hproper hnum hread
  rw [Text.lengthOf_of_nonneg (by omega)]
  omega

/-! ## Derivations -/

/-- The numbers in the tree of a phrase, in order. -/
def Phrase.numerals : Phrase → List Int
  | .program p => p.numerals
  | .declarations list => list.flatMap Decl.numerals
  | .declaration d => d.numerals
  | .variables group => group.flatMap VarDef.numerals
  | .definitions group => group.flatMap VarDef.numerals
  | .definition d => d.numerals
  | .function f => f.numerals
  | .params _ => []
  | .names _ => []
  | .locals group => (group.getD []).flatMap VarDef.numerals
  | .block body => (Stmt.figuresAll body).filterMap Figure.number?
  | .statements body => (Stmt.figuresAll body).filterMap Figure.number?
  | .statement s => (Stmt.figuresAll s.toList).filterMap Figure.number?
  | .alternative no => (Stmt.figuresAll (no.getD [])).filterMap Figure.number?
  | .assignment s => s.figures.filterMap Figure.number?
  | .comparison e => e.figures.filterMap Figure.number?
  | .expression e => e.figures.filterMap Figure.number?
  | .term e => e.figures.filterMap Figure.number?
  | .factor e => e.figures.filterMap Figure.number?
  | .args list => (Expr.figuresAll (list.getD [])).filterMap Figure.number?
  | .expressions list => (Expr.figuresAll list).filterMap Figure.number?

/-- The numbers in the tree of a phrase are those of its word, in order. -/
lemma Derives.numerals_eq {w : List Token} {phrase : Phrase} (h : Derives w phrase)
    (hw : ∀ token ∈ w, token.lexeme.Proper) : phrase.numerals = numberValues w := by
  induction h
  all_goals
    try simp only [List.forall_mem_append, List.forall_mem_cons, List.not_mem_nil,
      IsEmpty.forall_iff, implies_true, and_true] at hw
  case bareProgram ih => exact ih hw
  case program ihu ihv =>
    rw [numberValues_append, ← ihu hw.1, ← ihv hw.2]
    rfl
  case lastDeclaration ih =>
    rw [← ih hw]
    exact List.flatMap_singleton ..
  case moreDeclarations ihu ihv =>
    rw [numberValues_append, ← ihu hw.1, ← ihv hw.2]
    exact List.flatMap_cons
  case variablesDeclaration ih => exact ih hw
  case functionDeclaration ih => exact ih hw
  case variableGroup hint _ hsemi ih =>
    simp [numberValues_append, hint, hsemi, ← ih hw.2.1, Phrase.numerals]
  case lastDefinition ih =>
    rw [← ih hw]
    exact List.flatMap_singleton ..
  case moreDefinitions _ hcomma _ ihu ihv =>
    simp [numberValues_append, hcomma, ← ihu hw.1, ← ihv hw.2.2, Phrase.numerals]
  case scalarDefinition hname => simp [hname, Phrase.numerals, VarDef.numerals]
  case arrayDefinition hname hlbr hnum hread hrbr =>
    simp [hname, hlbr, hnum, hrbr, Phrase.numerals, VarDef.numerals,
      lengthOf_eq_value hw.2.2.1 hnum hread]
  case function hname hlpar _ hrpar hsemi _ _ ihu ihv ihw =>
    simp [numberValues_append, hname, hlpar, hrpar, hsemi, ← ihu hw.2.2.1,
      ← ihv hw.2.2.2.2.2.1, ← ihw hw.2.2.2.2.2.2, Phrase.numerals, FunctionDecl.numerals,
      FunctionDecl.localList]
  case noParams => rfl
  case params ih => exact ih hw
  case lastName hname => simp [hname, Phrase.numerals]
  case moreNames hname hcomma _ ih =>
    simp [hname, hcomma, ← ih hw.2.2, Phrase.numerals]
  case noLocals => rfl
  case locals ih => exact ih hw
  case block hlbrace _ hrbrace ih =>
    simp [numberValues_append, hlbrace, hrbrace, ← ih hw.2.1, Phrase.numerals]
  case lastStatement ih => exact ih hw
  case moreStatements _ hsemi _ ihu ihv =>
    simp [numberValues_append, hsemi, ← ihu hw.1, ← ihv hw.2.2, Phrase.numerals,
      Stmt.figuresAll_append]
  case emptyStatement => rfl
  case assignmentStatement ih => simp [← ih hw, Phrase.numerals, Stmt.figuresAll]
  case blockStatement ih => simp [← ih hw, Phrase.numerals, Stmt.figuresAll, Stmt.figures]
  case print hword hlpar _ hrpar ih =>
    simp [numberValues_append, hword, hlpar, hrpar, ← ih hw.2.2.1, Phrase.numerals,
      Stmt.figuresAll, Stmt.figures]
  case read hword hlpar hname hrpar =>
    simp [hword, hlpar, hname, hrpar, Phrase.numerals, Stmt.figuresAll, Stmt.figures]
  case ret hword _ ih =>
    simp [hword, ← ih hw.2, Phrase.numerals, Stmt.figuresAll, Stmt.figures]
  case loop hword hlpar _ hrpar _ ihu ihv =>
    simp [numberValues_append, hword, hlpar, hrpar, ← ihu hw.2.2.1, ← ihv hw.2.2.2.2,
      Phrase.numerals, Stmt.figuresAll, Stmt.figures]
  case branch hword hlpar _ hrpar _ _ ihu ihv ihw =>
    simp [numberValues_append, hword, hlpar, hrpar, ← ihu hw.2.2.1, ← ihv hw.2.2.2.2.1,
      ← ihw hw.2.2.2.2.2, Phrase.numerals, Stmt.figuresAll, Stmt.figures_branch]
  case noAlternative => rfl
  case alternative hword _ ih => simp [hword, ← ih hw.2, Phrase.numerals]
  case assignVariable hname heq _ ih =>
    simp [hname, heq, ← ih hw.2.2, Phrase.numerals, Stmt.figures, Target.figures]
  case assignElement hname hlbr _ hrbr heq _ ihu ihv =>
    simp [numberValues_append, hname, hlbr, hrbr, heq, ← ihu hw.2.2.1, ← ihv hw.2.2.2.2.2,
      Phrase.numerals, Stmt.figures, Target.figures, List.filterMap_cons, Figure.number?]
  case comparison _ hsign _ ihu ihv =>
    simp [numberValues_append, hsign.ne_number, ← ihu hw.1, ← ihv hw.2.2, Phrase.numerals,
      Expr.figures]
  case firstTerm ih => exact ih hw
  case sum _ hsign _ ihu ihv =>
    simp [numberValues_append, hsign.ne_number, ← ihu hw.1, ← ihv hw.2.2, Phrase.numerals,
      Expr.figures]
  case firstFactor ih => exact ih hw
  case product _ hsign _ ihu ihv =>
    simp [numberValues_append, hsign.ne_number, ← ihu hw.1, ← ihv hw.2.2, Phrase.numerals,
      Expr.figures]
  case number hnum hread =>
    simp [hnum, Phrase.numerals, Expr.figures, Figure.number?, toInt_eq_value hw hnum hread]
  case name hname => simp [hname, Phrase.numerals, Expr.figures]
  case element hname hlbr _ hrbr ih =>
    simp [numberValues_append, hname, hlbr, hrbr, ← ih hw.2.2.1, Phrase.numerals, Expr.figures,
      List.filterMap_cons, Figure.number?]
  case call hname hlpar _ hrpar ih =>
    simp [numberValues_append, hname, hlpar, hrpar, ← ih hw.2.2.1, Phrase.numerals,
      Expr.figures_call]
  case parenthesised hlpar _ hrpar ih =>
    simp [numberValues_append, hlpar, hrpar, ← ih hw.2.1, Phrase.numerals]
  case noArgs => rfl
  case args ih => exact ih hw
  case lastExpression ih => simp [← ih hw, Phrase.numerals, Expr.figuresAll]
  case moreExpressions _ hcomma _ ihu ihv =>
    simp [numberValues_append, hcomma, ← ihu hw.1, ← ihv hw.2.2, Phrase.numerals,
      Expr.figuresAll]

/-- The numbers in the tree of a source text are those of the text, in order. -/
lemma numerals_of_parseSource {source : String} {p : Program} {illegals : List IllegalCharacter}
    (h : (parseSource source).result = .ok (p, illegals)) :
    p.numerals = numberValues (scan source).tokens :=
  (derives_of_parseSource h).numerals_eq fun _ htoken => proper_of_mem_scan htoken

end DLang
