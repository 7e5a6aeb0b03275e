import DLang.Proofs.Grammar.Completeness
import DLang.Proofs.Source.Printable

/-!
# Writing programs

A printable tree is written as a list of lexemes, with semicolons between statements, commas between
the items of a list, and parentheses only where the grammar needs them: around a sum that is an
operand of a product, around every operation that is the right operand of a product, and around a
sum that is the right operand of a sum.  A text is written from the tree if it is laid out from
these lexemes.

The front end reads every such text back as the tree that it was written from
(`parseSource_written`).  Lexing finds the lexemes again because no two of them run together
(`Program.Printable.joinable`), and parsing finds the tree because the grammar derives it from the
lexemes, whatever lines they stand on (`Program.Printable.written`).
-/

namespace DLang

open Lexeme

/-! ## The lexemes of a tree -/

namespace ArithOp

/-- The operators that bind weaker. -/
def isSum : ArithOp → Bool
  | add | sub => true
  | mul | div => false

/-- The kind of the token of an operator. -/
def sign : ArithOp → Kind
  | add => .plus
  | sub => .minus
  | mul => .star
  | div => .slash

end ArithOp

/-- The kind of the token of a comparison. -/
def RelOp.sign : RelOp → Kind
  | equal => .doubleEqual
  | notEqual => .notEqual
  | less => .less
  | lessEqual => .lessEqual
  | greater => .greater
  | greaterEqual => .greaterEqual

namespace Expr

/-- Whether an expression is a sum or a difference. -/
def isSum : Expr → Bool
  | arith op _ _ _ => op.isSum
  | _ => false

/-- Whether an expression is an arithmetic operation. -/
def isArith : Expr → Bool
  | arith .. => true
  | _ => false

end Expr

/-- Lexemes in parentheses, if they need them. -/
def parenthesisedIf (needed : Bool) (w : List Lexeme) : List Lexeme :=
  if needed then ofKind .openParen :: (w ++ [ofKind .closeParen]) else w

/-- The lexemes of the items of a list, with a lexeme of the given kind between them. -/
def separated (kind : Kind) (items : List (List Lexeme)) : List Lexeme :=
  List.intercalate [ofKind kind] items

/-- The lexemes of statements as a block. -/
def braced (statements : List (List Lexeme)) : List Lexeme :=
  ofKind .openBrace :: (separated .semicolon statements ++ [ofKind .closeBrace])

mutual

/-- The lexemes of an expression. -/
def Expr.lexemes : Expr → List Lexeme
  | .integer value _ => [ofNat value.toInt.toNat]
  | .var name _ _ => [ofName name]
  | .element name index _ _ =>
    ofName name :: ofKind .openBracket :: (index.lexemes ++ [ofKind .closeBracket])
  | .arith op left right _ =>
    -- A sum is an expression and a term, a product a term and a factor.
    if op.isSum then
      left.lexemes ++ ofKind op.sign :: parenthesisedIf right.isSum right.lexemes
    else
      parenthesisedIf left.isSum left.lexemes ++
        ofKind op.sign :: parenthesisedIf right.isArith right.lexemes
  | .compare op left right _ => left.lexemes ++ ofKind op.sign :: right.lexemes
  | .call name none _ => [ofName name, ofKind .openParen, ofKind .closeParen]
  | .call name (some args) _ =>
    ofName name :: ofKind .openParen ::
      (separated .comma (Expr.lexemesAll args) ++ [ofKind .closeParen])

/-- The lexemes of each of some expressions. -/
def Expr.lexemesAll : List Expr → List (List Lexeme)
  | [] => []
  | e :: rest => e.lexemes :: Expr.lexemesAll rest

end

/-- The lexemes of a target. -/
def Target.lexemes : Target → List Lexeme
  | .var name _ => [ofName name]
  | .element name index _ =>
    ofName name :: ofKind .openBracket :: (index.lexemes ++ [ofKind .closeBracket])

mutual

/-- The lexemes of a statement. -/
def Stmt.lexemes : Stmt → List Lexeme
  | .assign target value _ _ => target.lexemes ++ ofKind .equal :: value.lexemes
  | .print value =>
    ofKind .printWord :: ofKind .openParen :: (value.lexemes ++ [ofKind .closeParen])
  | .read name _ => [ofKind .readWord, ofKind .openParen, ofName name, ofKind .closeParen]
  | .ret value => ofKind .returnWord :: value.lexemes
  | .branch condition yes none =>
    ofKind .ifWord :: ofKind .openParen :: (condition.lexemes ++ ofKind .closeParen ::
      braced (Stmt.lexemesAll yes))
  | .branch condition yes (some no) =>
    ofKind .ifWord :: ofKind .openParen :: (condition.lexemes ++ ofKind .closeParen ::
      (braced (Stmt.lexemesAll yes) ++ ofKind .elseWord :: braced (Stmt.lexemesAll no)))
  | .loop condition body =>
    ofKind .whileWord :: ofKind .openParen :: (condition.lexemes ++ ofKind .closeParen ::
      braced (Stmt.lexemesAll body))
  | .block body => braced (Stmt.lexemesAll body)

/-- The lexemes of each of some statements. -/
def Stmt.lexemesAll : List Stmt → List (List Lexeme)
  | [] => []
  | s :: rest => s.lexemes :: Stmt.lexemesAll rest

end

/-- The lexemes of a definition. -/
def VarDef.lexemes : VarDef → List Lexeme
  | .scalar name => [ofName name]
  | .array name size => [ofName name, ofKind .openBracket, ofNat size, ofKind .closeBracket]

/-- The lexemes of a group of definitions. -/
def VarDef.groupLexemes (group : List VarDef) : List Lexeme :=
  ofKind .intWord :: (separated .comma (group.map VarDef.lexemes) ++ [ofKind .semicolon])

/-- The lexemes of a function. -/
def FunctionDecl.lexemes (f : FunctionDecl) : List Lexeme :=
  ofName f.name :: ofKind .openParen ::
    (separated .comma (f.paramList.map fun name => [ofName name]) ++
      ofKind .closeParen :: ofKind .semicolon ::
        ((f.locals.map VarDef.groupLexemes).getD [] ++ braced (f.body.map Stmt.lexemes)))

/-- The lexemes of a declaration. -/
def Decl.lexemes : Decl → List Lexeme
  | .vars group => VarDef.groupLexemes group
  | .function f => f.lexemes

/-- The lexemes of a program. -/
def Program.lexemes (p : Program) : List Lexeme :=
  p.declarationList.flatMap Decl.lexemes ++ braced (p.body.map Stmt.lexemes)

@[simp] lemma Expr.lexemesAll_eq_map (list : List Expr) :
    Expr.lexemesAll list = list.map Expr.lexemes := by
  induction list with
  | nil => rfl
  | cons e rest ih => rw [Expr.lexemesAll, ih, List.map_cons]

@[simp] lemma Stmt.lexemesAll_eq_map (list : List Stmt) :
    Stmt.lexemesAll list = list.map Stmt.lexemes := by
  induction list with
  | nil => rfl
  | cons s rest ih => rw [Stmt.lexemesAll, ih, List.map_cons]

lemma Expr.lexemes_call (name : String) (args : Option (List Expr)) (ty : Option Ty) :
    (Expr.call name args ty).lexemes = ofName name :: ofKind .openParen ::
      (separated .comma ((args.getD []).map Expr.lexemes) ++ [ofKind .closeParen]) := by
  cases args with
  | none => rfl
  | some args => simp [Expr.lexemes]

/-- The lexemes of the alternative of a branch. -/
def alternativeLexemes : Option (List Stmt) → List Lexeme
  | none => []
  | some no => ofKind .elseWord :: braced (no.map Stmt.lexemes)

lemma Stmt.lexemes_branch (condition : Expr) (yes : List Stmt) (no : Option (List Stmt)) :
    (Stmt.branch condition yes no).lexemes = ofKind .ifWord :: ofKind .openParen ::
      (condition.lexemes ++ ofKind .closeParen ::
        (braced (yes.map Stmt.lexemes) ++ alternativeLexemes no)) := by
  cases no <;> simp [Stmt.lexemes, alternativeLexemes]

/-! ## Texts of a program -/

/-- The texts that are written from a program: its lexemes, with any blanks between them. -/
def Program.WrittenAs (p : Program) (text : String) : Prop :=
  Laid p.lexemes text.toList

/-- The text of a program that has one blank between any two lexemes. -/
def Program.source (p : Program) : String :=
  " ".intercalate (p.lexemes.map Lexeme.text)

/-- Lexemes with a blank between any two of them are laid out. -/
lemma laid_intercalate (w : List Lexeme) :
    Laid w (List.intercalate [' '] (w.map fun l => l.text.toList)) := by
  induction w with
  | nil => exact .nil
  | cons l rest ih =>
    cases rest with
    | nil =>
      have h : Laid [l] (l.text.toList ++ []) := .lexeme (by simp) .nil
      simpa using h
    | cons next rest =>
      rw [List.map_cons, List.map_cons, List.intercalate_cons_cons, List.append_assoc]
      have hblank : Segment.isWordChar ' ' = false := rfl
      exact .lexeme (by simp [hblank]) (.blank rfl ih)

lemma Program.writtenAs_source (p : Program) : p.WrittenAs p.source := by
  rw [WrittenAs, source, String.toList_intercalate, List.map_map]
  exact laid_intercalate p.lexemes

/-! ## No two lexemes run together -/

/-- The first of the lexemes can follow every symbol. -/
def StartsOperand (w : List Lexeme) : Prop :=
  ∃ next rest, w = next :: rest ∧ next.kind ∈ operandStarts

lemma startsOperand_ofName (name : String) (w : List Lexeme) : StartsOperand (ofName name :: w) :=
  ⟨_, _, rfl, by simp [ofName, operandStarts]⟩

lemma StartsOperand.append {u : List Lexeme} (h : StartsOperand u) (v : List Lexeme) :
    StartsOperand (u ++ v) := by
  obtain ⟨next, rest, rfl, hnext⟩ := h
  exact ⟨next, rest ++ v, rfl, hnext⟩

lemma StartsOperand.parenthesisedIf {w : List Lexeme} (h : StartsOperand w) (needed : Bool) :
    StartsOperand (parenthesisedIf needed w) := by
  cases needed with
  | true => exact ⟨_, _, rfl, by decide⟩
  | false => exact h

lemma Lexeme.proper_ofKind {kind : Kind} (h : kind.spelling?.isSome = true) :
    (ofKind kind).Proper := by
  obtain ⟨text, htext⟩ := Option.isSome_iff_exists.1 h
  rw [ofKind, htext]
  exact .spelled htext

lemma Lexeme.proper_ofNat (n : Nat) : (ofNat n).Proper :=
  .number (Text.toList_toString_ne_nil n) fun _ hd => Text.isDigit_of_mem_toString hd

namespace Joinable

variable {w : List Lexeme}

lemma ofKind {kind : Kind} (hkind : kind.spelling?.isSome = true ∧ kind ∉ openSigns)
    (h : Joinable w) : Joinable (ofKind kind :: w) :=
  .cons (proper_ofKind hkind.1) hkind.2 h

lemma ofKind_operand {kind : Kind} (hkind : kind.spelling?.isSome = true)
    (hstart : StartsOperand w) (h : Joinable w) : Joinable (Lexeme.ofKind kind :: w) := by
  obtain ⟨next, rest, rfl, hnext⟩ := hstart
  exact .sign (proper_ofKind hkind) hnext h

lemma ofName {name : String} (hname : IsName name) (h : Joinable w) :
    Joinable (ofName name :: w) :=
  .cons (isName_iff_proper.1 hname) (by simp [Lexeme.ofName, openSigns]) h

lemma ofNat (n : Nat) (h : Joinable w) : Joinable (ofNat n :: w) :=
  .cons (proper_ofNat n) (by simp [Lexeme.ofNat, openSigns]) h

lemma parenthesisedIf (h : Joinable w) (needed : Bool) : Joinable (parenthesisedIf needed w) := by
  cases needed with
  | true => exact ofKind (by decide) (h.append (ofKind (by decide) .nil))
  | false => exact h

lemma separated {kind : Kind} (hkind : kind.spelling?.isSome = true ∧ kind ∉ openSigns)
    {items : List (List Lexeme)} (h : ∀ item ∈ items, Joinable item) :
    Joinable (separated kind items) := by
  rw [DLang.separated]
  induction items with
  | nil => exact .nil
  | cons item rest ih =>
    obtain ⟨hitem, hrest⟩ := List.forall_mem_cons.1 h
    cases rest with
    | nil => simpa using hitem
    | cons next rest =>
      rw [List.intercalate_cons_cons, List.append_assoc]
      exact hitem.append (ofKind hkind (ih hrest))

lemma commas {items : List (List Lexeme)} (h : ∀ item ∈ items, Joinable item) :
    Joinable (DLang.separated .comma items) :=
  separated (by decide) h

lemma braced {statements : List (List Lexeme)} (h : ∀ s ∈ statements, Joinable s) :
    Joinable (braced statements) :=
  ofKind (by decide) ((separated (by decide) h).append (ofKind (by decide) .nil))

end Joinable

lemma Expr.Printable.startsOperand {e : Expr} (h : e.Printable) : StartsOperand e.lexemes := by
  induction h with
  | integer _ => exact ⟨_, _, rfl, by simp [ofNat, operandStarts]⟩
  | var _ => exact startsOperand_ofName _ _
  | element _ _ _ => exact startsOperand_ofName _ _
  | arith _ _ ihl _ =>
    rw [Expr.lexemes]
    split
    · exact ihl.append _
    · exact (ihl.parenthesisedIf _).append _
  | call _ _ _ _ =>
    rw [Expr.lexemes_call]
    exact startsOperand_ofName _ _

lemma ArithOp.isSome_spelling?_sign (op : ArithOp) : op.sign.spelling?.isSome = true := by
  cases op <;> rfl

lemma RelOp.isSome_spelling?_sign (op : RelOp) : op.sign.spelling?.isSome = true := by
  cases op <;> rfl

lemma Expr.Printable.joinable {e : Expr} (h : e.Printable) : Joinable e.lexemes := by
  induction h with
  | integer _ => exact .ofNat _ .nil
  | var hname => exact .ofName hname .nil
  | element hname _ ih =>
    exact .ofName hname (.ofKind (by decide) (ih.append (.ofKind (by decide) .nil)))
  | @arith op left right _ hright ihl ihr =>
    -- The sign could run together with an equals sign or a star; the right operand starts with
    -- neither.
    have hoperand : ∀ needed, Joinable (ofKind op.sign :: parenthesisedIf needed right.lexemes) :=
      fun needed => .ofKind_operand op.isSome_spelling?_sign
        (hright.startsOperand.parenthesisedIf needed) (ihr.parenthesisedIf needed)
    rw [Expr.lexemes]
    split
    · exact ihl.append (hoperand _)
    · exact (ihl.parenthesisedIf _).append (hoperand _)
  | call hname _ _ ih =>
    rw [Expr.lexemes_call]
    have hargs := Joinable.commas (List.forall_mem_map.2 ih)
    exact .ofName hname (.ofKind (by decide) (hargs.append (.ofKind (by decide) .nil)))

lemma Expr.PrintableCondition.joinable {e : Expr} (h : e.PrintableCondition) :
    Joinable e.lexemes := by
  obtain ⟨hleft, hright⟩ := h
  exact hleft.joinable.append
    (.ofKind_operand (RelOp.isSome_spelling?_sign _) hright.startsOperand hright.joinable)

lemma Target.Printable.joinable {target : Target} (h : target.Printable) :
    Joinable target.lexemes := by
  cases h with
  | var hname => exact .ofName hname .nil
  | element hname hindex =>
    exact .ofName hname (.ofKind (by decide) (hindex.joinable.append (.ofKind (by decide) .nil)))

lemma Stmt.Printable.joinable {s : Stmt} (h : s.Printable) : Joinable s.lexemes := by
  induction h with
  | assign htarget hvalue =>
    exact htarget.joinable.append (.ofKind_operand rfl hvalue.startsOperand hvalue.joinable)
  | print hvalue =>
    exact .ofKind (by decide) (.ofKind (by decide)
      (hvalue.joinable.append (.ofKind (by decide) .nil)))
  | read hname =>
    exact .ofKind (by decide) (.ofKind (by decide) (.ofName hname (.ofKind (by decide) .nil)))
  | ret hvalue => exact .ofKind (by decide) hvalue.joinable
  | @branch condition yes no hcondition _ _ ihyes ihno =>
    rw [Stmt.lexemes_branch]
    have hyes := Joinable.braced (List.forall_mem_map.2 ihyes)
    have hno : Joinable (alternativeLexemes no) := by
      cases no with
      | none => exact .nil
      | some no => exact .ofKind (by decide) (.braced (List.forall_mem_map.2 ihno))
    exact .ofKind (by decide) (.ofKind (by decide)
      (hcondition.joinable.append (.ofKind (by decide) (hyes.append hno))))
  | loop hcondition _ ih =>
    rw [Stmt.lexemes, Stmt.lexemesAll_eq_map]
    exact .ofKind (by decide) (.ofKind (by decide) (hcondition.joinable.append
      (.ofKind (by decide) (.braced (List.forall_mem_map.2 ih)))))
  | block _ ih =>
    rw [Stmt.lexemes, Stmt.lexemesAll_eq_map]
    exact .braced (List.forall_mem_map.2 ih)

lemma VarDef.Printable.joinable {d : VarDef} (h : d.Printable) : Joinable d.lexemes := by
  cases h with
  | scalar hname => exact .ofName hname .nil
  | array hname _ =>
    exact .ofName hname (.ofKind (by decide) (.ofNat _ (.ofKind (by decide) .nil)))

lemma VarDef.joinable_groupLexemes {group : List VarDef} (h : ∀ d ∈ group, d.Printable) :
    Joinable (groupLexemes group) :=
  .ofKind (by decide) ((Joinable.commas (List.forall_mem_map.2 fun d hd =>
    (h d hd).joinable)).append (.ofKind (by decide) .nil))

lemma FunctionDecl.Printable.joinable {f : FunctionDecl} (h : f.Printable) :
    Joinable f.lexemes := by
  have hparams := Joinable.commas
    (List.forall_mem_map.2 fun name hname => Joinable.ofName (h.params name hname) .nil)
  have hlocals : Joinable ((f.locals.map VarDef.groupLexemes).getD []) := by
    cases hgroup : f.locals with
    | none => exact .nil
    | some group =>
      refine VarDef.joinable_groupLexemes fun d hd => h.locals d ?_
      rw [FunctionDecl.localList, hgroup]
      exact hd
  have hbody := Joinable.braced (List.forall_mem_map.2 fun s hs => (h.body s hs).joinable)
  exact .ofName h.name (.ofKind (by decide) (hparams.append
    (.ofKind (by decide) (.ofKind (by decide) (hlocals.append hbody)))))

lemma Decl.Printable.joinable {d : Decl} (h : d.Printable) : Joinable d.lexemes := by
  cases h with
  | vars _ hgroup => exact VarDef.joinable_groupLexemes hgroup
  | function hf => exact hf.joinable

/-- No two lexemes of a printable program run together. -/
lemma Program.Printable.joinable {p : Program} (h : p.Printable) : Joinable p.lexemes := by
  have hdeclarations : ∀ list : List Decl, (∀ d ∈ list, d.Printable) →
      Joinable (list.flatMap Decl.lexemes) := by
    intro list hlist
    induction list with
    | nil => exact .nil
    | cons d rest ih =>
      obtain ⟨hd, hrest⟩ := List.forall_mem_cons.1 hlist
      exact hd.joinable.append (ih hrest)
  exact (hdeclarations _ h.declarations).append
    (.braced (List.forall_mem_map.2 fun s hs => (h.body s hs).joinable))

/-! ## The grammar derives the tree -/

/-- Lexemes as tokens, with the numbers of their lines. -/
def placed (line : Nat → Nat) (w : List Lexeme) : List Token :=
  w.mapIdx fun n l => { kind := l.kind, text := l.text, line := line n }

@[simp] lemma placed_cons (line : Nat → Nat) (l : Lexeme) (w : List Lexeme) :
    placed line (l :: w) = { kind := l.kind, text := l.text, line := line 0 } ::
      placed (fun n => line (n + 1)) w :=
  List.mapIdx_cons

@[simp] lemma placed_append (line : Nat → Nat) (u v : List Lexeme) :
    placed line (u ++ v) = placed line u ++ placed (fun n => line (n + u.length)) v :=
  List.mapIdx_append

/-- Tokens are their lexemes with the lines that they stand on. -/
lemma exists_placed (tokens : List Token) :
    ∃ line, placed line (tokens.map Token.lexeme) = tokens := by
  refine ⟨fun n => (tokens[n]?.map Token.line).getD 0, ?_⟩
  refine List.ext_getElem (by simp [placed]) fun n _ hn => ?_
  simp [placed, Token.lexeme, hn]

/-- The grammar derives the phrase from the lexemes, whatever lines they stand on. -/
def Written (w : List Lexeme) (phrase : Phrase) : Prop :=
  ∀ line, Derives (placed line w) phrase

namespace Expr

/-- The phrase for the tightest nonterminal that derives an expression without parentheses. -/
def phrase (e : Expr) : Phrase :=
  if e.isSum then .expression e else if e.isArith then .term e else .factor e

variable {e : Expr}

lemma written_expression (h : Written e.lexemes e.phrase) :
    Written e.lexemes (.expression e) := by
  intro line
  have hderives := h line
  unfold phrase at hderives
  split at hderives
  · exact hderives
  · split at hderives
    · exact .firstTerm hderives
    · exact .firstTerm (.firstFactor hderives)

lemma written_parenthesised {w : List Lexeme} (h : Written w (.expression e)) :
    Written (ofKind .openParen :: (w ++ [ofKind .closeParen])) (.factor e) := by
  intro line
  simp only [placed_cons, placed_append]
  exact .parenthesised rfl (h _) rfl

/-- An expression is a term, in parentheses if it is a sum. -/
lemma written_term (h : Written e.lexemes e.phrase) :
    Written (parenthesisedIf e.isSum e.lexemes) (.term e) := by
  intro line
  cases hsum : e.isSum with
  | true => exact .firstFactor (written_parenthesised (written_expression h) line)
  | false =>
    have hderives := h line
    simp only [phrase, hsum, Bool.false_eq_true, if_false] at hderives
    split at hderives
    · exact hderives
    · exact .firstFactor hderives

/-- An expression is a factor, in parentheses if it is an operation. -/
lemma written_factor (h : Written e.lexemes e.phrase) :
    Written (parenthesisedIf e.isArith e.lexemes) (.factor e) := by
  intro line
  cases harith : e.isArith with
  | true => exact written_parenthesised (written_expression h) line
  | false =>
    have hsum : e.isSum = false := by
      cases e <;> first | rfl | simp [isArith] at harith
    have hderives := h line
    simp only [phrase, hsum, harith, Bool.false_eq_true, if_false] at hderives
    exact hderives

end Expr

lemma ArithOp.sumSign {op : ArithOp} (h : op.isSum = true) : SumSign op.sign op := by
  cases op <;> first | constructor | cases h

lemma ArithOp.productSign {op : ArithOp} (h : op.isSum = false) : ProductSign op.sign op := by
  cases op <;> first | constructor | cases h

lemma RelOp.relSign (op : RelOp) : RelSign op.sign op := by
  cases op <;> constructor

/-- A list is derived from the lexemes of its items, if the grammar has a rule for one item and a
rule for one item, a separator and the rest. -/
lemma derives_separated {α : Type} {kind : Kind} {write : α → List Lexeme}
    {P : List Token → α → Prop} {L : List α → Phrase}
    (last : ∀ {w a}, P w a → Derives w (L [a]))
    (more : ∀ {u v separator a rest}, P u a → separator.kind = kind →
      Derives v (L rest) → Derives (u ++ separator :: v) (L (a :: rest)))
    {items : List α} (hne : items ≠ [])
    (h : ∀ a ∈ items, ∀ line, P (placed line (write a)) a) :
    Written (separated kind (items.map write)) (L items) := by
  rw [separated]
  induction items with
  | nil => exact absurd rfl hne
  | cons a rest ih =>
    obtain ⟨ha, hrest⟩ := List.forall_mem_cons.1 h
    intro line
    cases rest with
    | nil =>
      simp only [List.map_cons, List.map_nil, List.intercalate_singleton]
      exact last (ha line)
    | cons next rest =>
      simp only [List.map_cons, List.intercalate_cons_cons, List.append_assoc,
        List.singleton_append, placed_append, placed_cons]
      exact more (ha line) rfl (ih (List.cons_ne_nil _ _) hrest _)

lemma written_args {args : Option (List Expr)} (hne : args ≠ some [])
    (h : ∀ e ∈ args.getD [], Written e.lexemes (.expression e)) :
    Written (separated .comma ((args.getD []).map Expr.lexemes)) (.args args) := by
  intro line
  cases args with
  | none => exact .noArgs
  | some list =>
    have hlist : list ≠ [] := fun heq => hne (congrArg some heq)
    exact .args (derives_separated (P := fun w e => Derives w (.expression e))
      .lastExpression .moreExpressions hlist h line)

lemma Expr.Printable.written_phrase {e : Expr} (h : e.Printable) :
    Written e.lexemes e.phrase := by
  induction h with
  | @integer value hvalue =>
    intro line
    refine .number rfl (Text.readInt32_toString ?_)
    exact Int.toNat_of_nonneg hvalue
  | var _ =>
    intro line
    exact .name rfl
  | element _ _ ih =>
    intro line
    simp only [Expr.lexemes, placed_cons, placed_append]
    exact .element rfl rfl (Expr.written_expression ih _) rfl
  | @arith op left right _ _ ihl ihr =>
    -- Each operand stands in the tightest place that it is written for, so the rules for sums and
    -- products take it with or without its parentheses.
    intro line
    cases hop : op.isSum with
    | true =>
      simp only [Expr.lexemes, Expr.phrase, Expr.isSum, hop, if_true, placed_append, placed_cons]
      exact .sum (Expr.written_expression ihl _) (op.sumSign hop) (Expr.written_term ihr _)
    | false =>
      simp only [Expr.lexemes, Expr.phrase, Expr.isSum, Expr.isArith, hop, Bool.false_eq_true,
        if_false, if_true, placed_append, placed_cons]
      exact .product (Expr.written_term ihl _) (op.productSign hop) (Expr.written_factor ihr _)
  | call _ hne _ ih =>
    intro line
    rw [Expr.lexemes_call]
    simp only [placed_cons, placed_append]
    exact .call rfl rfl (written_args hne (fun e he => Expr.written_expression (ih e he)) _) rfl

lemma Expr.Printable.written {e : Expr} (h : e.Printable) : Written e.lexemes (.expression e) :=
  Expr.written_expression h.written_phrase

lemma Expr.PrintableCondition.written {e : Expr} (h : e.PrintableCondition) :
    Written e.lexemes (.comparison e) := by
  obtain ⟨hleft, hright⟩ := h
  intro line
  simp only [Expr.lexemes, placed_append, placed_cons]
  exact .comparison (hleft.written _) (RelOp.relSign _) (hright.written _)

lemma written_block {body : List Stmt} (h : ∀ s ∈ body, Written s.lexemes (.statement (some s))) :
    Written (braced (body.map Stmt.lexemes)) (.block body) := by
  intro line
  simp only [braced, placed_cons, placed_append]
  refine .block rfl ?_ rfl
  cases body with
  | nil => exact .lastStatement .emptyStatement
  | cons s rest =>
    exact derives_separated (P := fun w s => Derives w (.statement (some s)))
      .lastStatement .moreStatements (List.cons_ne_nil s rest) h _

lemma written_assignment {target : Target} {value : Expr} (htarget : target.Printable)
    (hvalue : value.Printable) :
    Written (Stmt.assign target value none none).lexemes
      (.assignment (.assign target value none none)) := by
  intro line
  cases htarget with
  | var _ =>
    simp only [Stmt.lexemes, Target.lexemes, List.cons_append, List.nil_append, placed_cons]
    exact .assignVariable rfl rfl (hvalue.written _)
  | element _ hindex =>
    simp only [Stmt.lexemes, Target.lexemes, List.cons_append, List.nil_append, List.append_assoc,
      placed_cons, placed_append]
    exact .assignElement rfl rfl (hindex.written _) rfl rfl (hvalue.written _)

lemma Stmt.Printable.written {s : Stmt} (h : s.Printable) :
    Written s.lexemes (.statement (some s)) := by
  induction h with
  | assign htarget hvalue =>
    intro line
    exact .assignmentStatement (written_assignment htarget hvalue line)
  | print hvalue =>
    intro line
    simp only [Stmt.lexemes, placed_cons, placed_append]
    exact .print rfl rfl (hvalue.written _) rfl
  | read _ =>
    intro line
    exact .read rfl rfl rfl rfl
  | ret hvalue =>
    intro line
    simp only [Stmt.lexemes, placed_cons]
    exact .ret rfl (hvalue.written _)
  | @branch condition yes no hcondition _ _ ihyes ihno =>
    intro line
    have hno : Written (alternativeLexemes no) (.alternative no) := by
      intro line
      cases no with
      | none => exact .noAlternative
      | some no =>
        simp only [alternativeLexemes, placed_cons]
        exact .alternative rfl (written_block ihno _)
    simp only [Stmt.lexemes_branch, placed_cons, placed_append]
    exact .branch rfl rfl (hcondition.written _) rfl (written_block ihyes _) (hno _)
  | loop hcondition _ ih =>
    intro line
    simp only [Stmt.lexemes, Stmt.lexemesAll_eq_map, placed_cons, placed_append]
    exact .loop rfl rfl (hcondition.written _) rfl (written_block ih _)
  | block _ ih =>
    intro line
    simp only [Stmt.lexemes, Stmt.lexemesAll_eq_map]
    exact .blockStatement (written_block ih line)

lemma VarDef.Printable.written {d : VarDef} (h : d.Printable) :
    Written d.lexemes (.definition d) := by
  intro line
  cases h with
  | scalar _ => exact .scalarDefinition rfl
  | @array name size _ hsize =>
    have hvalue : (Int32.ofNat size).toInt = size := Int32.toInt_ofNat_of_lt (by omega)
    have hlength : Text.lengthOf (Int32.ofNat size) = size := by
      rw [Text.lengthOf_of_nonneg (by omega), hvalue]
      rfl
    have hread : Text.readInt32 (toString size) = some (Int32.ofNat size) :=
      Text.readInt32_toString hvalue.symm
    have hderives : Derives (placed line (VarDef.array name size).lexemes)
        (.definition (.array name (Text.lengthOf (Int32.ofNat size)))) :=
      .arrayDefinition rfl rfl rfl hread rfl
    rwa [hlength] at hderives

lemma VarDef.written_groupLexemes {group : List VarDef} (hne : group ≠ [])
    (h : ∀ d ∈ group, d.Printable) : Written (groupLexemes group) (.variables group) := by
  intro line
  simp only [groupLexemes, placed_cons, placed_append]
  refine .variableGroup rfl ?_ rfl
  exact derives_separated (P := fun w d => Derives w (.definition d))
    .lastDefinition .moreDefinitions hne (fun d hd => (h d hd).written) _

lemma written_params {params : Option (List String)} (hne : params ≠ some []) :
    Written (separated .comma ((params.getD []).map fun name => [ofName name]))
      (.params params) := by
  intro line
  cases params with
  | none => exact .noParams
  | some list =>
    have hlist : list ≠ [] := fun heq => hne (congrArg some heq)
    refine .params (derives_separated (L := .names) (P := fun w name => ∃ token : Token,
      token.kind = .identifier ∧ w = [token] ∧ token.text = name) ?_ ?_ hlist ?_ line)
    · rintro _ _ ⟨token, hkind, rfl, rfl⟩
      exact .lastName hkind
    · rintro _ _ _ _ _ ⟨token, hkind, rfl, rfl⟩ hcomma hrest
      exact .moreNames hkind hcomma hrest
    · intro name _ line
      exact ⟨_, rfl, rfl, rfl⟩

lemma FunctionDecl.Printable.written {f : FunctionDecl} (h : f.Printable) :
    Written f.lexemes (.function f) := by
  have hlocals : Written ((f.locals.map VarDef.groupLexemes).getD []) (.locals f.locals) := by
    intro line
    cases hgroup : f.locals with
    | none => exact .noLocals
    | some group =>
      have hne : group ≠ [] := by
        rintro rfl
        exact h.locals_ne hgroup
      refine .locals (VarDef.written_groupLexemes hne (fun d hd => h.locals d ?_) line)
      rw [FunctionDecl.localList, hgroup]
      exact hd
  intro line
  simp only [FunctionDecl.lexemes, placed_cons, placed_append]
  exact .function rfl rfl (written_params h.params_ne _) rfl rfl (hlocals _)
    (written_block (fun s hs => (h.body s hs).written) _)

lemma Decl.Printable.written {d : Decl} (h : d.Printable) : Written d.lexemes (.declaration d) := by
  intro line
  cases h with
  | vars hne hgroup => exact .variablesDeclaration (VarDef.written_groupLexemes hne hgroup line)
  | function hf => exact .functionDeclaration (hf.written line)

lemma written_declarations {list : List Decl} (hne : list ≠ []) (h : ∀ d ∈ list, d.Printable) :
    Written (list.flatMap Decl.lexemes) (.declarations list) := by
  induction list with
  | nil => exact absurd rfl hne
  | cons d rest ih =>
    obtain ⟨hd, hrest⟩ := List.forall_mem_cons.1 h
    intro line
    cases rest with
    | nil =>
      simp only [List.flatMap_cons, List.flatMap_nil, List.append_nil]
      exact .lastDeclaration (hd.written line)
    | cons next rest =>
      rw [List.flatMap_cons, placed_append]
      exact .moreDeclarations (hd.written line) (ih (List.cons_ne_nil _ _) hrest _)

/-- The grammar derives a printable program from its lexemes. -/
lemma Program.Printable.written {p : Program} (h : p.Printable) :
    Written p.lexemes (.program p) := by
  obtain ⟨declarations, body⟩ := p
  have hbody := written_block fun s hs => (h.body s hs).written
  intro line
  cases declarations with
  | none => exact .bareProgram (hbody line)
  | some list =>
    have hne : list ≠ [] := fun heq => h.declarations_ne (congrArg some heq)
    rw [Program.lexemes, placed_append]
    exact .program (written_declarations hne h.declarations line) (hbody _)

/-! ## Reading back what is written -/

/-- The front end returns the tree that the grammar derives from the tokens, and the illegal
characters that lexing found. -/
lemma parseSource_of_derives {source : String} {p : Program}
    (h : Derives (scan source).tokens (.program p)) :
    (parseSource source).result = .ok (p, (scan source).illegals) := by
  have hparse : (Logged.ofExcept ((parse (scan source).tokens).result.mapError
      CompileError.parse)).result = .ok p := by
    rw [parse_of_derives h]
    rfl
  rw [parseSource, Logged.bind_of_ok (a := scan source) rfl, Logged.bind_of_ok hparse]
  rfl

/-- A text that is written from a printable program is read back as that program. -/
lemma Program.Printable.parseSource_of_writtenAs {p : Program} (h : p.Printable) {text : String}
    (htext : p.WrittenAs text) : (parseSource text).result = .ok (p, []) := by
  obtain ⟨hlexemes, hillegals⟩ := scan_of_laid htext h.joinable
  obtain ⟨line, hline⟩ := exists_placed (scan text).tokens
  have hderives : Derives (scan text).tokens (.program p) := by
    rw [← hline, hlexemes]
    exact h.written line
  rw [parseSource_of_derives hderives, hillegals]

/-- The trees of source texts are the printable ones.  Every tree that is parsed from a source text
is printable, and every printable tree can be written as a text, from which, however it is laid out,
lexing finds no illegal character and parsing returns exactly that tree. -/
theorem parseSource_written :
    (∀ (source : String) (p : Program) (illegals : List IllegalCharacter),
      (parseSource source).result = .ok (p, illegals) → p.Printable) ∧
    ∀ p : Program, p.Printable →
      p.WrittenAs p.source ∧
        ∀ text : String, p.WrittenAs text → (parseSource text).result = .ok (p, []) :=
  ⟨fun _ _ _ h => printable_of_parseSource h,
    fun p h => ⟨p.writtenAs_source, fun _ htext => h.parseSource_of_writtenAs htext⟩⟩

/-- An assignment with two sums that need parentheses and a quotient that needs none. -/
def nestedSums : Program where
  declarations := none
  body :=
    [.assign (.var "x" none)
      (.arith .add
        (.arith .mul (.integer 2 none)
          (.arith .sub (.var "x" none none)
            (.arith .add (.integer 1 none) (.var "x" none none) none) none) none)
        (.arith .div (.var "x" none none) (.integer 3 none) none) none)
      none none]

lemma printable_nestedSums : nestedSums.Printable := by
  have hname : IsName "x" := ⟨by decide, by decide⟩
  refine ⟨by simp [nestedSums], by simp [nestedSums, Program.declarationList], ?_⟩
  refine List.forall_mem_singleton.2 (.assign (.var hname) (.arith (.arith ?_ ?_) ?_))
  · exact .integer (by decide)
  · exact .arith (.var hname) (.arith (.integer (by decide)) (.var hname))
  · exact .arith (.var hname) (.integer (by decide))

theorem parseSource_source_nestedSums :
    nestedSums.source = "\x7b x = 2 * ( x - ( 1 + x ) ) + x / 3 \x7d" ∧
      (parseSource nestedSums.source).result = .ok (nestedSums, []) := by
  obtain ⟨hwritten, hread⟩ := parseSource_written.2 nestedSums printable_nestedSums
  exact ⟨by cbv, hread nestedSums.source hwritten⟩

end DLang
