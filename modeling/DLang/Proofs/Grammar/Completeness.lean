import DLang.Proofs.Grammar.Soundness

/-!
# What can be derived is read

A reader decides by one token, and takes as much as it can.  So a word of a nonterminal is read in
full, with the tree of its derivation, if what follows the word cannot extend it.  `Phrase.IsRead`
says this for each nonterminal, with the tokens that may follow it in the grammar, and there is one
lemma for each rule.

An operand on the left of a sum is itself a sum, but the reader does not stop after it: the reader
goes on extending what it has.  So the statement for expressions, and that for terms, is about all
that the extending reader can make of the word's tree and the tokens after it.

Together with soundness this gives the main result, `parse_ok_iff_derives`: parsing decides the
grammar, and the grammar is unambiguous.
-/

namespace DLang

/-! ## What may follow a word -/

/-- The tokens do not start with one of the kinds. -/
def Avoids (kinds : List Kind) (tokens : List Token) : Prop :=
  ∀ token ∈ tokens.head?, token.kind ∉ kinds

lemma avoids_cons {kinds : List Kind} {token : Token} {tokens : List Token} :
    Avoids kinds (token :: tokens) ↔ token.kind ∉ kinds := by
  simp [Avoids]

lemma Avoids.of_subset {kinds kinds' : List Kind} {tokens : List Token} (h : Avoids kinds tokens)
    (hsubset : kinds' ⊆ kinds) : Avoids kinds' tokens :=
  fun token htoken hmem => h token htoken (hsubset hmem)

/-- The kinds of token by which a factor that is a name goes on. -/
def factorSigns : List Kind :=
  [.openParen, .openBracket]

/-- The kinds of token by which a term goes on. -/
def termSigns : List Kind :=
  [.star, .slash, .openParen, .openBracket]

/-- The kinds of token by which an expression goes on. -/
def exprSigns : List Kind :=
  [.plus, .minus, .star, .slash, .openParen, .openBracket]

lemma SumSign.notMem_termSigns {kind : Kind} {op : ArithOp} (h : SumSign kind op) :
    kind ∉ termSigns := by
  cases h <;> decide

lemma ProductSign.notMem_factorSigns {kind : Kind} {op : ArithOp} (h : ProductSign kind op) :
    kind ∉ factorSigns := by
  cases h <;> decide

lemma RelSign.notMem_exprSigns {kind : Kind} {op : RelOp} (h : RelSign kind op) :
    kind ∉ exprSigns := by
  cases h <;> decide

/-- A word of the phrase's nonterminal is read with the phrase's tree, whatever follows it that
cannot extend it. -/
def Phrase.IsRead (w : List Token) : Phrase → Prop
  | .program p => (readProgram w).Gives p []
  | .declarations list =>
    list ≠ [] ∧ ∀ rest, headKind rest = some .openBrace → (readDecls (w ++ rest)).Gives list rest
  | .declaration d =>
    ∀ rest list rest', (readDecls rest).Gives list rest' →
      (readDecls (w ++ rest)).Gives (d :: list) rest'
  | .variables group =>
    ∃ int v, w = int :: v ∧ int.kind = .intWord ∧
      ∀ rest, (readVariables (v ++ rest)).Gives group rest
  | .definitions group =>
    ∀ semi rest, semi.kind = .semicolon → (readVariables (w ++ semi :: rest)).Gives group rest
  | .definition d => ∀ rest, Avoids [.openBracket] rest → (readVarDef (w ++ rest)).Gives d rest
  | .function f =>
    ∃ name v, w = name :: v ∧ name.kind = .identifier ∧
      ∀ rest, (readFunction name.text (v ++ rest)).Gives f rest
  | .params list =>
    ∀ close rest, close.kind = .closeParen → (readParams (w ++ close :: rest)).Gives list rest
  | .names list =>
    ∃ name more v, list = name.text :: more ∧ w = name :: v ∧ name.kind = .identifier ∧
      ∀ close rest, close.kind = .closeParen → (readMoreParams (v ++ close :: rest)).Gives more rest
  | .locals group =>
    ∀ rest, headKind rest = some .openBrace → (readLocals (w ++ rest)).Gives group rest
  | .block body =>
    headKind w = some .openBrace ∧ ∀ rest, (readBlock (w ++ rest)).Gives body rest
  | .statements body =>
    ∀ close rest, close.kind = .closeBrace →
      (readStmts (w ++ close :: rest)).Gives body (close :: rest)
  | .statement s =>
    ∀ token rest, token.kind = .semicolon ∨ token.kind = .closeBrace →
      (readStmt (w ++ token :: rest)).Gives s (token :: rest)
  | .alternative no =>
    ∀ token rest, token.kind = .semicolon ∨ token.kind = .closeBrace →
      (readElse (w ++ token :: rest)).Gives no (token :: rest)
  | .assignment s => ∀ rest, Avoids exprSigns rest → (readAssignment (w ++ rest)).Gives s rest
  | .comparison e => ∀ rest, Avoids exprSigns rest → (readComparison (w ++ rest)).Gives e rest
  | .expression e =>
    ∀ rest, Avoids termSigns rest → ∀ e' rest', (readSum e rest).Gives e' rest' →
      (readExpr (w ++ rest)).Gives e' rest'
  | .term e =>
    ∀ rest, Avoids factorSigns rest → ∀ e' rest', (readProduct e rest).Gives e' rest' →
      (readTerm (w ++ rest)).Gives e' rest'
  | .factor e => ∀ rest, Avoids factorSigns rest → (readFactor (w ++ rest)).Gives e rest
  | .args list =>
    ∀ close rest, close.kind = .closeParen → (readArgs (w ++ close :: rest)).Gives list rest
  | .expressions list =>
    ∀ close rest, close.kind = .closeParen →
      ∃ e more mid, list = e :: more ∧ (readExpr (w ++ close :: rest)).Gives e mid ∧
        (readMoreArgs mid).Gives more rest

/-! ## Sums and products -/

section Operators

variable {u v w rest : List Token} {sign : Token} {op : ArithOp} {e left right : Expr}

lemma readSum_of_avoids (h : Avoids [.plus, .minus] rest) : (readSum e rest).Gives e rest := by
  cases rest with
  | nil =>
    rw [readSum]
    exact Reading.done_gives.2 ⟨rfl, rfl⟩
  | cons token rest =>
    rw [readSum]
    simp only [sumOp?_eq_none (avoids_cons.1 h)]
    exact Reading.done_gives.2 ⟨rfl, rfl⟩

lemma readProduct_of_avoids (h : Avoids [.star, .slash] rest) :
    (readProduct e rest).Gives e rest := by
  cases rest with
  | nil =>
    rw [readProduct]
    exact Reading.done_gives.2 ⟨rfl, rfl⟩
  | cons token rest =>
    rw [readProduct]
    simp only [productOp?_eq_none (avoids_cons.1 h)]
    exact Reading.done_gives.2 ⟨rfl, rfl⟩

/-- The word of an expression is read alone, if nothing follows that could extend it. -/
lemma readExpr_of_isRead (h : (Phrase.expression e).IsRead w) (hrest : Avoids exprSigns rest) :
    (readExpr (w ++ rest)).Gives e rest :=
  h rest (hrest.of_subset (by decide)) e rest (readSum_of_avoids (hrest.of_subset (by decide)))

/-- The word of an expression is read before a token that cannot extend it. -/
lemma readExpr_before {token : Token} (h : (Phrase.expression e).IsRead w)
    (htoken : token.kind ∉ exprSigns) : (readExpr (w ++ token :: rest)).Gives e (token :: rest) :=
  readExpr_of_isRead h (avoids_cons.2 htoken)

lemma readTerm_of_isRead (h : (Phrase.term e).IsRead w) (hrest : Avoids termSigns rest) :
    (readTerm (w ++ rest)).Gives e rest :=
  h rest (hrest.of_subset (by decide)) e rest (readProduct_of_avoids (hrest.of_subset (by decide)))

lemma isRead_firstTerm (h : (Phrase.term e).IsRead w) : (Phrase.expression e).IsRead w := by
  intro rest hrest e' rest' hsum
  rw [readExpr]
  exact (readTerm_of_isRead h hrest).andThen fun _ => hsum

lemma isRead_sum (hu : (Phrase.expression left).IsRead u) (hsign : SumSign sign.kind op)
    (hv : (Phrase.term right).IsRead v) :
    (Phrase.expression (.arith op left right none)).IsRead (u ++ sign :: v) := by
  intro rest hrest e' rest' hsum
  rw [List.append_assoc, List.cons_append]
  refine hu _ (avoids_cons.2 hsign.notMem_termSigns) e' rest' ?_
  rw [readSum]
  simp only [sumOp?_eq_some_iff.2 hsign]
  exact Reading.after_gives.2 ((readTerm_of_isRead hv hrest).andThen fun _ => hsum)

lemma isRead_firstFactor (h : (Phrase.factor e).IsRead w) : (Phrase.term e).IsRead w := by
  intro rest hrest e' rest' hproduct
  rw [readTerm]
  exact (h rest hrest).andThen fun _ => hproduct

lemma isRead_product (hu : (Phrase.term left).IsRead u) (hsign : ProductSign sign.kind op)
    (hv : (Phrase.factor right).IsRead v) :
    (Phrase.term (.arith op left right none)).IsRead (u ++ sign :: v) := by
  intro rest hrest e' rest' hproduct
  rw [List.append_assoc, List.cons_append]
  refine hu _ (avoids_cons.2 hsign.notMem_factorSigns) e' rest' ?_
  rw [readProduct]
  simp only [productOp?_eq_some_iff.2 hsign]
  exact Reading.after_gives.2 ((hv rest hrest).andThen fun _ => hproduct)

lemma isRead_comparison {op : RelOp} (hu : (Phrase.expression left).IsRead u)
    (hsign : RelSign sign.kind op) (hv : (Phrase.expression right).IsRead v) :
    (Phrase.comparison (.compare op left right none)).IsRead (u ++ sign :: v) := by
  intro rest hrest
  rw [List.append_assoc, List.cons_append, readComparison]
  refine (readExpr_before hu hsign.notMem_exprSigns).andThen fun _ => ?_
  simp only [relOp?_eq_some_iff.2 hsign]
  exact Reading.after_gives.2 (readExpr_of_isRead hv hrest).map

end Operators

/-! ## Factors -/

section Factors

variable {name lpar rpar lbr rbr num comma : Token} {u v w : List Token} {e index : Expr}
  {list : List Expr}

lemma isRead_number {value : Int32} (hnum : num.kind = .number)
    (hvalue : Text.readInt32 num.text = some value) :
    (Phrase.factor (.integer value none)).IsRead [num] := by
  intro rest _
  have hread : (readInteger (num :: rest)).Gives value rest :=
    readInteger_gives.2 ⟨num, rfl, hnum, hvalue⟩
  rw [List.singleton_append, readFactor]
  simp only [hnum]
  exact hread.map

/-- A factor that starts with a name goes on as the name does. -/
lemma readFactor_name (hname : name.kind = .identifier) {tokens rest : List Token}
    (h : (readNamed name.text tokens).Gives e rest) :
    (readFactor (name :: tokens)).Gives e rest := by
  rw [readFactor]
  simp only [hname]
  exact Reading.after_gives.2 h

lemma isRead_name (hname : name.kind = .identifier) :
    (Phrase.factor (.var name.text none none)).IsRead [name] := by
  intro rest hrest
  refine readFactor_name hname ?_
  cases rest with
  | nil =>
    show (readNamed name.text []).Gives _ _
    rw [readNamed]
    exact Reading.done_gives.2 ⟨rfl, rfl⟩
  | cons token rest =>
    have hkind := avoids_cons.1 hrest
    show (readNamed name.text (token :: rest)).Gives _ _
    rw [readNamed]
    split
    case h_1 hbracket => exact absurd hkind (by rw [hbracket]; decide)
    case h_2 hparen => exact absurd hkind (by rw [hparen]; decide)
    case h_3 => exact Reading.done_gives.2 ⟨rfl, rfl⟩

lemma isRead_element (hname : name.kind = .identifier) (hlbr : lbr.kind = .openBracket)
    (h : (Phrase.expression index).IsRead w) (hrbr : rbr.kind = .closeBracket) :
    (Phrase.factor (.element name.text index none none)).IsRead (name :: lbr :: (w ++ [rbr])) := by
  intro rest _
  have hindex : (readExpr (w ++ rbr :: rest)).Gives index (rbr :: rest) :=
    readExpr_before h (by rw [hrbr]; decide)
  rw [List.cons_append, List.cons_append, List.append_assoc, List.singleton_append]
  refine readFactor_name hname ?_
  rw [readNamed]
  simp only [hlbr]
  refine Reading.after_gives.2 (hindex.andThen fun _ => ?_)
  exact map_readKind_gives.2 ⟨rbr, rfl, hrbr, rfl⟩

lemma isRead_call {args : Option (List Expr)} (hname : name.kind = .identifier)
    (hlpar : lpar.kind = .openParen) (h : (Phrase.args args).IsRead w)
    (hrpar : rpar.kind = .closeParen) :
    (Phrase.factor (.call name.text args none)).IsRead (name :: lpar :: (w ++ [rpar])) := by
  intro rest _
  rw [List.cons_append, List.cons_append, List.append_assoc, List.singleton_append]
  refine readFactor_name hname ?_
  rw [readNamed]
  simp only [hlpar]
  exact Reading.after_gives.2 (h rpar rest hrpar).map

lemma isRead_parenthesised (hlpar : lpar.kind = .openParen) (h : (Phrase.expression e).IsRead w)
    (hrpar : rpar.kind = .closeParen) : (Phrase.factor e).IsRead (lpar :: (w ++ [rpar])) := by
  intro rest _
  have hinner : (readExpr (w ++ rpar :: rest)).Gives e (rpar :: rest) :=
    readExpr_before h (by rw [hrpar]; decide)
  rw [List.cons_append, List.append_assoc, List.singleton_append, readFactor]
  simp only [hlpar]
  refine Reading.after_gives.2 (hinner.andThen fun _ => ?_)
  exact map_readKind_gives.2 ⟨rpar, rfl, hrpar, rfl⟩

lemma isRead_noArgs : (Phrase.args none).IsRead [] := by
  intro close rest hclose
  rw [List.nil_append, readArgs, if_pos (by simp [headKind, hclose])]
  exact map_readKind_gives.2 ⟨close, rfl, hclose, rfl⟩

/-- No expression starts with a closing parenthesis. -/
lemma headKind_ne_of_readExpr_gives {tokens rest : List Token}
    (h : (readExpr tokens).Gives e rest) : headKind tokens ≠ some .closeParen := by
  intro hhead
  rw [readExpr] at h
  obtain ⟨_, _, _, hterm, _⟩ := Reading.andThen_gives.1 h
  rw [readTerm] at hterm
  obtain ⟨_, _, _, hfactor, _⟩ := Reading.andThen_gives.1 hterm
  cases tokens with
  | nil => cases hhead
  | cons token tokens =>
    have hkind : token.kind = .closeParen := Option.some.inj hhead
    rw [readFactor] at hfactor
    simp only [hkind] at hfactor
    exact Reading.not_gives_unexpected hfactor

lemma isRead_args (h : (Phrase.expressions list).IsRead w) :
    (Phrase.args (some list)).IsRead w := by
  intro close rest hclose
  obtain ⟨e, more, mid, rfl, he, hmore⟩ := h close rest hclose
  rw [readArgs, if_neg (headKind_ne_of_readExpr_gives he)]
  exact he.andThen fun _ => hmore.map

lemma isRead_lastExpression (h : (Phrase.expression e).IsRead w) :
    (Phrase.expressions [e]).IsRead w := by
  intro close rest hclose
  refine ⟨e, [], close :: rest, rfl, readExpr_before h (by rw [hclose]; decide), ?_⟩
  rw [readMoreArgs, if_neg (by simp [hclose])]
  exact map_readKind_gives.2 ⟨close, rfl, hclose, rfl⟩

lemma isRead_moreExpressions (hu : (Phrase.expression e).IsRead u) (hcomma : comma.kind = .comma)
    (hv : (Phrase.expressions list).IsRead v) :
    (Phrase.expressions (e :: list)).IsRead (u ++ comma :: v) := by
  intro close rest hclose
  obtain ⟨next, more, mid, rfl, hnext, hmore⟩ := hv close rest hclose
  rw [List.append_assoc, List.cons_append]
  refine ⟨e, next :: more, comma :: (v ++ close :: rest), rfl, ?_, ?_⟩
  · exact readExpr_before hu (by rw [hcomma]; decide)
  · rw [readMoreArgs, if_pos hcomma]
    exact Reading.after_gives.2 (hnext.andThen fun _ => hmore.map)

end Factors

/-! ## Statements -/

section Statements

variable {word name eq lpar rpar lbr rbr lbrace rbrace semi : Token} {u v w : List Token}
  {value index condition : Expr} {s : Option Stmt} {body yes : List Stmt}

/-- The tokens after a statement cannot extend an expression. -/
lemma notMem_exprSigns_of_statementEnd {token : Token}
    (h : token.kind = .semicolon ∨ token.kind = .closeBrace) : token.kind ∉ exprSigns := by
  rcases h with h | h <;> rw [h] <;> decide

lemma isRead_assignVariable (hname : name.kind = .identifier) (heq : eq.kind = .equal)
    (h : (Phrase.expression value).IsRead w) :
    (Phrase.assignment (.assign (.var name.text none) value none none)).IsRead
      (name :: eq :: w) := by
  intro rest hrest
  have htarget : (readTarget (name :: eq :: (w ++ rest))).Gives (.var name.text none)
      (eq :: (w ++ rest)) := by
    rw [readTarget]
    refine (readName_gives.2 ⟨name, rfl, hname, rfl⟩).andThen fun _ => ?_
    simp only [heq, reduceCtorEq, if_false]
    exact Reading.done_gives.2 ⟨rfl, rfl⟩
  have hvalue := readExpr_of_isRead h hrest
  rw [List.cons_append, List.cons_append, readAssignment]
  refine htarget.andThen fun _ => ?_
  exact (readKind_gives.2 ⟨rfl, heq⟩).andThen fun _ => hvalue.map

lemma isRead_assignElement (hname : name.kind = .identifier) (hlbr : lbr.kind = .openBracket)
    (hu : (Phrase.expression index).IsRead u) (hrbr : rbr.kind = .closeBracket)
    (heq : eq.kind = .equal) (hv : (Phrase.expression value).IsRead v) :
    (Phrase.assignment (.assign (.element name.text index none) value none none)).IsRead
      (name :: lbr :: (u ++ rbr :: eq :: v)) := by
  intro rest hrest
  have hindex : (readExpr (u ++ rbr :: eq :: (v ++ rest))).Gives index (rbr :: eq :: (v ++ rest)) :=
    readExpr_before hu (by rw [hrbr]; decide)
  have htarget : (readTarget (name :: lbr :: (u ++ rbr :: eq :: (v ++ rest)))).Gives
      (.element name.text index none) (eq :: (v ++ rest)) := by
    rw [readTarget]
    refine (readName_gives.2 ⟨name, rfl, hname, rfl⟩).andThen fun _ => ?_
    simp only [hlbr, if_true]
    refine Reading.after_gives.2 (hindex.andThen fun _ => ?_)
    exact map_readKind_gives.2 ⟨rbr, rfl, hrbr, rfl⟩
  have hvalue := readExpr_of_isRead hv hrest
  have happend : name :: lbr :: (u ++ rbr :: eq :: v) ++ rest =
      name :: lbr :: (u ++ rbr :: eq :: (v ++ rest)) := by
    simp
  rw [happend, readAssignment]
  refine htarget.andThen fun _ => ?_
  exact (readKind_gives.2 ⟨rfl, heq⟩).andThen fun _ => hvalue.map

lemma isRead_emptyStatement : (Phrase.statement none).IsRead [] := by
  intro token rest htoken
  rw [List.nil_append, readStmt]
  rcases htoken with hkind | hkind
  · simp only [hkind]
    exact Reading.done_gives.2 ⟨rfl, rfl⟩
  · simp only [hkind]
    exact Reading.done_gives.2 ⟨rfl, rfl⟩

/-- An assignment starts with a name. -/
lemma exists_of_readAssignment_gives {tokens rest : List Token} {s : Stmt}
    (h : (readAssignment tokens).Gives s rest) :
    ∃ name tail, tokens = name :: tail ∧ name.kind = .identifier := by
  rw [readAssignment] at h
  obtain ⟨_, _, _, htarget, _⟩ := Reading.andThen_gives.1 h
  rw [readTarget] at htarget
  obtain ⟨_, tail, _, hname, _⟩ := Reading.andThen_gives.1 htarget
  obtain ⟨name, htokens, hkind, _⟩ := readName_gives.1 hname
  exact ⟨name, tail, htokens, hkind⟩

lemma isRead_assignmentStatement {s : Stmt} (h : (Phrase.assignment s).IsRead w) :
    (Phrase.statement (some s)).IsRead w := by
  intro token rest htoken
  have hread := h (token :: rest) (avoids_cons.2 (notMem_exprSigns_of_statementEnd htoken))
  obtain ⟨name, tail, htokens, hname⟩ := exists_of_readAssignment_gives hread
  rw [htokens] at hread ⊢
  rw [readStmt]
  simp only [hname]
  exact hread.map

lemma isRead_blockStatement (h : (Phrase.block body).IsRead w) :
    (Phrase.statement (some (.block body))).IsRead w := by
  intro token rest _
  obtain ⟨hhead, hread⟩ := h
  cases w with
  | nil => cases hhead
  | cons lbrace w =>
    have hlbrace : lbrace.kind = .openBrace := Option.some.inj hhead
    have hblock := hread (token :: rest)
    rw [List.cons_append] at hblock ⊢
    rw [readStmt]
    simp only [hlbrace]
    exact hblock.map

lemma isRead_print (hword : word.kind = .printWord) (hlpar : lpar.kind = .openParen)
    (h : (Phrase.expression value).IsRead w) (hrpar : rpar.kind = .closeParen) :
    (Phrase.statement (some (.print value))).IsRead (word :: lpar :: (w ++ [rpar])) := by
  intro token rest _
  have hvalue : (readExpr (w ++ rpar :: token :: rest)).Gives value (rpar :: token :: rest) :=
    readExpr_before h (by rw [hrpar]; decide)
  have hparens : (readParenthesised readExpr (lpar :: (w ++ rpar :: token :: rest))).Gives value
      (token :: rest) :=
    readParenthesised_gives.2 ⟨lpar, _, rpar, rfl, hlpar, hvalue, hrpar⟩
  rw [List.cons_append, List.cons_append, List.append_assoc, List.singleton_append, readStmt]
  simp only [hword]
  exact Reading.after_gives.2 hparens.map

lemma isRead_read (hword : word.kind = .readWord) (hlpar : lpar.kind = .openParen)
    (hname : name.kind = .identifier) (hrpar : rpar.kind = .closeParen) :
    (Phrase.statement (some (.read name.text none))).IsRead [word, lpar, name, rpar] := by
  intro token rest _
  have hinner :
      (readName (name :: rpar :: token :: rest)).Gives name.text (rpar :: token :: rest) :=
    readName_gives.2 ⟨name, rfl, hname, rfl⟩
  have hparens : (readParenthesised readName (lpar :: name :: rpar :: token :: rest)).Gives
      name.text (token :: rest) :=
    readParenthesised_gives.2 ⟨lpar, _, rpar, rfl, hlpar, hinner, hrpar⟩
  show (readStmt (word :: lpar :: name :: rpar :: token :: rest)).Gives _ _
  rw [readStmt]
  simp only [hword]
  exact Reading.after_gives.2 hparens.map

lemma isRead_ret (hword : word.kind = .returnWord) (h : (Phrase.expression value).IsRead w) :
    (Phrase.statement (some (.ret value))).IsRead (word :: w) := by
  intro token rest htoken
  have hvalue : (readExpr (w ++ token :: rest)).Gives value (token :: rest) :=
    readExpr_before h (notMem_exprSigns_of_statementEnd htoken)
  rw [List.cons_append, readStmt]
  simp only [hword]
  exact Reading.after_gives.2 hvalue.map

/-- The condition of a branch or a loop, between its parentheses. -/
lemma readCondition_of_isRead (hlpar : lpar.kind = .openParen)
    (h : (Phrase.comparison condition).IsRead u) (hrpar : rpar.kind = .closeParen)
    (rest : List Token) :
    (readParenthesised readComparison (lpar :: (u ++ rpar :: rest))).Gives condition rest := by
  have hcondition := h (rpar :: rest) (avoids_cons.2 (by rw [hrpar]; decide))
  exact readParenthesised_gives.2 ⟨lpar, _, rpar, rfl, hlpar, hcondition, hrpar⟩

lemma isRead_loop (hword : word.kind = .whileWord) (hlpar : lpar.kind = .openParen)
    (hu : (Phrase.comparison condition).IsRead u) (hrpar : rpar.kind = .closeParen)
    (hv : (Phrase.block body).IsRead v) :
    (Phrase.statement (some (.loop condition body))).IsRead
      (word :: lpar :: (u ++ rpar :: v)) := by
  intro token rest _
  have hcondition := readCondition_of_isRead hlpar hu hrpar (v ++ token :: rest)
  have hbody := hv.2 (token :: rest)
  rw [List.cons_append, List.cons_append, List.append_assoc, List.cons_append, readStmt]
  simp only [hword]
  exact Reading.after_gives.2 (hcondition.andThen fun _ => hbody.map)

lemma isRead_branch {no : Option (List Stmt)} (hword : word.kind = .ifWord)
    (hlpar : lpar.kind = .openParen) (hu : (Phrase.comparison condition).IsRead u)
    (hrpar : rpar.kind = .closeParen) (hv : (Phrase.block yes).IsRead v)
    (hw : (Phrase.alternative no).IsRead w) :
    (Phrase.statement (some (.branch condition yes no))).IsRead
      (word :: lpar :: (u ++ rpar :: (v ++ w))) := by
  intro token rest htoken
  have hcondition := readCondition_of_isRead hlpar hu hrpar (v ++ (w ++ token :: rest))
  have hyes := hv.2 (w ++ token :: rest)
  have hno := hw token rest htoken
  rw [List.cons_append, List.cons_append, List.append_assoc, List.cons_append, List.append_assoc,
    readStmt]
  simp only [hword]
  refine Reading.after_gives.2 (hcondition.andThen fun _ => ?_)
  exact hyes.andThen fun _ => hno.map

lemma isRead_noAlternative : (Phrase.alternative none).IsRead [] := by
  intro token rest htoken
  have hkind : token.kind ≠ .elseWord := by
    rcases htoken with h | h <;> rw [h] <;> decide
  rw [List.nil_append, readElse, if_neg hkind]
  exact Reading.done_gives.2 ⟨rfl, rfl⟩

lemma isRead_alternative (hword : word.kind = .elseWord) (h : (Phrase.block body).IsRead w) :
    (Phrase.alternative (some body)).IsRead (word :: w) := by
  intro token rest _
  rw [List.cons_append, readElse, if_pos hword]
  exact Reading.after_gives.2 (h.2 (token :: rest)).map

lemma isRead_block (hlbrace : lbrace.kind = .openBrace) (h : (Phrase.statements body).IsRead w)
    (hrbrace : rbrace.kind = .closeBrace) :
    (Phrase.block body).IsRead (lbrace :: (w ++ [rbrace])) := by
  refine ⟨congrArg some hlbrace, ?_⟩
  intro rest
  rw [List.cons_append, List.append_assoc, List.singleton_append, readBlock, if_pos hlbrace]
  refine Reading.after_gives.2 ((h rbrace rest hrbrace).andThen fun _ => ?_)
  exact map_readKind_gives.2 ⟨rbrace, rfl, hrbrace, rfl⟩

lemma isRead_lastStatement (h : (Phrase.statement s).IsRead w) :
    (Phrase.statements s.toList).IsRead w := by
  intro close rest hclose
  rw [readStmts]
  refine (h close rest (.inr hclose)).andThen fun _ => ?_
  simp only [hclose, reduceCtorEq, if_false]
  exact Reading.done_gives.2 ⟨rfl, rfl⟩

lemma isRead_moreStatements (hu : (Phrase.statement s).IsRead u) (hsemi : semi.kind = .semicolon)
    (hv : (Phrase.statements body).IsRead v) :
    (Phrase.statements (s.toList ++ body)).IsRead (u ++ semi :: v) := by
  intro close rest hclose
  rw [List.append_assoc, List.cons_append, readStmts]
  refine (hu semi _ (.inl hsemi)).andThen fun _ => ?_
  simp only [hsemi, if_true]
  exact Reading.after_gives.2 (hv close rest hclose).map

end Statements

/-! ## Declarations and programs -/

section Declarations

variable {name comma semi int lpar rpar lbr num rbr : Token} {u v w : List Token} {d : VarDef}
  {group : List VarDef} {body : List Stmt}

lemma isRead_scalarDefinition (hname : name.kind = .identifier) :
    (Phrase.definition (.scalar name.text)).IsRead [name] := by
  intro rest hrest
  rw [List.singleton_append, readVarDef]
  refine (readName_gives.2 ⟨name, rfl, hname, rfl⟩).andThen fun _ => ?_
  cases rest with
  | nil => exact Reading.done_gives.2 ⟨rfl, rfl⟩
  | cons token rest =>
    have hkind : token.kind ≠ .openBracket := by simpa using avoids_cons.1 hrest
    simp only [hkind, if_false]
    exact Reading.done_gives.2 ⟨rfl, rfl⟩

lemma isRead_arrayDefinition {size : Int32} (hname : name.kind = .identifier)
    (hlbr : lbr.kind = .openBracket) (hnum : num.kind = .number)
    (hsize : Text.readInt32 num.text = some size) (hrbr : rbr.kind = .closeBracket) :
    (Phrase.definition (.array name.text (Text.lengthOf size))).IsRead [name, lbr, num, rbr] := by
  intro rest _
  have hread : (readInteger (num :: rbr :: rest)).Gives size (rbr :: rest) :=
    readInteger_gives.2 ⟨num, rfl, hnum, hsize⟩
  show (readVarDef (name :: lbr :: num :: rbr :: rest)).Gives _ _
  rw [readVarDef]
  refine (readName_gives.2 ⟨name, rfl, hname, rfl⟩).andThen fun _ => ?_
  simp only [hlbr, if_true]
  refine Reading.after_gives.2 (hread.andThen fun _ => ?_)
  exact map_readKind_gives.2 ⟨rbr, rfl, hrbr, rfl⟩

lemma isRead_lastDefinition (h : (Phrase.definition d).IsRead w) :
    (Phrase.definitions [d]).IsRead w := by
  intro semi rest hsemi
  rw [readVariables]
  refine (h (semi :: rest) (avoids_cons.2 (by rw [hsemi]; decide))).andThen fun _ => ?_
  refine Reading.Gives.map (f := fun more => d :: more) ?_
  rw [readMoreVarDefs, if_neg (by simp [hsemi])]
  exact map_readKind_gives.2 ⟨semi, rfl, hsemi, rfl⟩

lemma isRead_moreDefinitions (hu : (Phrase.definition d).IsRead u) (hcomma : comma.kind = .comma)
    (hv : (Phrase.definitions group).IsRead v) :
    (Phrase.definitions (d :: group)).IsRead (u ++ comma :: v) := by
  intro semi rest hsemi
  have hmore := hv semi rest hsemi
  rw [readVariables] at hmore
  rw [List.append_assoc, List.cons_append, readVariables]
  refine (hu _ (avoids_cons.2 (by rw [hcomma]; decide))).andThen fun _ => ?_
  refine Reading.Gives.map (f := fun more => d :: more) ?_
  rw [readMoreVarDefs, if_pos hcomma]
  exact Reading.after_gives.2 hmore

lemma isRead_variableGroup (hint : int.kind = .intWord) (h : (Phrase.definitions group).IsRead w)
    (hsemi : semi.kind = .semicolon) :
    (Phrase.variables group).IsRead (int :: (w ++ [semi])) := by
  refine ⟨int, w ++ [semi], rfl, hint, ?_⟩
  intro rest
  rw [List.append_assoc, List.singleton_append]
  exact h semi rest hsemi

lemma isRead_lastName (hname : name.kind = .identifier) :
    (Phrase.names [name.text]).IsRead [name] := by
  refine ⟨name, [], [], rfl, rfl, hname, ?_⟩
  intro close rest hclose
  rw [List.nil_append, readMoreParams, if_neg (by simp [hclose])]
  exact map_readKind_gives.2 ⟨close, rfl, hclose, rfl⟩

lemma isRead_moreNames {list : List String} (hname : name.kind = .identifier)
    (hcomma : comma.kind = .comma) (hv : (Phrase.names list).IsRead v) :
    (Phrase.names (name.text :: list)).IsRead (name :: comma :: v) := by
  obtain ⟨next, more, v, rfl, rfl, hnext, hmore⟩ := hv
  refine ⟨name, next.text :: more, comma :: next :: v, rfl, rfl, hname, ?_⟩
  intro close rest hclose
  rw [List.cons_append, List.cons_append, readMoreParams, if_pos hcomma]
  refine Reading.after_gives.2 ?_
  exact (readName_gives.2 ⟨next, rfl, hnext, rfl⟩).andThen fun _ => (hmore close rest hclose).map

lemma isRead_noParams : (Phrase.params none).IsRead [] := by
  intro close rest hclose
  rw [List.nil_append, readParams, if_pos (by simp [headKind, hclose])]
  exact map_readKind_gives.2 ⟨close, rfl, hclose, rfl⟩

lemma isRead_params {list : List String} (h : (Phrase.names list).IsRead w) :
    (Phrase.params (some list)).IsRead w := by
  intro close rest hclose
  obtain ⟨name, more, v, rfl, rfl, hname, hmore⟩ := h
  rw [List.cons_append, readParams, if_neg (by simp [headKind, hname])]
  exact (readName_gives.2 ⟨name, rfl, hname, rfl⟩).andThen fun _ => (hmore close rest hclose).map

lemma isRead_noLocals : (Phrase.locals none).IsRead [] := by
  intro rest hrest
  cases rest with
  | nil => cases hrest
  | cons token rest =>
    have hkind : token.kind = .openBrace := Option.some.inj hrest
    rw [List.nil_append, readLocals, if_neg (by simp [hkind])]
    exact Reading.done_gives.2 ⟨rfl, rfl⟩

lemma isRead_locals (h : (Phrase.variables group).IsRead w) :
    (Phrase.locals (some group)).IsRead w := by
  intro rest _
  obtain ⟨int, v, rfl, hint, hread⟩ := h
  rw [List.cons_append, readLocals, if_pos hint]
  exact Reading.after_gives.2 (hread rest).map

lemma headKind_append {kind : Kind} (h : headKind w = some kind) (rest : List Token) :
    headKind (w ++ rest) = some kind := by
  cases w with
  | nil => cases h
  | cons token w => exact h

lemma isRead_function {params : Option (List String)} {locals : Option (List VarDef)}
    (hname : name.kind = .identifier) (hlpar : lpar.kind = .openParen)
    (hu : (Phrase.params params).IsRead u) (hrpar : rpar.kind = .closeParen)
    (hsemi : semi.kind = .semicolon) (hv : (Phrase.locals locals).IsRead v)
    (hw : (Phrase.block body).IsRead w) :
    (Phrase.function { name := name.text, params, locals, body }).IsRead
      (name :: lpar :: (u ++ rpar :: semi :: (v ++ w))) := by
  refine ⟨name, _, rfl, hname, ?_⟩
  intro rest
  have hparams := hu rpar (semi :: (v ++ (w ++ rest))) hrpar
  have hlocals := hv (w ++ rest) (headKind_append hw.1 rest)
  have happend : lpar :: (u ++ rpar :: semi :: (v ++ w)) ++ rest =
      lpar :: (u ++ rpar :: semi :: (v ++ (w ++ rest))) := by
    simp
  rw [happend, readFunction]
  refine (readKind_gives.2 ⟨rfl, hlpar⟩).andThen fun _ => ?_
  refine hparams.andThen fun _ => ?_
  refine (readKind_gives.2 ⟨rfl, hsemi⟩).andThen fun _ => ?_
  exact hlocals.andThen fun _ => (hw.2 rest).map

lemma isRead_variablesDeclaration (h : (Phrase.variables group).IsRead w) :
    (Phrase.declaration (.vars group)).IsRead w := by
  intro rest list rest' hlist
  obtain ⟨int, v, rfl, hint, hread⟩ := h
  rw [List.cons_append, readDecls]
  simp only [hint]
  exact Reading.after_gives.2 ((hread rest).andThen fun _ => hlist.map)

lemma isRead_functionDeclaration {f : FunctionDecl} (h : (Phrase.function f).IsRead w) :
    (Phrase.declaration (.function f)).IsRead w := by
  intro rest list rest' hlist
  obtain ⟨name, v, rfl, hname, hread⟩ := h
  rw [List.cons_append, readDecls]
  simp only [hname]
  exact Reading.after_gives.2 ((hread rest).andThen fun _ => hlist.map)

/-- The block of a program ends its declarations. -/
lemma readDecls_of_openBrace {rest : List Token} (h : headKind rest = some .openBrace) :
    (readDecls rest).Gives [] rest := by
  cases rest with
  | nil => cases h
  | cons token rest =>
    have hkind : token.kind = .openBrace := Option.some.inj h
    rw [readDecls]
    simp only [hkind]
    exact Reading.done_gives.2 ⟨rfl, rfl⟩

lemma isRead_lastDeclaration {d : Decl} (h : (Phrase.declaration d).IsRead w) :
    (Phrase.declarations [d]).IsRead w := by
  refine ⟨List.cons_ne_nil d [], ?_⟩
  intro rest hrest
  exact h rest [] rest (readDecls_of_openBrace hrest)

lemma isRead_moreDeclarations {d : Decl} {list : List Decl} (hu : (Phrase.declaration d).IsRead u)
    (hv : (Phrase.declarations list).IsRead v) :
    (Phrase.declarations (d :: list)).IsRead (u ++ v) := by
  refine ⟨List.cons_ne_nil d list, ?_⟩
  intro rest hrest
  rw [List.append_assoc]
  exact hu (v ++ rest) list rest (hv.2 rest hrest)

lemma isRead_bareProgram (h : (Phrase.block body).IsRead w) :
    (Phrase.program { declarations := none, body }).IsRead w := by
  have hbody := h.2 []
  rw [List.append_nil] at hbody
  have hdeclarations : (readDeclarations w).Gives none w := by
    rw [readDeclarations, h.1]
    exact Reading.done_gives.2 ⟨rfl, rfl⟩
  show (readProgram w).Gives _ []
  rw [readProgram]
  exact hdeclarations.andThen fun _ => hbody.map

/-- Where a declaration is read, the first token is one that starts a declaration. -/
lemma headKind_of_readDecls_gives {tokens rest : List Token} {list : List Decl}
    (h : (readDecls tokens).Gives list rest) (hlist : list ≠ []) :
    headKind tokens = some .intWord ∨ headKind tokens = some .identifier := by
  cases tokens with
  | nil =>
    rw [readDecls] at h
    exact absurd (Reading.done_gives.1 h).1.symm hlist
  | cons token tokens =>
    rw [readDecls] at h
    split at h
    case h_1 hkind => exact .inl (congrArg some hkind)
    case h_2 hkind => exact .inr (congrArg some hkind)
    case h_3 => exact absurd (Reading.done_gives.1 h).1.symm hlist

lemma isRead_program {list : List Decl} (hu : (Phrase.declarations list).IsRead u)
    (hv : (Phrase.block body).IsRead v) :
    (Phrase.program { declarations := some list, body }).IsRead (u ++ v) := by
  have hbody := hv.2 []
  rw [List.append_nil] at hbody
  have hdecls := hu.2 v hv.1
  have hdeclarations : (readDeclarations (u ++ v)).Gives (some list) v := by
    rw [readDeclarations]
    rcases headKind_of_readDecls_gives hdecls hu.1 with hhead | hhead
    · rw [hhead]
      exact hdecls.map
    · rw [hhead]
      exact hdecls.map
  show (readProgram (u ++ v)).Gives _ []
  rw [readProgram]
  exact hdeclarations.andThen fun _ => hbody.map

end Declarations

/-! ## The grammar is decided -/

/-- Every derived word is read, with the tree of its derivation. -/
lemma Derives.isRead {w : List Token} {phrase : Phrase} (h : Derives w phrase) :
    phrase.IsRead w := by
  induction h with
  | bareProgram _ ih => exact isRead_bareProgram ih
  | program _ _ ihu ihv => exact isRead_program ihu ihv
  | lastDeclaration _ ih => exact isRead_lastDeclaration ih
  | moreDeclarations _ _ ihu ihv => exact isRead_moreDeclarations ihu ihv
  | variablesDeclaration _ ih => exact isRead_variablesDeclaration ih
  | functionDeclaration _ ih => exact isRead_functionDeclaration ih
  | variableGroup hint _ hsemi ih => exact isRead_variableGroup hint ih hsemi
  | lastDefinition _ ih => exact isRead_lastDefinition ih
  | moreDefinitions _ hcomma _ ihu ihv => exact isRead_moreDefinitions ihu hcomma ihv
  | scalarDefinition hname => exact isRead_scalarDefinition hname
  | arrayDefinition hname hlbr hnum hsize hrbr =>
    exact isRead_arrayDefinition hname hlbr hnum hsize hrbr
  | function hname hlpar _ hrpar hsemi _ _ ihu ihv ihw =>
    exact isRead_function hname hlpar ihu hrpar hsemi ihv ihw
  | noParams => exact isRead_noParams
  | params _ ih => exact isRead_params ih
  | lastName hname => exact isRead_lastName hname
  | moreNames hname hcomma _ ih => exact isRead_moreNames hname hcomma ih
  | noLocals => exact isRead_noLocals
  | locals _ ih => exact isRead_locals ih
  | block hlbrace _ hrbrace ih => exact isRead_block hlbrace ih hrbrace
  | lastStatement _ ih => exact isRead_lastStatement ih
  | moreStatements _ hsemi _ ihu ihv => exact isRead_moreStatements ihu hsemi ihv
  | emptyStatement => exact isRead_emptyStatement
  | assignmentStatement _ ih => exact isRead_assignmentStatement ih
  | blockStatement _ ih => exact isRead_blockStatement ih
  | print hword hlpar _ hrpar ih => exact isRead_print hword hlpar ih hrpar
  | read hword hlpar hname hrpar => exact isRead_read hword hlpar hname hrpar
  | ret hword _ ih => exact isRead_ret hword ih
  | loop hword hlpar _ hrpar _ ihu ihv => exact isRead_loop hword hlpar ihu hrpar ihv
  | branch hword hlpar _ hrpar _ _ ihu ihv ihw =>
    exact isRead_branch hword hlpar ihu hrpar ihv ihw
  | noAlternative => exact isRead_noAlternative
  | alternative hword _ ih => exact isRead_alternative hword ih
  | assignVariable hname heq _ ih => exact isRead_assignVariable hname heq ih
  | assignElement hname hlbr _ hrbr heq _ ihu ihv =>
    exact isRead_assignElement hname hlbr ihu hrbr heq ihv
  | comparison _ hsign _ ihu ihv => exact isRead_comparison ihu hsign ihv
  | firstTerm _ ih => exact isRead_firstTerm ih
  | sum _ hsign _ ihu ihv => exact isRead_sum ihu hsign ihv
  | firstFactor _ ih => exact isRead_firstFactor ih
  | product _ hsign _ ihu ihv => exact isRead_product ihu hsign ihv
  | number hnum hvalue => exact isRead_number hnum hvalue
  | name hname => exact isRead_name hname
  | element hname hlbr _ hrbr ih => exact isRead_element hname hlbr ih hrbr
  | call hname hlpar _ hrpar ih => exact isRead_call hname hlpar ih hrpar
  | parenthesised hlpar _ hrpar ih => exact isRead_parenthesised hlpar ih hrpar
  | noArgs => exact isRead_noArgs
  | args _ ih => exact isRead_args ih
  | lastExpression _ ih => exact isRead_lastExpression ih
  | moreExpressions _ hcomma _ ihu ihv => exact isRead_moreExpressions ihu hcomma ihv

/-- What can be derived is parsed. -/
lemma parse_of_derives {tokens : List Token} {p : Program} (h : Derives tokens (.program p)) :
    (parse tokens).result = .ok p := by
  have hread : (readProgram tokens).Gives p [] := h.isRead
  have hparse : (parse tokens).Gives p [] := by
    rw [parse]
    exact hread.andThen fun _ => Reading.done_gives.2 ⟨rfl, rfl⟩
  exact hparse.1

/-- **Parsing decides the grammar.**  A list of tokens is parsed to a program if and only if it
derives that program.  In particular no list of tokens derives two programs. -/
theorem parse_ok_iff_derives (tokens : List Token) :
    (∀ p, (parse tokens).result = .ok p ↔ Derives tokens (.program p)) ∧
      ∀ p q, Derives tokens (.program p) → Derives tokens (.program q) → p = q := by
  refine ⟨fun p => ⟨derives_of_parse, parse_of_derives⟩, ?_⟩
  intro p q hp hq
  have heq : (parse tokens).result = .ok q := parse_of_derives hq
  rw [parse_of_derives hp] at heq
  exact Except.ok.inj heq

end DLang
