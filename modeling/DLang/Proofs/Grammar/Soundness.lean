import DLang.Proofs.Grammar.Gives

/-!
# What is read can be derived

If a reader succeeds, the tokens that it took form a word of the reader's nonterminal, with the tree
that it gave.  The readers that extend an operand built so far start from the word of that operand.
-/

namespace DLang

/-! ## Expressions -/

mutual

lemma readExpr_sound {tokens rest : List Token} {e : Expr} (h : (readExpr tokens).Gives e rest) :
    ∃ w, tokens = w ++ rest ∧ Derives w (.expression e) := by
  rw [readExpr] at h
  obtain ⟨left, mid, hsuffix, hterm, hsum⟩ := Reading.andThen_gives.1 h
  have hlength := hsuffix.length_le
  obtain ⟨u, htokens, hu⟩ := readTerm_sound hterm
  obtain ⟨v, hmid, hv⟩ := readSum_sound (.firstTerm hu) hsum
  exact ⟨u ++ v, by rw [htokens, hmid, List.append_assoc], hv⟩
termination_by 4 * tokens.length + 2

lemma readSum_sound {u tokens rest : List Token} {left e : Expr}
    (hu : Derives u (.expression left)) (h : (readSum left tokens).Gives e rest) :
    ∃ w, tokens = w ++ rest ∧ Derives (u ++ w) (.expression e) := by
  cases tokens with
  | nil =>
    rw [readSum] at h
    obtain ⟨rfl, rfl⟩ := Reading.done_gives.1 h
    exact ⟨[], rfl, by rwa [List.append_nil]⟩
  | cons token tokens =>
    rw [readSum] at h
    cases hop : sumOp? token.kind with
    | none =>
      simp only [hop] at h
      obtain ⟨rfl, rfl⟩ := Reading.done_gives.1 h
      exact ⟨[], rfl, by rwa [List.append_nil]⟩
    | some op =>
      simp only [hop] at h
      obtain ⟨right, mid, hsuffix, hterm, hmore⟩ :=
        Reading.andThen_gives.1 (Reading.after_gives.1 h)
      have hlength := hsuffix.length_le
      obtain ⟨v, htokens, hv⟩ := readTerm_sound hterm
      obtain ⟨w, hmid, hw⟩ := readSum_sound (.sum hu (sumOp?_eq_some_iff.1 hop) hv) hmore
      refine ⟨token :: v ++ w, ?_, ?_⟩
      · rw [htokens, hmid, List.append_assoc]
        rfl
      · rw [List.append_assoc] at hw
        exact hw
termination_by 4 * tokens.length

lemma readTerm_sound {tokens rest : List Token} {e : Expr} (h : (readTerm tokens).Gives e rest) :
    ∃ w, tokens = w ++ rest ∧ Derives w (.term e) := by
  rw [readTerm] at h
  obtain ⟨left, mid, hsuffix, hfactor, hproduct⟩ := Reading.andThen_gives.1 h
  have hlength := hsuffix.length_le
  obtain ⟨u, htokens, hu⟩ := readFactor_sound hfactor
  obtain ⟨v, hmid, hv⟩ := readProduct_sound (.firstFactor hu) hproduct
  exact ⟨u ++ v, by rw [htokens, hmid, List.append_assoc], hv⟩
termination_by 4 * tokens.length + 1

lemma readProduct_sound {u tokens rest : List Token} {left e : Expr}
    (hu : Derives u (.term left)) (h : (readProduct left tokens).Gives e rest) :
    ∃ w, tokens = w ++ rest ∧ Derives (u ++ w) (.term e) := by
  cases tokens with
  | nil =>
    rw [readProduct] at h
    obtain ⟨rfl, rfl⟩ := Reading.done_gives.1 h
    exact ⟨[], rfl, by rwa [List.append_nil]⟩
  | cons token tokens =>
    rw [readProduct] at h
    cases hop : productOp? token.kind with
    | none =>
      simp only [hop] at h
      obtain ⟨rfl, rfl⟩ := Reading.done_gives.1 h
      exact ⟨[], rfl, by rwa [List.append_nil]⟩
    | some op =>
      simp only [hop] at h
      obtain ⟨right, mid, hsuffix, hfactor, hmore⟩ :=
        Reading.andThen_gives.1 (Reading.after_gives.1 h)
      have hlength := hsuffix.length_le
      obtain ⟨v, htokens, hv⟩ := readFactor_sound hfactor
      obtain ⟨w, hmid, hw⟩ :=
        readProduct_sound (.product hu (productOp?_eq_some_iff.1 hop) hv) hmore
      refine ⟨token :: v ++ w, ?_, ?_⟩
      · rw [htokens, hmid, List.append_assoc]
        rfl
      · rw [List.append_assoc] at hw
        exact hw
termination_by 4 * tokens.length

lemma readFactor_sound {tokens rest : List Token} {e : Expr}
    (h : (readFactor tokens).Gives e rest) : ∃ w, tokens = w ++ rest ∧ Derives w (.factor e) := by
  cases tokens with
  | nil =>
    rw [readFactor] at h
    exact absurd h Reading.not_gives_unexpected
  | cons token tokens =>
    rw [readFactor] at h
    split at h
    case h_1 hkind =>
      obtain ⟨inner, mid, hsuffix, hinner, hclose⟩ :=
        Reading.andThen_gives.1 (Reading.after_gives.1 h)
      obtain ⟨close, hmid, hcloseKind, rfl⟩ := map_readKind_gives.1 hclose
      obtain ⟨w, htokens, hw⟩ := readExpr_sound hinner
      refine ⟨token :: (w ++ [close]), ?_, .parenthesised hkind hw hcloseKind⟩
      simp [htokens, hmid]
    case h_2 hkind =>
      obtain ⟨value, hvalue, rfl⟩ := Reading.map_gives.1 h
      obtain ⟨num, htokens, _, hread⟩ := readInteger_gives.1 hvalue
      cases htokens
      exact ⟨[token], rfl, .number hkind hread⟩
    case h_3 hkind => exact readNamed_sound hkind (Reading.after_gives.1 h)
    case h_4 => exact absurd h Reading.not_gives_unexpected
termination_by 4 * tokens.length

lemma readNamed_sound {name : Token} {tokens rest : List Token} {e : Expr}
    (hname : name.kind = .identifier) (h : (readNamed name.text tokens).Gives e rest) :
    ∃ w, name :: tokens = w ++ rest ∧ Derives w (.factor e) := by
  cases tokens with
  | nil =>
    rw [readNamed] at h
    obtain ⟨rfl, rfl⟩ := Reading.done_gives.1 h
    exact ⟨[name], rfl, .name hname⟩
  | cons token tokens =>
    rw [readNamed] at h
    split at h
    case h_1 hkind =>
      obtain ⟨index, mid, hsuffix, hindex, hclose⟩ :=
        Reading.andThen_gives.1 (Reading.after_gives.1 h)
      obtain ⟨close, hmid, hcloseKind, rfl⟩ := map_readKind_gives.1 hclose
      obtain ⟨w, htokens, hw⟩ := readExpr_sound hindex
      refine ⟨name :: token :: (w ++ [close]), ?_, .element hname hkind hw hcloseKind⟩
      simp [htokens, hmid]
    case h_2 hkind =>
      obtain ⟨args, hargs, rfl⟩ := Reading.map_gives.1 (Reading.after_gives.1 h)
      obtain ⟨w, close, htokens, hcloseKind, hw⟩ := readArgs_sound hargs
      refine ⟨name :: token :: (w ++ [close]), ?_, .call hname hkind hw hcloseKind⟩
      simp [htokens]
    case h_3 =>
      obtain ⟨rfl, rfl⟩ := Reading.done_gives.1 h
      exact ⟨[name], rfl, .name hname⟩
termination_by 4 * tokens.length

lemma readArgs_sound {tokens rest : List Token} {args : Option (List Expr)}
    (h : (readArgs tokens).Gives args rest) :
    ∃ w close, tokens = w ++ close :: rest ∧ close.kind = .closeParen ∧ Derives w (.args args) := by
  rw [readArgs] at h
  split at h
  · obtain ⟨close, htokens, hkind, rfl⟩ := map_readKind_gives.1 h
    exact ⟨[], close, htokens, hkind, .noArgs⟩
  · obtain ⟨e, mid, hsuffix, he, hafter⟩ := Reading.andThen_gives.1 h
    have hlength := hsuffix.length_le
    obtain ⟨more, hmore, rfl⟩ := Reading.map_gives.1 hafter
    obtain ⟨u, htokens, hu⟩ := readExpr_sound he
    obtain ⟨w, close, hmid, hkind, hw⟩ := readMoreArgs_sound hu hmore
    exact ⟨u ++ w, close, by rw [htokens, hmid, List.append_assoc], hkind, .args hw⟩
termination_by 4 * tokens.length + 3

lemma readMoreArgs_sound {u tokens rest : List Token} {e : Expr} {more : List Expr}
    (hu : Derives u (.expression e)) (h : (readMoreArgs tokens).Gives more rest) :
    ∃ w close, tokens = w ++ close :: rest ∧ close.kind = .closeParen ∧
      Derives (u ++ w) (.expressions (e :: more)) := by
  cases tokens with
  | nil =>
    rw [readMoreArgs] at h
    obtain ⟨close, htokens, _⟩ := map_readKind_gives.1 h
    cases htokens
  | cons token tokens =>
    rw [readMoreArgs] at h
    split at h
    case isTrue hcomma =>
      obtain ⟨next, mid, hsuffix, hnext, hafter⟩ :=
        Reading.andThen_gives.1 (Reading.after_gives.1 h)
      have hlength := hsuffix.length_le
      obtain ⟨more, hmore, rfl⟩ := Reading.map_gives.1 hafter
      obtain ⟨v, htokens, hv⟩ := readExpr_sound hnext
      obtain ⟨w, close, hmid, hkind, hw⟩ := readMoreArgs_sound hv hmore
      refine ⟨token :: (v ++ w), close, ?_, hkind, .moreExpressions hu hcomma hw⟩
      simp [htokens, hmid]
    case isFalse =>
      obtain ⟨close, htokens, hkind, rfl⟩ := map_readKind_gives.1 h
      refine ⟨[], close, htokens, hkind, ?_⟩
      rw [List.append_nil]
      exact .lastExpression hu
termination_by 4 * tokens.length

end

lemma readComparison_sound {tokens rest : List Token} {e : Expr}
    (h : (readComparison tokens).Gives e rest) :
    ∃ w, tokens = w ++ rest ∧ Derives w (.comparison e) := by
  rw [readComparison] at h
  obtain ⟨left, mid, _, hleft, hafter⟩ := Reading.andThen_gives.1 h
  obtain ⟨u, rfl, hu⟩ := readExpr_sound hleft
  cases mid with
  | nil => exact absurd hafter Reading.not_gives_unexpected
  | cons sign mid =>
    cases hop : relOp? sign.kind with
    | none =>
      simp only [hop] at hafter
      exact absurd hafter Reading.not_gives_unexpected
    | some op =>
      simp only [hop] at hafter
      obtain ⟨right, hright, rfl⟩ := Reading.map_gives.1 (Reading.after_gives.1 hafter)
      obtain ⟨v, rfl, hv⟩ := readExpr_sound hright
      refine ⟨u ++ sign :: v, ?_, .comparison hu (relOp?_eq_some_iff.1 hop) hv⟩
      rw [List.append_assoc]
      rfl

/-! ## Statements -/

/-- A target is a name, or a name with an index. -/
lemma readTarget_sound {tokens rest : List Token} {target : Target}
    (h : (readTarget tokens).Gives target rest) :
    ∃ name : Token, name.kind = .identifier ∧
      (tokens = name :: rest ∧ target = .var name.text none ∨
        ∃ lbr u rbr index, tokens = name :: lbr :: (u ++ rbr :: rest) ∧
          lbr.kind = .openBracket ∧ Derives u (.expression index) ∧ rbr.kind = .closeBracket ∧
            target = .element name.text index none) := by
  rw [readTarget] at h
  obtain ⟨text, mid, _, hname, hafter⟩ := Reading.andThen_gives.1 h
  obtain ⟨name, rfl, hkind, rfl⟩ := readName_gives.1 hname
  refine ⟨name, hkind, ?_⟩
  cases mid with
  | nil =>
    obtain ⟨rfl, rfl⟩ := Reading.done_gives.1 hafter
    exact .inl ⟨rfl, rfl⟩
  | cons lbr mid =>
    by_cases hlbr : lbr.kind = .openBracket
    · simp only [hlbr, if_true] at hafter
      obtain ⟨index, mid', _, hindex, hclose⟩ :=
        Reading.andThen_gives.1 (Reading.after_gives.1 hafter)
      obtain ⟨rbr, rfl, hrbr, rfl⟩ := map_readKind_gives.1 hclose
      obtain ⟨u, rfl, hu⟩ := readExpr_sound hindex
      exact .inr ⟨lbr, u, rbr, index, rfl, hlbr, hu, hrbr, rfl⟩
    · simp only [hlbr, if_false] at hafter
      obtain ⟨rfl, rfl⟩ := Reading.done_gives.1 hafter
      exact .inl ⟨rfl, rfl⟩

lemma readAssignment_sound {tokens rest : List Token} {s : Stmt}
    (h : (readAssignment tokens).Gives s rest) :
    ∃ w, tokens = w ++ rest ∧ Derives w (.assignment s) := by
  rw [readAssignment] at h
  obtain ⟨target, mid, _, htarget, hafter⟩ := Reading.andThen_gives.1 h
  obtain ⟨eq, mid', _, heq, hmap⟩ := Reading.andThen_gives.1 hafter
  obtain ⟨rfl, heqKind⟩ := readKind_gives.1 heq
  obtain ⟨value, hvalue, rfl⟩ := Reading.map_gives.1 hmap
  obtain ⟨v, rfl, hv⟩ := readExpr_sound hvalue
  obtain ⟨name, hname, hshape⟩ := readTarget_sound htarget
  rcases hshape with ⟨rfl, rfl⟩ | ⟨lbr, u, rbr, index, rfl, hlbr, hu, hrbr, rfl⟩
  · exact ⟨name :: eq :: v, rfl, .assignVariable hname heqKind hv⟩
  · refine ⟨name :: lbr :: (u ++ rbr :: eq :: v), ?_, .assignElement hname hlbr hu hrbr heqKind hv⟩
    simp

mutual

lemma readStmt_sound {tokens rest : List Token} {s : Option Stmt}
    (h : (readStmt tokens).Gives s rest) : ∃ w, tokens = w ++ rest ∧ Derives w (.statement s) := by
  cases tokens with
  | nil =>
    rw [readStmt] at h
    exact absurd h Reading.not_gives_unexpected
  | cons token tokens =>
    rw [readStmt] at h
    split at h
    case h_1 | h_2 =>
      obtain ⟨rfl, rfl⟩ := Reading.done_gives.1 h
      exact ⟨[], rfl, .emptyStatement⟩
    case h_3 =>
      obtain ⟨s, hs, rfl⟩ := Reading.map_gives.1 h
      obtain ⟨w, htokens, hw⟩ := readAssignment_sound hs
      exact ⟨w, htokens, .assignmentStatement hw⟩
    case h_4 hword =>
      obtain ⟨condition, mid, hsuffix, hcondition, hafter⟩ :=
        Reading.andThen_gives.1 (Reading.after_gives.1 h)
      obtain ⟨yes, mid', hsuffix', hyes, helse⟩ := Reading.andThen_gives.1 hafter
      obtain ⟨no, hno, rfl⟩ := Reading.map_gives.1 helse
      obtain ⟨lpar, inner, rpar, htokens, hlpar, hread, hrpar⟩ :=
        readParenthesised_gives.1 hcondition
      obtain ⟨u, hinner, hu⟩ := readComparison_sound hread
      have hlength := hsuffix.length_le
      have hlength' := hsuffix'.length_le
      obtain ⟨v, hmid, hv⟩ := readBlock_sound hyes
      obtain ⟨w, hmid', hw⟩ := readElse_sound hno
      refine ⟨token :: lpar :: (u ++ rpar :: (v ++ w)), ?_, .branch hword hlpar hu hrpar hv hw⟩
      simp [htokens, hinner, hmid, hmid']
    case h_5 hword =>
      obtain ⟨condition, mid, hsuffix, hcondition, hafter⟩ :=
        Reading.andThen_gives.1 (Reading.after_gives.1 h)
      obtain ⟨body, hbody, rfl⟩ := Reading.map_gives.1 hafter
      obtain ⟨lpar, inner, rpar, htokens, hlpar, hread, hrpar⟩ :=
        readParenthesised_gives.1 hcondition
      obtain ⟨u, hinner, hu⟩ := readComparison_sound hread
      have hlength := hsuffix.length_le
      obtain ⟨v, hmid, hv⟩ := readBlock_sound hbody
      refine ⟨token :: lpar :: (u ++ rpar :: v), ?_, .loop hword hlpar hu hrpar hv⟩
      simp [htokens, hinner, hmid]
    case h_6 =>
      obtain ⟨body, hbody, rfl⟩ := Reading.map_gives.1 h
      obtain ⟨w, htokens, hw⟩ := readBlock_sound hbody
      exact ⟨w, htokens, .blockStatement hw⟩
    case h_7 hword =>
      obtain ⟨value, hvalue, rfl⟩ := Reading.map_gives.1 (Reading.after_gives.1 h)
      obtain ⟨lpar, inner, rpar, htokens, hlpar, hread, hrpar⟩ := readParenthesised_gives.1 hvalue
      obtain ⟨w, hinner, hw⟩ := readExpr_sound hread
      refine ⟨token :: lpar :: (w ++ [rpar]), ?_, .print hword hlpar hw hrpar⟩
      simp [htokens, hinner]
    case h_8 hword =>
      obtain ⟨name, hname, rfl⟩ := Reading.map_gives.1 (Reading.after_gives.1 h)
      obtain ⟨lpar, inner, rpar, htokens, hlpar, hread, hrpar⟩ := readParenthesised_gives.1 hname
      obtain ⟨ident, hinner, hident, rfl⟩ := readName_gives.1 hread
      refine ⟨[token, lpar, ident, rpar], ?_, .read hword hlpar hident hrpar⟩
      simp [htokens, hinner]
    case h_9 hword =>
      obtain ⟨value, hvalue, rfl⟩ := Reading.map_gives.1 (Reading.after_gives.1 h)
      obtain ⟨w, htokens, hw⟩ := readExpr_sound hvalue
      exact ⟨token :: w, by simp [htokens], .ret hword hw⟩
    case h_10 => exact absurd h Reading.not_gives_unexpected
termination_by 3 * tokens.length + 1

lemma readElse_sound {tokens rest : List Token} {no : Option (List Stmt)}
    (h : (readElse tokens).Gives no rest) :
    ∃ w, tokens = w ++ rest ∧ Derives w (.alternative no) := by
  cases tokens with
  | nil =>
    rw [readElse] at h
    obtain ⟨rfl, rfl⟩ := Reading.done_gives.1 h
    exact ⟨[], rfl, .noAlternative⟩
  | cons token tokens =>
    rw [readElse] at h
    split at h
    case isTrue hword =>
      obtain ⟨body, hbody, rfl⟩ := Reading.map_gives.1 (Reading.after_gives.1 h)
      obtain ⟨w, htokens, hw⟩ := readBlock_sound hbody
      exact ⟨token :: w, by simp [htokens], .alternative hword hw⟩
    case isFalse =>
      obtain ⟨rfl, rfl⟩ := Reading.done_gives.1 h
      exact ⟨[], rfl, .noAlternative⟩
termination_by 3 * tokens.length

lemma readBlock_sound {tokens rest : List Token} {body : List Stmt}
    (h : (readBlock tokens).Gives body rest) :
    ∃ w, tokens = w ++ rest ∧ Derives w (.block body) := by
  cases tokens with
  | nil =>
    rw [readBlock] at h
    exact absurd h Reading.not_gives_unexpected
  | cons token tokens =>
    rw [readBlock] at h
    split at h
    case isTrue hopen =>
      obtain ⟨body, mid, _, hbody, hclose⟩ := Reading.andThen_gives.1 (Reading.after_gives.1 h)
      obtain ⟨close, hmid, hcloseKind, rfl⟩ := map_readKind_gives.1 hclose
      obtain ⟨w, htokens, hw⟩ := readStmts_sound hbody
      refine ⟨token :: (w ++ [close]), ?_, .block hopen hw hcloseKind⟩
      simp [htokens, hmid]
    case isFalse => exact absurd h Reading.not_gives_unexpected
termination_by 3 * tokens.length

lemma readStmts_sound {tokens rest : List Token} {body : List Stmt}
    (h : (readStmts tokens).Gives body rest) :
    ∃ w, tokens = w ++ rest ∧ Derives w (.statements body) := by
  rw [readStmts] at h
  obtain ⟨s, mid, hsuffix, hs, hafter⟩ := Reading.andThen_gives.1 h
  obtain ⟨u, htokens, hu⟩ := readStmt_sound hs
  cases mid with
  | nil =>
    obtain ⟨rfl, rfl⟩ := Reading.done_gives.1 hafter
    exact ⟨u, htokens, .lastStatement hu⟩
  | cons semi mid =>
    have hlength := hsuffix.length_le
    simp only at hafter
    split at hafter
    case isTrue hsemi =>
      obtain ⟨more, hmore, rfl⟩ := Reading.map_gives.1 (Reading.after_gives.1 hafter)
      obtain ⟨v, hmid, hv⟩ := readStmts_sound hmore
      refine ⟨u ++ semi :: v, ?_, .moreStatements hu hsemi hv⟩
      simp [htokens, hmid]
    case isFalse =>
      obtain ⟨rfl, rfl⟩ := Reading.done_gives.1 hafter
      exact ⟨u, htokens, .lastStatement hu⟩
termination_by 3 * tokens.length + 2
decreasing_by
  · omega
  · simp only [List.length_cons] at hlength
    omega

end

/-! ## Declarations and programs -/

lemma readVarDef_sound {tokens rest : List Token} {d : VarDef}
    (h : (readVarDef tokens).Gives d rest) :
    ∃ w, tokens = w ++ rest ∧ Derives w (.definition d) := by
  rw [readVarDef] at h
  obtain ⟨text, mid, _, hname, hafter⟩ := Reading.andThen_gives.1 h
  obtain ⟨name, rfl, hkind, rfl⟩ := readName_gives.1 hname
  cases mid with
  | nil =>
    obtain ⟨rfl, rfl⟩ := Reading.done_gives.1 hafter
    exact ⟨[name], rfl, .scalarDefinition hkind⟩
  | cons lbr mid =>
    by_cases hlbr : lbr.kind = .openBracket
    · simp only [hlbr, if_true] at hafter
      obtain ⟨size, mid', _, hsize, hclose⟩ :=
        Reading.andThen_gives.1 (Reading.after_gives.1 hafter)
      obtain ⟨rbr, rfl, hrbr, rfl⟩ := map_readKind_gives.1 hclose
      obtain ⟨num, rfl, hnum, hread⟩ := readInteger_gives.1 hsize
      exact ⟨[name, lbr, num, rbr], rfl, .arrayDefinition hkind hlbr hnum hread hrbr⟩
    · simp only [hlbr, if_false] at hafter
      obtain ⟨rfl, rfl⟩ := Reading.done_gives.1 hafter
      exact ⟨[name], rfl, .scalarDefinition hkind⟩

lemma readMoreVarDefs_sound {u tokens rest : List Token} {d : VarDef} {more : List VarDef}
    (hu : Derives u (.definition d)) (h : (readMoreVarDefs tokens).Gives more rest) :
    ∃ w semi, tokens = w ++ semi :: rest ∧ semi.kind = .semicolon ∧
      Derives (u ++ w) (.definitions (d :: more)) := by
  cases tokens with
  | nil =>
    rw [readMoreVarDefs] at h
    obtain ⟨semi, htokens, _⟩ := map_readKind_gives.1 h
    cases htokens
  | cons token tokens =>
    rw [readMoreVarDefs] at h
    split at h
    case isTrue hcomma =>
      obtain ⟨next, mid, hsuffix, hnext, hafter⟩ :=
        Reading.andThen_gives.1 (Reading.after_gives.1 h)
      have hlength := hsuffix.length_le
      obtain ⟨more, hmore, rfl⟩ := Reading.map_gives.1 hafter
      obtain ⟨v, htokens, hv⟩ := readVarDef_sound hnext
      obtain ⟨w, semi, hmid, hkind, hw⟩ := readMoreVarDefs_sound hv hmore
      refine ⟨token :: (v ++ w), semi, ?_, hkind, .moreDefinitions hu hcomma hw⟩
      simp [htokens, hmid]
    case isFalse =>
      obtain ⟨semi, htokens, hkind, rfl⟩ := map_readKind_gives.1 h
      refine ⟨[], semi, htokens, hkind, ?_⟩
      rw [List.append_nil]
      exact .lastDefinition hu
termination_by tokens.length

/-- The reader of a variable group starts after the word that opens it. -/
lemma readVariables_sound {int : Token} {tokens rest : List Token} {group : List VarDef}
    (hint : int.kind = .intWord) (h : (readVariables tokens).Gives group rest) :
    ∃ w, int :: tokens = w ++ rest ∧ Derives w (.variables group) := by
  rw [readVariables] at h
  obtain ⟨d, mid, _, hd, hafter⟩ := Reading.andThen_gives.1 h
  obtain ⟨more, hmore, rfl⟩ := Reading.map_gives.1 hafter
  obtain ⟨u, rfl, hu⟩ := readVarDef_sound hd
  obtain ⟨v, semi, rfl, hsemi, hv⟩ := readMoreVarDefs_sound hu hmore
  refine ⟨int :: (u ++ v ++ [semi]), ?_, .variableGroup hint hv hsemi⟩
  simp

lemma readMoreParams_sound {name : Token} {tokens rest : List Token} {more : List String}
    (hname : name.kind = .identifier) (h : (readMoreParams tokens).Gives more rest) :
    ∃ w close, tokens = w ++ close :: rest ∧ close.kind = .closeParen ∧
      Derives (name :: w) (.names (name.text :: more)) := by
  cases tokens with
  | nil =>
    rw [readMoreParams] at h
    obtain ⟨close, htokens, _⟩ := map_readKind_gives.1 h
    cases htokens
  | cons token tokens =>
    rw [readMoreParams] at h
    split at h
    case isTrue hcomma =>
      obtain ⟨text, mid, hsuffix, hnext, hafter⟩ :=
        Reading.andThen_gives.1 (Reading.after_gives.1 h)
      have hlength := hsuffix.length_le
      obtain ⟨more, hmore, rfl⟩ := Reading.map_gives.1 hafter
      obtain ⟨next, htokens, hkind, rfl⟩ := readName_gives.1 hnext
      obtain ⟨w, close, hmid, hclose, hw⟩ := readMoreParams_sound hkind hmore
      refine ⟨token :: next :: w, close, ?_, hclose, .moreNames hname hcomma hw⟩
      simp [htokens, hmid]
    case isFalse =>
      obtain ⟨close, htokens, hkind, rfl⟩ := map_readKind_gives.1 h
      exact ⟨[], close, htokens, hkind, .lastName hname⟩
termination_by tokens.length

lemma readParams_sound {tokens rest : List Token} {params : Option (List String)}
    (h : (readParams tokens).Gives params rest) :
    ∃ w close, tokens = w ++ close :: rest ∧ close.kind = .closeParen ∧
      Derives w (.params params) := by
  rw [readParams] at h
  split at h
  · obtain ⟨close, htokens, hkind, rfl⟩ := map_readKind_gives.1 h
    exact ⟨[], close, htokens, hkind, .noParams⟩
  · obtain ⟨text, mid, _, hname, hafter⟩ := Reading.andThen_gives.1 h
    obtain ⟨more, hmore, rfl⟩ := Reading.map_gives.1 hafter
    obtain ⟨name, rfl, hkind, rfl⟩ := readName_gives.1 hname
    obtain ⟨w, close, rfl, hclose, hw⟩ := readMoreParams_sound hkind hmore
    exact ⟨name :: w, close, rfl, hclose, .params hw⟩

lemma readLocals_sound {tokens rest : List Token} {group : Option (List VarDef)}
    (h : (readLocals tokens).Gives group rest) :
    ∃ w, tokens = w ++ rest ∧ Derives w (.locals group) := by
  cases tokens with
  | nil =>
    obtain ⟨rfl, rfl⟩ := Reading.done_gives.1 h
    exact ⟨[], rfl, .noLocals⟩
  | cons token tokens =>
    rw [readLocals] at h
    split at h
    case isTrue hint =>
      obtain ⟨group, hgroup, rfl⟩ := Reading.map_gives.1 (Reading.after_gives.1 h)
      obtain ⟨w, htokens, hw⟩ := readVariables_sound hint hgroup
      exact ⟨w, htokens, .locals hw⟩
    case isFalse =>
      obtain ⟨rfl, rfl⟩ := Reading.done_gives.1 h
      exact ⟨[], rfl, .noLocals⟩

/-- The reader of a function starts after the function's name. -/
lemma readFunction_sound {name : Token} {tokens rest : List Token} {f : FunctionDecl}
    (hname : name.kind = .identifier) (h : (readFunction name.text tokens).Gives f rest) :
    ∃ w, name :: tokens = w ++ rest ∧ Derives w (.function f) := by
  rw [readFunction] at h
  obtain ⟨lpar, rest₁, _, hlpar, h₁⟩ := Reading.andThen_gives.1 h
  obtain ⟨params, rest₂, _, hparams, h₂⟩ := Reading.andThen_gives.1 h₁
  obtain ⟨semi, rest₃, _, hsemi, h₃⟩ := Reading.andThen_gives.1 h₂
  obtain ⟨locals, rest₄, _, hlocals, h₄⟩ := Reading.andThen_gives.1 h₃
  obtain ⟨body, hbody, rfl⟩ := Reading.map_gives.1 h₄
  obtain ⟨rfl, hlparKind⟩ := readKind_gives.1 hlpar
  obtain ⟨u, rpar, rfl, hrparKind, hu⟩ := readParams_sound hparams
  obtain ⟨rfl, hsemiKind⟩ := readKind_gives.1 hsemi
  obtain ⟨v, rfl, hv⟩ := readLocals_sound hlocals
  obtain ⟨w, rfl, hw⟩ := readBlock_sound hbody
  refine ⟨name :: lpar :: (u ++ rpar :: semi :: (v ++ w)), ?_,
    .function hname hlparKind hu hrparKind hsemiKind hv hw⟩
  simp

/-- Where a declaration was read, those read after it continue the list. -/
lemma derives_declarations_cons {u v : List Token} {d : Decl} {list : List Decl}
    (hu : Derives u (.declaration d)) (hv : v = [] ∧ list = [] ∨ Derives v (.declarations list)) :
    Derives (u ++ v) (.declarations (d :: list)) := by
  rcases hv with ⟨rfl, rfl⟩ | hv
  · rw [List.append_nil]
    exact .lastDeclaration hu
  · exact .moreDeclarations hu hv

lemma readDecls_sound {tokens rest : List Token} {list : List Decl}
    (h : (readDecls tokens).Gives list rest) :
    ∃ w, tokens = w ++ rest ∧ (w = [] ∧ list = [] ∨ Derives w (.declarations list)) := by
  cases tokens with
  | nil =>
    rw [readDecls] at h
    obtain ⟨rfl, rfl⟩ := Reading.done_gives.1 h
    exact ⟨[], rfl, .inl ⟨rfl, rfl⟩⟩
  | cons token tokens =>
    rw [readDecls] at h
    split at h
    case h_1 hint =>
      obtain ⟨group, mid, hsuffix, hgroup, hafter⟩ :=
        Reading.andThen_gives.1 (Reading.after_gives.1 h)
      have hlength := hsuffix.length_le
      obtain ⟨more, hmore, rfl⟩ := Reading.map_gives.1 hafter
      obtain ⟨v, hmid, hv⟩ := readDecls_sound hmore
      obtain ⟨u, htokens, hu⟩ := readVariables_sound hint hgroup
      refine ⟨u ++ v, ?_, .inr (derives_declarations_cons (.variablesDeclaration hu) hv)⟩
      rw [htokens, hmid, List.append_assoc]
    case h_2 hname =>
      obtain ⟨f, mid, hsuffix, hf, hafter⟩ :=
        Reading.andThen_gives.1 (Reading.after_gives.1 h)
      have hlength := hsuffix.length_le
      obtain ⟨more, hmore, rfl⟩ := Reading.map_gives.1 hafter
      obtain ⟨v, hmid, hv⟩ := readDecls_sound hmore
      obtain ⟨u, htokens, hu⟩ := readFunction_sound hname hf
      refine ⟨u ++ v, ?_, .inr (derives_declarations_cons (.functionDeclaration hu) hv)⟩
      rw [htokens, hmid, List.append_assoc]
    case h_3 =>
      obtain ⟨rfl, rfl⟩ := Reading.done_gives.1 h
      exact ⟨[], rfl, .inl ⟨rfl, rfl⟩⟩
termination_by tokens.length
decreasing_by
  all_goals
    subst_vars
    simp only [List.length_cons]
    omega

/-- Where a declaration starts, one is read. -/
lemma not_readDecls_gives_nil {token : Token} {tokens rest : List Token}
    (hkind : token.kind = .intWord ∨ token.kind = .identifier) :
    ¬ (readDecls (token :: tokens)).Gives [] rest := by
  intro h
  rw [readDecls] at h
  rcases hkind with hkind | hkind
  · simp only [hkind] at h
    obtain ⟨_, _, _, _, hafter⟩ := Reading.andThen_gives.1 (Reading.after_gives.1 h)
    obtain ⟨_, _, heq⟩ := Reading.map_gives.1 hafter
    cases heq
  · simp only [hkind] at h
    obtain ⟨_, _, _, _, hafter⟩ := Reading.andThen_gives.1 (Reading.after_gives.1 h)
    obtain ⟨_, _, heq⟩ := Reading.map_gives.1 hafter
    cases heq

/-- A program opens with its block, or has a list of declarations that is not empty. -/
lemma readDeclarations_sound {tokens rest : List Token} {declarations : Option (List Decl)}
    (h : (readDeclarations tokens).Gives declarations rest) :
    declarations = none ∧ tokens = rest ∨
      ∃ w list, declarations = some list ∧ tokens = w ++ rest ∧ Derives w (.declarations list) := by
  cases tokens with
  | nil => exact absurd h Reading.not_gives_unexpected
  | cons token tokens =>
    rw [readDeclarations] at h
    split at h
    case h_1 =>
      obtain ⟨rfl, rfl⟩ := Reading.done_gives.1 h
      exact .inl ⟨rfl, rfl⟩
    case h_2 hkind | h_3 hkind =>
      have hstarts : token.kind = .intWord ∨ token.kind = .identifier := by
        simp [Option.some.inj hkind]
      obtain ⟨list, hlist, rfl⟩ := Reading.map_gives.1 h
      obtain ⟨w, htokens, hw⟩ := readDecls_sound hlist
      refine .inr ⟨w, list, rfl, htokens, ?_⟩
      rcases hw with ⟨rfl, rfl⟩ | hw
      · exact absurd hlist (not_readDecls_gives_nil hstarts)
      · exact hw
    case h_4 => exact absurd h Reading.not_gives_unexpected

lemma readProgram_sound {tokens rest : List Token} {p : Program}
    (h : (readProgram tokens).Gives p rest) : ∃ w, tokens = w ++ rest ∧ Derives w (.program p) := by
  rw [readProgram] at h
  obtain ⟨declarations, mid, _, hdeclarations, hafter⟩ := Reading.andThen_gives.1 h
  obtain ⟨body, hbody, rfl⟩ := Reading.map_gives.1 hafter
  obtain ⟨v, rfl, hv⟩ := readBlock_sound hbody
  rcases readDeclarations_sound hdeclarations with ⟨rfl, rfl⟩ | ⟨u, list, rfl, rfl, hu⟩
  · exact ⟨v, rfl, .bareProgram hv⟩
  · exact ⟨u ++ v, (List.append_assoc u v rest).symm, .program hu hv⟩

/-- What is parsed can be derived. -/
lemma derives_of_parse {tokens : List Token} {p : Program} (h : (parse tokens).result = .ok p) :
    Derives tokens (.program p) := by
  rw [parse] at h
  obtain ⟨program, mid, _, hprogram, hafter⟩ := Reading.andThen_gives.1 ⟨h, rfl⟩
  obtain ⟨w, rfl, hw⟩ := readProgram_sound hprogram
  cases mid with
  | nil =>
    obtain ⟨rfl, _⟩ := Reading.done_gives.1 hafter
    rwa [List.append_nil]
  | cons token mid => exact absurd hafter Reading.not_gives_unexpected

end DLang
