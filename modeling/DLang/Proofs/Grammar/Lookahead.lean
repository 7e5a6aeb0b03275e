import DLang.Proofs.Grammar.Gives

/-!
# What a reading has not seen

A reader looks at the tokens one after the other, and at one token beyond those it takes.  So if a
reading stops with a token left, what comes after that token has no influence on it: with any other
tokens there, the reading stops at the same place with the same value or the same error.

`Reading.SameBefore` says this of two readings, one made before `tail` and one before `tail'`.  It
follows the way readings are put together, and then holds of every reader.  The last lemma,
`parse_sameBefore`, is what the rest of the theory needs.
-/

namespace DLang

variable {tail tail' : List Token}

namespace Reading

variable {α β : Type} {tokens tokens' front : List Token}

/-- If the first reading stops with some tokens left before `tail`, then the second stops with the
same tokens left before `tail'`, and with the same result. -/
def SameBefore (tail tail' : List Token) (reading : Reading α tokens)
    (reading' : Reading α tokens') : Prop :=
  ∀ kept, kept ≠ [] → reading.rest = kept ++ tail →
    reading'.result = reading.result ∧ reading'.rest = kept ++ tail'

namespace SameBefore

/-- A reading that is made from `tail` itself leaves nothing before it. -/
lemma of_tail {reading : Reading α tail} {reading' : Reading α tokens'} :
    SameBefore tail tail' reading reading' := by
  intro kept hkept hrest
  have hlength := reading.suffix.length_le
  rw [hrest, List.length_append] at hlength
  exact absurd (List.length_eq_zero_iff.1 (by omega)) hkept

lemma done {value : α} (front : List Token) :
    SameBefore tail tail' (done value (front ++ tail)) (Reading.done value (front ++ tail')) := by
  intro kept _ hrest
  have hfront : front = kept := List.append_cancel_right hrest
  rw [hfront]
  exact ⟨rfl, rfl⟩

lemma unexpected {expected : Expected} (front : List Token) :
    SameBefore tail tail' (unexpected expected (front ++ tail) : Reading α _)
      (Reading.unexpected expected (front ++ tail')) := by
  cases front with
  | nil => exact of_tail
  | cons token front =>
    intro kept _ hrest
    have hfront : token :: front = kept := List.append_cancel_right hrest
    rw [← hfront]
    exact ⟨rfl, rfl⟩

lemma after {reading : Reading α tokens} {reading' : Reading α tokens'} {token : Token}
    (h : SameBefore tail tail' reading reading') :
    SameBefore tail tail' (after token reading) (Reading.after token reading') :=
  h

lemma map {reading : Reading α tokens} {reading' : Reading α tokens'} {f : α → β}
    (h : SameBefore tail tail' reading reading') :
    SameBefore tail tail' (reading.map f) (reading'.map f) := by
  intro kept hkept hrest
  obtain ⟨hresult, hrest'⟩ := h kept hkept hrest
  exact ⟨congrArg (Except.map f) hresult, hrest'⟩

/-- Two readers in a row: the second one starts with a token left before `tail`. -/
lemma andThen {reading : Reading α (front ++ tail)} {reading' : Reading α (front ++ tail')}
    {next : α → (rest : List Token) → rest <:+ front ++ tail → Reading β rest}
    {next' : α → (rest : List Token) → rest <:+ front ++ tail' → Reading β rest}
    (h : SameBefore tail tail' reading reading')
    (hnext : ∀ a token kept, kept.length < front.length → ∀ suffix suffix',
      SameBefore tail tail' (next a (token :: kept ++ tail) suffix)
        (next' a (token :: kept ++ tail') suffix')) :
    SameBefore tail tail' (reading.andThen next) (reading'.andThen next') := by
  intro kept hkept hrest
  obtain ⟨result, rest, suffix⟩ := reading
  obtain ⟨result', rest', suffix'⟩ := reading'
  cases result with
  | error e =>
    obtain ⟨hresult, hleft⟩ := h kept hkept hrest
    subst hresult hleft
    exact ⟨rfl, rfl⟩
  | ok a =>
    have hrest : (next a rest suffix).rest = kept ++ tail := hrest
    -- What the second reader leaves was left by the first one too, which has not seen the tail.
    obtain ⟨more, hmore⟩ := (next a rest suffix).suffix
    have hne : more ++ kept ≠ [] := fun hnil => hkept (List.append_eq_nil_iff.1 hnil).2
    obtain ⟨token, left, htoken⟩ := List.exists_cons_of_ne_nil hne
    rw [hrest, ← List.append_assoc, htoken] at hmore
    subst hmore
    obtain ⟨hresult, hleft⟩ := h (token :: left) (List.cons_ne_nil token left) rfl
    subst hresult hleft
    have hlength := suffix.length_le
    simp only [List.cons_append, List.length_cons, List.length_append] at hlength
    exact hnext a token left (by omega) suffix suffix' kept hkept hrest

end SameBefore

end Reading

/-! ## Single tokens -/

lemma readKind_sameBefore (kind : Kind) (front : List Token) :
    Reading.SameBefore tail tail' (readKind kind (front ++ tail))
      (readKind kind (front ++ tail')) := by
  cases front with
  | nil => exact .of_tail
  | cons token front =>
    rw [List.cons_append, List.cons_append, readKind, readKind]
    by_cases hkind : token.kind = kind
    · rw [if_pos hkind, if_pos hkind]
      exact (Reading.SameBefore.done front).after
    · rw [if_neg hkind, if_neg hkind]
      exact .unexpected (token :: front)

lemma readName_sameBefore (front : List Token) :
    Reading.SameBefore tail tail' (readName (front ++ tail)) (readName (front ++ tail')) :=
  (readKind_sameBefore .identifier front).map

lemma readInteger_sameBefore (front : List Token) :
    Reading.SameBefore tail tail' (readInteger (front ++ tail)) (readInteger (front ++ tail')) := by
  refine (readKind_sameBefore .number front).andThen fun num token kept _ _ _ => ?_
  cases Text.readInt32 num.text with
  | some value => exact .done (token :: kept)
  | none =>
    intro left _ hrest
    have hkept : token :: kept = left := List.append_cancel_right hrest
    rw [← hkept]
    exact ⟨rfl, rfl⟩

/-! ## Expressions -/

mutual

lemma readExpr_sameBefore (front : List Token) :
    Reading.SameBefore tail tail' (readExpr (front ++ tail)) (readExpr (front ++ tail')) := by
  rw [readExpr, readExpr]
  exact (readTerm_sameBefore front).andThen fun left token kept _hlength _ _ =>
    readSum_sameBefore left (token :: kept)
termination_by 4 * front.length + 2
decreasing_by
  · omega
  · simp only [List.length_cons]
    omega

lemma readSum_sameBefore (left : Expr) (front : List Token) :
    Reading.SameBefore tail tail' (readSum left (front ++ tail))
      (readSum left (front ++ tail')) := by
  cases front with
  | nil => exact .of_tail
  | cons token front =>
    rw [List.cons_append, List.cons_append, readSum, readSum]
    cases hop : sumOp? token.kind with
    | none => exact .done (token :: front)
    | some op =>
      exact ((readTerm_sameBefore front).andThen fun right token' kept _hlength _ _ =>
        readSum_sameBefore _ (token' :: kept)).after
termination_by 4 * front.length

lemma readTerm_sameBefore (front : List Token) :
    Reading.SameBefore tail tail' (readTerm (front ++ tail)) (readTerm (front ++ tail')) := by
  rw [readTerm, readTerm]
  exact (readFactor_sameBefore front).andThen fun left token kept _hlength _ _ =>
    readProduct_sameBefore left (token :: kept)
termination_by 4 * front.length + 1
decreasing_by
  · omega
  · simp only [List.length_cons]
    omega

lemma readProduct_sameBefore (left : Expr) (front : List Token) :
    Reading.SameBefore tail tail' (readProduct left (front ++ tail))
      (readProduct left (front ++ tail')) := by
  cases front with
  | nil => exact .of_tail
  | cons token front =>
    rw [List.cons_append, List.cons_append, readProduct, readProduct]
    cases hop : productOp? token.kind with
    | none => exact .done (token :: front)
    | some op =>
      exact ((readFactor_sameBefore front).andThen fun right token' kept _hlength _ _ =>
        readProduct_sameBefore _ (token' :: kept)).after
termination_by 4 * front.length

lemma readFactor_sameBefore (front : List Token) :
    Reading.SameBefore tail tail' (readFactor (front ++ tail)) (readFactor (front ++ tail')) := by
  cases front with
  | nil => exact .of_tail
  | cons token front =>
    rw [List.cons_append, List.cons_append, readFactor, readFactor]
    split
    case h_1 =>
      exact ((readExpr_sameBefore front).andThen fun e token' kept _ _ _ =>
        (readKind_sameBefore .closeParen (token' :: kept)).map).after
    case h_2 => exact (readInteger_sameBefore (token :: front)).map
    case h_3 => exact (readNamed_sameBefore token.text front).after
    case h_4 => exact .unexpected (token :: front)
termination_by 4 * front.length

lemma readNamed_sameBefore (name : String) (front : List Token) :
    Reading.SameBefore tail tail' (readNamed name (front ++ tail))
      (readNamed name (front ++ tail')) := by
  cases front with
  | nil => exact .of_tail
  | cons token front =>
    rw [List.cons_append, List.cons_append, readNamed, readNamed]
    split
    case h_1 =>
      exact ((readExpr_sameBefore front).andThen fun index token' kept _ _ _ =>
        (readKind_sameBefore .closeBracket (token' :: kept)).map).after
    case h_2 => exact (readArgs_sameBefore front).map.after
    case h_3 => exact .done (token :: front)
termination_by 4 * front.length

lemma readArgs_sameBefore (front : List Token) :
    Reading.SameBefore tail tail' (readArgs (front ++ tail)) (readArgs (front ++ tail')) := by
  cases front with
  | nil => exact .of_tail
  | cons token front =>
    rw [readArgs, readArgs]
    have hhead (list : List Token) : headKind (token :: front ++ list) = some token.kind := rfl
    rw [hhead, hhead]
    split
    · exact (readKind_sameBefore .closeParen (token :: front)).map
    · exact (readExpr_sameBefore (token :: front)).andThen fun e token' kept _hlength _ _ =>
        (readMoreArgs_sameBefore (token' :: kept)).map
termination_by 4 * front.length + 3
decreasing_by
  · omega
  · simp only [List.length_cons] at _hlength ⊢
    omega

lemma readMoreArgs_sameBefore (front : List Token) :
    Reading.SameBefore tail tail' (readMoreArgs (front ++ tail))
      (readMoreArgs (front ++ tail')) := by
  cases front with
  | nil => exact .of_tail
  | cons token front =>
    rw [List.cons_append, List.cons_append, readMoreArgs, readMoreArgs]
    split
    · exact ((readExpr_sameBefore front).andThen fun e token' kept _hlength _ _ =>
        (readMoreArgs_sameBefore (token' :: kept)).map).after
    · exact (readKind_sameBefore .closeParen (token :: front)).map
termination_by 4 * front.length

end

lemma readComparison_sameBefore (front : List Token) :
    Reading.SameBefore tail tail' (readComparison (front ++ tail))
      (readComparison (front ++ tail')) := by
  refine (readExpr_sameBefore front).andThen fun left token kept _ _ _ => ?_
  simp only [List.cons_append]
  cases relOp? token.kind with
  | some op => exact (readExpr_sameBefore kept).map.after
  | none => exact .unexpected (token :: kept)

/-! ## Statements -/

lemma readTarget_sameBefore (front : List Token) :
    Reading.SameBefore tail tail' (readTarget (front ++ tail)) (readTarget (front ++ tail')) := by
  refine (readName_sameBefore front).andThen fun name token kept _ _ _ => ?_
  simp only [List.cons_append]
  by_cases hkind : token.kind = .openBracket
  · rw [if_pos hkind, if_pos hkind]
    exact ((readExpr_sameBefore kept).andThen fun index token' kept' _ _ _ =>
      (readKind_sameBefore .closeBracket (token' :: kept')).map).after
  · rw [if_neg hkind, if_neg hkind]
    exact .done (token :: kept)

lemma readAssignment_sameBefore (front : List Token) :
    Reading.SameBefore tail tail' (readAssignment (front ++ tail))
      (readAssignment (front ++ tail')) :=
  (readTarget_sameBefore front).andThen fun _ token kept _ _ _ =>
    (readKind_sameBefore .equal (token :: kept)).andThen fun _ token' kept' _ _ _ =>
      (readExpr_sameBefore (token' :: kept')).map

lemma readParenthesised_sameBefore {α : Type} {read : (tokens : List Token) → Reading α tokens}
    (hread : ∀ front, Reading.SameBefore tail tail' (read (front ++ tail)) (read (front ++ tail')))
    (front : List Token) :
    Reading.SameBefore tail tail' (readParenthesised read (front ++ tail))
      (readParenthesised read (front ++ tail')) :=
  (readKind_sameBefore .openParen front).andThen fun _ token kept _ _ _ =>
    (hread (token :: kept)).andThen fun _ token' kept' _ _ _ =>
      (readKind_sameBefore .closeParen (token' :: kept')).map

mutual

lemma readStmt_sameBefore (front : List Token) :
    Reading.SameBefore tail tail' (readStmt (front ++ tail)) (readStmt (front ++ tail')) := by
  cases front with
  | nil => exact .of_tail
  | cons token front =>
    have hcondition : Reading.SameBefore tail tail'
        (readParenthesised readComparison (front ++ tail))
        (readParenthesised readComparison (front ++ tail')) :=
      readParenthesised_sameBefore readComparison_sameBefore front
    rw [List.cons_append, List.cons_append, readStmt, readStmt]
    split
    case h_1 | h_2 => exact .done (token :: front)
    case h_3 => exact (readAssignment_sameBefore (token :: front)).map
    case h_4 =>
      exact (hcondition.andThen fun _ token' kept _hlength _ _ =>
        (readBlock_sameBefore (token' :: kept)).andThen fun _ token'' kept' _hlength' _ _ =>
          (readElse_sameBefore (token'' :: kept')).map).after
    case h_5 =>
      exact (hcondition.andThen fun _ token' kept _hlength _ _ =>
        (readBlock_sameBefore (token' :: kept)).map).after
    case h_6 => exact (readBlock_sameBefore (token :: front)).map
    case h_7 => exact (readParenthesised_sameBefore readExpr_sameBefore front).map.after
    case h_8 => exact (readParenthesised_sameBefore readName_sameBefore front).map.after
    case h_9 => exact (readExpr_sameBefore front).map.after
    case h_10 => exact .unexpected (token :: front)
termination_by 3 * front.length + 1
decreasing_by
  all_goals
    simp only [List.length_cons] at *
    omega

lemma readElse_sameBefore (front : List Token) :
    Reading.SameBefore tail tail' (readElse (front ++ tail)) (readElse (front ++ tail')) := by
  cases front with
  | nil => exact .of_tail
  | cons token front =>
    rw [List.cons_append, List.cons_append, readElse, readElse]
    split
    · exact (readBlock_sameBefore front).map.after
    · exact .done (token :: front)
termination_by 3 * front.length

lemma readBlock_sameBefore (front : List Token) :
    Reading.SameBefore tail tail' (readBlock (front ++ tail)) (readBlock (front ++ tail')) := by
  cases front with
  | nil => exact .of_tail
  | cons token front =>
    rw [List.cons_append, List.cons_append, readBlock, readBlock]
    split
    · exact ((readStmts_sameBefore front).andThen fun _ token' kept _ _ _ =>
        (readKind_sameBefore .closeBrace (token' :: kept)).map).after
    · exact .unexpected (token :: front)
termination_by 3 * front.length

lemma readStmts_sameBefore (front : List Token) :
    Reading.SameBefore tail tail' (readStmts (front ++ tail)) (readStmts (front ++ tail')) := by
  rw [readStmts, readStmts]
  refine (readStmt_sameBefore front).andThen fun stmt token kept _hlength _ _ => ?_
  simp only [List.cons_append]
  by_cases hkind : token.kind = .semicolon
  · rw [if_pos hkind, if_pos hkind]
    exact (readStmts_sameBefore kept).map.after
  · rw [if_neg hkind, if_neg hkind]
    exact .done (token :: kept)
termination_by 3 * front.length + 2

end

/-! ## Declarations and programs -/

lemma readVarDef_sameBefore (front : List Token) :
    Reading.SameBefore tail tail' (readVarDef (front ++ tail)) (readVarDef (front ++ tail')) := by
  refine (readName_sameBefore front).andThen fun name token kept _ _ _ => ?_
  simp only [List.cons_append]
  by_cases hkind : token.kind = .openBracket
  · rw [if_pos hkind, if_pos hkind]
    exact ((readInteger_sameBefore kept).andThen fun size token' kept' _ _ _ =>
      (readKind_sameBefore .closeBracket (token' :: kept')).map).after
  · rw [if_neg hkind, if_neg hkind]
    exact .done (token :: kept)

lemma readMoreVarDefs_sameBefore (front : List Token) :
    Reading.SameBefore tail tail' (readMoreVarDefs (front ++ tail))
      (readMoreVarDefs (front ++ tail')) := by
  cases front with
  | nil => exact .of_tail
  | cons token front =>
    rw [List.cons_append, List.cons_append, readMoreVarDefs, readMoreVarDefs]
    split
    · exact ((readVarDef_sameBefore front).andThen fun _ token' kept _hlength _ _ =>
        (readMoreVarDefs_sameBefore (token' :: kept)).map).after
    · exact (readKind_sameBefore .semicolon (token :: front)).map
termination_by front.length

lemma readVariables_sameBefore (front : List Token) :
    Reading.SameBefore tail tail' (readVariables (front ++ tail))
      (readVariables (front ++ tail')) :=
  (readVarDef_sameBefore front).andThen fun _ token kept _ _ _ =>
    (readMoreVarDefs_sameBefore (token :: kept)).map

lemma readMoreParams_sameBefore (front : List Token) :
    Reading.SameBefore tail tail' (readMoreParams (front ++ tail))
      (readMoreParams (front ++ tail')) := by
  cases front with
  | nil => exact .of_tail
  | cons token front =>
    rw [List.cons_append, List.cons_append, readMoreParams, readMoreParams]
    split
    · exact ((readName_sameBefore front).andThen fun _ token' kept _hlength _ _ =>
        (readMoreParams_sameBefore (token' :: kept)).map).after
    · exact (readKind_sameBefore .closeParen (token :: front)).map
termination_by front.length

lemma readParams_sameBefore (front : List Token) :
    Reading.SameBefore tail tail' (readParams (front ++ tail)) (readParams (front ++ tail')) := by
  cases front with
  | nil => exact .of_tail
  | cons token front =>
    have hhead (list : List Token) : headKind (token :: front ++ list) = some token.kind := rfl
    rw [readParams, readParams, hhead, hhead]
    split
    · exact (readKind_sameBefore .closeParen (token :: front)).map
    · exact (readName_sameBefore (token :: front)).andThen fun _ token' kept _ _ _ =>
        (readMoreParams_sameBefore (token' :: kept)).map

lemma readLocals_sameBefore (front : List Token) :
    Reading.SameBefore tail tail' (readLocals (front ++ tail)) (readLocals (front ++ tail')) := by
  cases front with
  | nil => exact .of_tail
  | cons token front =>
    rw [List.cons_append, List.cons_append, readLocals, readLocals]
    split
    · exact (readVariables_sameBefore front).map.after
    · exact .done (token :: front)

lemma readFunction_sameBefore (name : String) (front : List Token) :
    Reading.SameBefore tail tail' (readFunction name (front ++ tail))
      (readFunction name (front ++ tail')) :=
  (readKind_sameBefore .openParen front).andThen fun _ t₁ kept₁ _ _ _ =>
    (readParams_sameBefore (t₁ :: kept₁)).andThen fun _ t₂ kept₂ _ _ _ =>
      (readKind_sameBefore .semicolon (t₂ :: kept₂)).andThen fun _ t₃ kept₃ _ _ _ =>
        (readLocals_sameBefore (t₃ :: kept₃)).andThen fun _ t₄ kept₄ _ _ _ =>
          (readBlock_sameBefore (t₄ :: kept₄)).map

lemma readDecls_sameBefore (front : List Token) :
    Reading.SameBefore tail tail' (readDecls (front ++ tail)) (readDecls (front ++ tail')) := by
  cases front with
  | nil => exact .of_tail
  | cons token front =>
    rw [List.cons_append, List.cons_append, readDecls, readDecls]
    split
    case h_1 =>
      exact ((readVariables_sameBefore front).andThen fun _ token' kept _hlength _ _ =>
        (readDecls_sameBefore (token' :: kept)).map).after
    case h_2 =>
      exact ((readFunction_sameBefore token.text front).andThen fun _ token' kept _hlength _ _ =>
        (readDecls_sameBefore (token' :: kept)).map).after
    case h_3 => exact .done (token :: front)
termination_by front.length

lemma readDeclarations_sameBefore (front : List Token) :
    Reading.SameBefore tail tail' (readDeclarations (front ++ tail))
      (readDeclarations (front ++ tail')) := by
  cases front with
  | nil => exact .of_tail
  | cons token front =>
    have hhead (list : List Token) : headKind (token :: front ++ list) = some token.kind := rfl
    rw [readDeclarations, readDeclarations, hhead, hhead]
    split
    case h_1 => exact .done (token :: front)
    case h_2 | h_3 => exact (readDecls_sameBefore (token :: front)).map
    case h_4 => exact .unexpected (token :: front)

lemma readProgram_sameBefore (front : List Token) :
    Reading.SameBefore tail tail' (readProgram (front ++ tail)) (readProgram (front ++ tail')) :=
  (readDeclarations_sameBefore front).andThen fun _ token kept _ _ _ =>
    (readBlock_sameBefore (token :: kept)).map

/-- Parsing that stops with a token left does not depend on what comes after that token. -/
lemma parse_sameBefore (front : List Token) :
    Reading.SameBefore tail tail' (parse (front ++ tail)) (parse (front ++ tail')) :=
  (readProgram_sameBefore front).andThen fun _ token kept _ _ _ => .unexpected (token :: kept)

end DLang
