import DLang.Parsing.Program
import Mathlib.Tactic.Common

/-!
# Reading does not look at lines

No reader looks at the lines of the tokens.  A line is only handed on, from a token to the error
that names it.  So the same tokens on another line are read to the same value, or to the same error
on that line, and the same tokens are left.

`Reading.Relined` says this of two readings, the second one made with all tokens on one given line.
It follows the way readings are put together, and then holds of every reader, by the recursion of
the readers.  What later stages need is the last lemma, `result_parse_onLine`.
-/

namespace DLang

/-- The token on a given line. -/
def Token.onLine (line : Nat) (token : Token) : Token :=
  { token with line }

/-- The error on a given line, if it is about one. -/
def ParseError.onLine (line : Nat) : ParseError → ParseError
  | unexpectedToken found _ expected => unexpectedToken found line expected
  | unexpectedEnd expected => unexpectedEnd expected
  | outOfRange literal _ => outOfRange literal line

lemma Token.kind_onLine (line : Nat) (token : Token) : (token.onLine line).kind = token.kind :=
  rfl

lemma Token.text_onLine (line : Nat) (token : Token) : (token.onLine line).text = token.text :=
  rfl

/-- The second list is the first one with every token on the given line. -/
inductive OnLine (line : Nat) : List Token → List Token → Prop
  | nil : OnLine line [] []
  | cons {token : Token} {tokens tokens' : List Token} :
      OnLine line tokens tokens' → OnLine line (token :: tokens) (token.onLine line :: tokens')

lemma onLine_map (line : Nat) (tokens : List Token) :
    OnLine line tokens (tokens.map (Token.onLine line)) := by
  induction tokens with
  | nil => exact .nil
  | cons token tokens ih => exact .cons ih

variable {line : Nat} {tokens tokens' : List Token}

lemma OnLine.headKind_eq (h : OnLine line tokens tokens') : headKind tokens' = headKind tokens := by
  cases h <;> rfl

/-! ## Readings on another line -/

namespace Reading

variable {α β : Type}

/-- To change a value is to go on with the changed value and to read nothing more. -/
lemma map_eq_andThen (reading : Reading α tokens) (f : α → β) :
    reading.map f = reading.andThen fun a rest _ => done (f a) rest := by
  obtain ⟨result, rest, suffix⟩ := reading
  cases result <;> rfl

/-- The second reading gives what the first one gives, with every token on the given line. -/
def Relined (line : Nat) (reading : Reading α tokens) (reading' : Reading α tokens') : Prop :=
  reading'.result = reading.result.mapError (ParseError.onLine line) ∧
    OnLine line reading.rest reading'.rest

namespace Relined

lemma done (value : α) (h : OnLine line tokens tokens') :
    Relined line (done value tokens) (Reading.done value tokens') :=
  ⟨rfl, h⟩

lemma unexpected (expected : Expected) (h : OnLine line tokens tokens') :
    Relined line (unexpected expected tokens : Reading α tokens)
      (Reading.unexpected expected tokens') := by
  cases h with
  | nil => exact ⟨rfl, .nil⟩
  | cons hrest => exact ⟨rfl, .cons hrest⟩

lemma after {reading : Reading α tokens} {reading' : Reading α tokens'} {token token' : Token}
    (h : Relined line reading reading') :
    Relined line (after token reading) (Reading.after token' reading') :=
  h

/-- A condition that does not look at lines is decided alike. -/
lemma ifThen {p : Prop} {inst inst' : Decidable p} {yes no : Reading α tokens}
    {yes' no' : Reading α tokens'} (hyes : Relined line yes yes') (hno : Relined line no no') :
    Relined line (@ite _ p inst yes no) (@ite _ p inst' yes' no') := by
  split
  · exact hyes
  · exact hno

lemma andThen {reading : Reading α tokens} {reading' : Reading α tokens'}
    {next : α → (rest : List Token) → rest <:+ tokens → Reading β rest}
    {next' : α → (rest : List Token) → rest <:+ tokens' → Reading β rest}
    (h : Relined line reading reading')
    (hnext : ∀ a rest rest' suffix suffix', OnLine line rest rest' →
      Relined line (next a rest suffix) (next' a rest' suffix')) :
    Relined line (reading.andThen next) (reading'.andThen next') := by
  obtain ⟨result, rest, suffix⟩ := reading
  obtain ⟨result', rest', suffix'⟩ := reading'
  obtain ⟨hresult, hrest⟩ := h
  dsimp only at hresult hrest
  subst hresult
  cases result with
  | error e => exact ⟨rfl, hrest⟩
  | ok a => exact hnext a rest rest' suffix suffix' hrest

lemma map {reading : Reading α tokens} {reading' : Reading α tokens'} {f : α → β}
    (h : Relined line reading reading') : Relined line (reading.map f) (reading'.map f) := by
  rw [map_eq_andThen, map_eq_andThen]
  exact h.andThen fun a _ _ _ _ hrest => .done (f a) hrest

end Relined

end Reading

/-! ## Single tokens -/

section Tokens

variable {α : Type}

/-- After a token reading goes on with the token on the other line. -/
lemma readKind_andThen_relined {kind : Kind} (h : OnLine line tokens tokens')
    {next : Token → (rest : List Token) → rest <:+ tokens → Reading α rest}
    {next' : Token → (rest : List Token) → rest <:+ tokens' → Reading α rest}
    (hnext : ∀ token rest rest' suffix suffix', OnLine line rest rest' →
      (next token rest suffix).Relined line (next' (token.onLine line) rest' suffix')) :
    ((readKind kind tokens).andThen next).Relined line
      ((readKind kind tokens').andThen next') := by
  cases h with
  | nil => exact ⟨rfl, .nil⟩
  | @cons token tokens tokens' hrest =>
    rw [readKind, readKind]
    by_cases hkind : token.kind = kind
    · rw [if_pos hkind, if_pos ((token.kind_onLine line).trans hkind)]
      exact hnext token tokens tokens' _ _ hrest
    · rw [if_neg hkind, if_neg (token.kind_onLine line ▸ hkind)]
      exact ⟨rfl, .cons hrest⟩

/-- A token that is read for what it is apart from its line. -/
lemma readKind_map_relined {kind : Kind} (h : OnLine line tokens tokens') {f : Token → α}
    (hf : ∀ token, f (token.onLine line) = f token) :
    ((readKind kind tokens).map f).Relined line ((readKind kind tokens').map f) := by
  rw [Reading.map_eq_andThen, Reading.map_eq_andThen]
  refine readKind_andThen_relined h fun token _ _ _ _ hrest => ?_
  rw [hf]
  exact .done (f token) hrest

/-- A token that is read only for its kind. -/
lemma readKind_relined {kind : Kind} {a : α} (h : OnLine line tokens tokens') :
    ((readKind kind tokens).map fun _ => a).Relined line
      ((readKind kind tokens').map fun _ => a) :=
  readKind_map_relined h fun _ => rfl

lemma readName_relined (h : OnLine line tokens tokens') :
    (readName tokens).Relined line (readName tokens') :=
  readKind_map_relined h fun _ => rfl

/-- A number out of range is reported on the line on which it stands now. -/
lemma readInteger_relined (h : OnLine line tokens tokens') :
    (readInteger tokens).Relined line (readInteger tokens') := by
  refine readKind_andThen_relined h fun token rest rest' _ _ hrest => ?_
  simp only [Token.text_onLine]
  cases Text.readInt32 token.text with
  | some value => exact .done value hrest
  | none => exact ⟨rfl, hrest⟩

end Tokens

/-! ## Expressions -/

-- The recursion is that of the readers.
mutual

lemma readExpr_relined {tokens tokens' : List Token} (h : OnLine line tokens tokens') :
    (readExpr tokens).Relined line (readExpr tokens') := by
  rw [readExpr, readExpr]
  refine (readTerm_relined h).andThen fun left _ _ suffix _ hrest => ?_
  have hlength := suffix.length_le
  exact readSum_relined left hrest
termination_by 4 * tokens.length + 2

lemma readSum_relined (left : Expr) {tokens tokens' : List Token}
    (h : OnLine line tokens tokens') :
    (readSum left tokens).Relined line (readSum left tokens') := by
  cases h with
  | nil =>
    rw [readSum]
    exact .done left .nil
  | @cons token tokens tokens' hrest =>
    rw [readSum, readSum, Token.kind_onLine]
    cases sumOp? token.kind with
    | none => exact .done left (.cons hrest)
    | some op =>
      refine ((readTerm_relined hrest).andThen fun right _ _ suffix _ hmore => ?_).after
      have hlength := suffix.length_le
      exact readSum_relined _ hmore
termination_by 4 * tokens.length

lemma readTerm_relined {tokens tokens' : List Token} (h : OnLine line tokens tokens') :
    (readTerm tokens).Relined line (readTerm tokens') := by
  rw [readTerm, readTerm]
  refine (readFactor_relined h).andThen fun left _ _ suffix _ hrest => ?_
  have hlength := suffix.length_le
  exact readProduct_relined left hrest
termination_by 4 * tokens.length + 1

lemma readProduct_relined (left : Expr) {tokens tokens' : List Token}
    (h : OnLine line tokens tokens') :
    (readProduct left tokens).Relined line (readProduct left tokens') := by
  cases h with
  | nil =>
    rw [readProduct]
    exact .done left .nil
  | @cons token tokens tokens' hrest =>
    rw [readProduct, readProduct, Token.kind_onLine]
    cases productOp? token.kind with
    | none => exact .done left (.cons hrest)
    | some op =>
      refine ((readFactor_relined hrest).andThen fun right _ _ suffix _ hmore => ?_).after
      have hlength := suffix.length_le
      exact readProduct_relined _ hmore
termination_by 4 * tokens.length

lemma readFactor_relined {tokens tokens' : List Token} (h : OnLine line tokens tokens') :
    (readFactor tokens).Relined line (readFactor tokens') := by
  cases h with
  | nil =>
    rw [readFactor]
    exact .unexpected .expression .nil
  | @cons token tokens tokens' hrest =>
    rw [readFactor, readFactor, Token.kind_onLine]
    split
    case h_1 =>
      exact .after ((readExpr_relined hrest).andThen fun _ _ _ _ _ hmore =>
        readKind_relined hmore)
    case h_2 => exact (readInteger_relined (.cons hrest)).map
    case h_3 => exact (readNamed_relined token.text hrest).after
    case h_4 => exact .unexpected .expression (.cons hrest)
termination_by 4 * tokens.length

lemma readNamed_relined (name : String) {tokens tokens' : List Token}
    (h : OnLine line tokens tokens') :
    (readNamed name tokens).Relined line (readNamed name tokens') := by
  cases h with
  | nil =>
    rw [readNamed]
    exact .done _ .nil
  | @cons token tokens tokens' hrest =>
    rw [readNamed, readNamed, Token.kind_onLine]
    split
    case h_1 =>
      exact .after ((readExpr_relined hrest).andThen fun _ _ _ _ _ hmore =>
        readKind_relined hmore)
    case h_2 => exact (readArgs_relined hrest).map.after
    case h_3 => exact .done _ (.cons hrest)
termination_by 4 * tokens.length

lemma readArgs_relined {tokens tokens' : List Token} (h : OnLine line tokens tokens') :
    (readArgs tokens).Relined line (readArgs tokens') := by
  rw [readArgs, readArgs, h.headKind_eq]
  split
  · exact readKind_relined h
  · refine (readExpr_relined h).andThen fun _ _ _ suffix _ hrest => ?_
    have hlength := suffix.length_le
    exact (readMoreArgs_relined hrest).map
termination_by 4 * tokens.length + 3

lemma readMoreArgs_relined {tokens tokens' : List Token} (h : OnLine line tokens tokens') :
    (readMoreArgs tokens).Relined line (readMoreArgs tokens') := by
  cases h with
  | nil =>
    rw [readMoreArgs]
    exact readKind_relined .nil
  | @cons token tokens tokens' hrest =>
    rw [readMoreArgs, readMoreArgs]
    refine .ifThen (.after ((readExpr_relined hrest).andThen fun _ _ _ suffix _ hmore => ?_))
      (readKind_relined (.cons hrest))
    have hlength := suffix.length_le
    exact (readMoreArgs_relined hmore).map
termination_by 4 * tokens.length

end

lemma readComparison_relined (h : OnLine line tokens tokens') :
    (readComparison tokens).Relined line (readComparison tokens') := by
  refine (readExpr_relined h).andThen fun left _ _ _ _ hafter => ?_
  cases hafter with
  | nil => exact .unexpected .relation .nil
  | @cons token _ _ hrest =>
    simp only [Token.kind_onLine]
    cases relOp? token.kind with
    | some op => exact (readExpr_relined hrest).map.after
    | none => exact .unexpected .relation (.cons hrest)

/-! ## Statements -/

lemma readTarget_relined (h : OnLine line tokens tokens') :
    (readTarget tokens).Relined line (readTarget tokens') := by
  refine (readName_relined h).andThen fun name _ _ _ _ hafter => ?_
  cases hafter with
  | nil => exact .done _ .nil
  | cons hrest =>
    exact .ifThen (.after ((readExpr_relined hrest).andThen fun _ _ _ _ _ hmore =>
      readKind_relined hmore)) (.done _ (.cons hrest))

lemma readAssignment_relined (h : OnLine line tokens tokens') :
    (readAssignment tokens).Relined line (readAssignment tokens') :=
  (readTarget_relined h).andThen fun _ _ _ _ _ hrest =>
    readKind_andThen_relined hrest fun _ _ _ _ _ hmore => (readExpr_relined hmore).map

lemma readParenthesised_relined {α : Type} {read : (tokens : List Token) → Reading α tokens}
    (hread : ∀ {tokens tokens'}, OnLine line tokens tokens' →
      (read tokens).Relined line (read tokens'))
    (h : OnLine line tokens tokens') :
    (readParenthesised read tokens).Relined line (readParenthesised read tokens') :=
  readKind_andThen_relined h fun _ _ _ _ _ hrest =>
    (hread hrest).andThen fun _ _ _ _ _ hmore => readKind_relined hmore

mutual

lemma readStmt_relined {tokens tokens' : List Token} (h : OnLine line tokens tokens') :
    (readStmt tokens).Relined line (readStmt tokens') := by
  cases h with
  | nil =>
    rw [readStmt]
    exact .unexpected .statement .nil
  | cons hrest =>
    have hcondition := readParenthesised_relined readComparison_relined hrest
    rw [readStmt, readStmt, Token.kind_onLine]
    split
    case h_1 | h_2 => exact .done none (.cons hrest)
    case h_3 => exact (readAssignment_relined (.cons hrest)).map
    case h_4 =>
      refine (hcondition.andThen fun _ _ _ suffix _ hyes => ?_).after
      have hlength := suffix.length_le
      refine (readBlock_relined hyes).andThen fun _ _ _ suffix' _ hno => ?_
      have hlength' := suffix'.length_le
      exact (readElse_relined hno).map
    case h_5 =>
      refine (hcondition.andThen fun _ _ _ suffix _ hbody => ?_).after
      have hlength := suffix.length_le
      exact (readBlock_relined hbody).map
    case h_6 => exact (readBlock_relined (.cons hrest)).map
    case h_7 => exact (readParenthesised_relined readExpr_relined hrest).map.after
    case h_8 => exact (readParenthesised_relined readName_relined hrest).map.after
    case h_9 => exact (readExpr_relined hrest).map.after
    case h_10 => exact .unexpected .statement (.cons hrest)
termination_by 3 * tokens.length + 1

lemma readElse_relined {tokens tokens' : List Token} (h : OnLine line tokens tokens') :
    (readElse tokens).Relined line (readElse tokens') := by
  cases h with
  | nil =>
    rw [readElse]
    exact .done none .nil
  | cons hrest =>
    rw [readElse, readElse]
    exact .ifThen (readBlock_relined hrest).map.after (.done none (.cons hrest))
termination_by 3 * tokens.length

lemma readBlock_relined {tokens tokens' : List Token} (h : OnLine line tokens tokens') :
    (readBlock tokens).Relined line (readBlock tokens') := by
  cases h with
  | nil =>
    rw [readBlock]
    exact .unexpected (.token .openBrace) .nil
  | cons hrest =>
    rw [readBlock, readBlock]
    exact .ifThen (.after ((readStmts_relined hrest).andThen fun _ _ _ _ _ hmore =>
      readKind_relined hmore)) (.unexpected (.token .openBrace) (.cons hrest))
termination_by 3 * tokens.length

lemma readStmts_relined {tokens tokens' : List Token} (h : OnLine line tokens tokens') :
    (readStmts tokens).Relined line (readStmts tokens') := by
  rw [readStmts, readStmts]
  refine (readStmt_relined h).andThen fun stmt _ _ suffix _ hafter => ?_
  have hlength := suffix.length_le
  cases hafter with
  | nil => exact .done _ .nil
  | cons hrest =>
    exact .ifThen (readStmts_relined hrest).map.after (.done _ (.cons hrest))
termination_by 3 * tokens.length + 2

end

/-! ## Declarations and programs -/

lemma readVarDef_relined (h : OnLine line tokens tokens') :
    (readVarDef tokens).Relined line (readVarDef tokens') := by
  refine (readName_relined h).andThen fun name _ _ _ _ hafter => ?_
  cases hafter with
  | nil => exact .done _ .nil
  | cons hrest =>
    exact .ifThen (.after ((readInteger_relined hrest).andThen fun _ _ _ _ _ hmore =>
      readKind_relined hmore)) (.done _ (.cons hrest))

lemma readMoreVarDefs_relined {tokens tokens' : List Token} (h : OnLine line tokens tokens') :
    (readMoreVarDefs tokens).Relined line (readMoreVarDefs tokens') := by
  cases h with
  | nil =>
    rw [readMoreVarDefs]
    exact readKind_relined .nil
  | cons hrest =>
    rw [readMoreVarDefs, readMoreVarDefs]
    refine .ifThen (.after ((readVarDef_relined hrest).andThen fun _ _ _ suffix _ hmore => ?_))
      (readKind_relined (.cons hrest))
    have hlength := suffix.length_le
    exact (readMoreVarDefs_relined hmore).map
termination_by tokens.length

lemma readVariables_relined (h : OnLine line tokens tokens') :
    (readVariables tokens).Relined line (readVariables tokens') :=
  (readVarDef_relined h).andThen fun _ _ _ _ _ hrest => (readMoreVarDefs_relined hrest).map

lemma readMoreParams_relined {tokens tokens' : List Token} (h : OnLine line tokens tokens') :
    (readMoreParams tokens).Relined line (readMoreParams tokens') := by
  cases h with
  | nil =>
    rw [readMoreParams]
    exact readKind_relined .nil
  | cons hrest =>
    rw [readMoreParams, readMoreParams]
    refine .ifThen (.after ((readName_relined hrest).andThen fun _ _ _ suffix _ hmore => ?_))
      (readKind_relined (.cons hrest))
    have hlength := suffix.length_le
    exact (readMoreParams_relined hmore).map
termination_by tokens.length

lemma readParams_relined (h : OnLine line tokens tokens') :
    (readParams tokens).Relined line (readParams tokens') := by
  rw [readParams, readParams, h.headKind_eq]
  split
  · exact readKind_relined h
  · exact (readName_relined h).andThen fun _ _ _ _ _ hrest => (readMoreParams_relined hrest).map

lemma readLocals_relined (h : OnLine line tokens tokens') :
    (readLocals tokens).Relined line (readLocals tokens') := by
  cases h with
  | nil => exact .done none .nil
  | cons hrest =>
    rw [readLocals, readLocals]
    exact .ifThen (readVariables_relined hrest).map.after (.done none (.cons hrest))

lemma readFunction_relined (name : String) (h : OnLine line tokens tokens') :
    (readFunction name tokens).Relined line (readFunction name tokens') :=
  readKind_andThen_relined h fun _ _ _ _ _ h₁ =>
    (readParams_relined h₁).andThen fun _ _ _ _ _ h₂ =>
      readKind_andThen_relined h₂ fun _ _ _ _ _ h₃ =>
        (readLocals_relined h₃).andThen fun _ _ _ _ _ h₄ => (readBlock_relined h₄).map

lemma readDecls_relined {tokens tokens' : List Token} (h : OnLine line tokens tokens') :
    (readDecls tokens).Relined line (readDecls tokens') := by
  cases h with
  | nil =>
    rw [readDecls]
    exact .done [] .nil
  | @cons token tokens tokens' hrest =>
    rw [readDecls, readDecls, Token.kind_onLine]
    split
    case h_1 =>
      refine ((readVariables_relined hrest).andThen fun _ _ _ suffix _ hmore => ?_).after
      have hlength := suffix.length_le
      exact (readDecls_relined hmore).map
    case h_2 =>
      refine ((readFunction_relined token.text hrest).andThen fun _ _ _ suffix _ hmore => ?_).after
      have hlength := suffix.length_le
      exact (readDecls_relined hmore).map
    case h_3 => exact .done [] (.cons hrest)
termination_by tokens.length

lemma readDeclarations_relined (h : OnLine line tokens tokens') :
    (readDeclarations tokens).Relined line (readDeclarations tokens') := by
  rw [readDeclarations, readDeclarations, h.headKind_eq]
  split
  case h_1 => exact .done none h
  case h_2 | h_3 => exact (readDecls_relined h).map
  case h_4 => exact .unexpected .declaration h

lemma readProgram_relined (h : OnLine line tokens tokens') :
    (readProgram tokens).Relined line (readProgram tokens') :=
  (readDeclarations_relined h).andThen fun _ _ _ _ _ hrest => (readBlock_relined hrest).map

lemma parse_relined (h : OnLine line tokens tokens') :
    (parse tokens).Relined line (parse tokens') := by
  refine (readProgram_relined h).andThen fun p _ _ _ _ hafter => ?_
  cases hafter with
  | nil => exact .done p .nil
  | cons hrest => exact .unexpected .endOfInput (.cons hrest)

/-- Tokens on another line are parsed to the same program, or to the same error on that line. -/
lemma result_parse_onLine (line : Nat) (tokens : List Token) :
    (parse (tokens.map (Token.onLine line))).result =
      (parse tokens).result.mapError (ParseError.onLine line) :=
  (parse_relined (onLine_map line tokens)).1

end DLang
