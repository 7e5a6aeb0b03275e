import DLang.Proofs.Grammar.Soundness

/-!
# Readings that fail have begun a word

A reader that fails has taken the beginning of a word of its nonterminal, and the error names what
stands after that beginning (`Reading.Viable`).  Each reader on the way to the failure can finish
what it has begun, with a short word for what it has not read: zero for an expression, an empty
block for a block.  The parts that were read completely are words by the soundness of their readers,
so each induction is about the point of failure only.

The result is `parse_viable`.  It is about tokens whose numbers are in range: a number out of range
is an error of its own, which is found only after the number was taken.
-/

namespace DLang

/-! ## Words of the grammar -/

/-- The tokens are a word of a nonterminal. -/
def Word {α : Type} (phrase : α → Phrase) (w : List Token) : Prop :=
  ∃ tree, Derives w (phrase tree)

/-- The tokens are a word of a nonterminal and a token that closes it. -/
def ClosedWord {α : Type} (kind : Kind) (phrase : α → Phrase) (w : List Token) : Prop :=
  ∃ u close, w = u ++ [close] ∧ close.kind = kind ∧ Word phrase u

/-- The tokens are one name. -/
def NameWord (w : List Token) : Prop :=
  ∃ name : Token, w = [name] ∧ name.kind = .identifier

/-- The tokens are parentheses around some word. -/
def Parenthesised (inner : List Token → Prop) (w : List Token) : Prop :=
  ∃ (lpar : Token) (u : List Token) (rpar : Token), w = lpar :: (u ++ [rpar]) ∧
    lpar.kind = .openParen ∧ rpar.kind = .closeParen ∧ inner u

/-- Some token of a kind; if it is a number, it is zero. -/
def someToken (kind : Kind) : Token :=
  { kind, text := "0", line := 1 }

namespace ClosedWord

variable {α β : Type} {kind : Kind} {phrase : α → Phrase} {phrase' : β → Phrase} {u w : List Token}

lemma close (h : Word phrase w) : ClosedWord kind phrase (w ++ [someToken kind]) :=
  ⟨w, someToken kind, rfl, rfl, h⟩

lemma mono (h : ClosedWord kind phrase w) (hword : ∀ v, Word phrase v → Word phrase' v) :
    ClosedWord kind phrase' w := by
  obtain ⟨v, close, rfl, hclose, hv⟩ := h
  exact ⟨v, close, rfl, hclose, hword v hv⟩

/-- The word grows at its front only, so what closes it stays. -/
lemma after {separator : Token} (h : ClosedWord kind phrase w)
    (hword : ∀ v, Word phrase v → Word phrase' (u ++ separator :: v)) :
    ClosedWord kind phrase' (u ++ separator :: w) := by
  obtain ⟨v, close, rfl, hclose, hv⟩ := h
  refine ⟨u ++ separator :: v, close, ?_, hclose, hword v hv⟩
  rw [List.append_assoc]
  rfl

end ClosedWord

lemma readInt32_someToken : Text.readInt32 (someToken .number).text = some 0 := by
  decide

lemma derives_zero : Derives [someToken .number] (.factor (.integer 0 none)) :=
  .number rfl readInt32_someToken

lemma derives_zeroExpression : Derives [someToken .number] (.expression (.integer 0 none)) :=
  .firstTerm (.firstFactor derives_zero)

lemma derives_emptyBlock : Derives [someToken .openBrace, someToken .closeBrace] (.block []) :=
  .block rfl (.lastStatement .emptyStatement) rfl

lemma someToken_relSign : RelSign (someToken .doubleEqual).kind .equal :=
  .doubleEqual

lemma derives_zeroComparison :
    Derives [someToken .number, someToken .doubleEqual, someToken .number]
      (.comparison (.compare .equal (.integer 0 none) (.integer 0 none) none)) :=
  .comparison derives_zeroExpression someToken_relSign derives_zeroExpression

/-! ## Readings that fail on the way to a word -/

/-- Every number among the tokens is in range. -/
def NumeralsRead (tokens : List Token) : Prop :=
  ∀ token ∈ tokens, token.kind = .number → (Text.readInt32 token.text).isSome = true

lemma NumeralsRead.of_suffix {tokens rest : List Token} (h : NumeralsRead tokens)
    (hsuffix : rest <:+ tokens) : NumeralsRead rest :=
  fun token htoken => h token (hsuffix.subset htoken)

lemma NumeralsRead.of_cons {token : Token} {tokens : List Token}
    (h : NumeralsRead (token :: tokens)) : NumeralsRead tokens :=
  h.of_suffix (List.suffix_cons token tokens)

/-- The error is the one for what stands at the head of the tokens, if anything does. -/
def ParseError.FoundAt (e : ParseError) : List Token → Prop
  | [] => ∃ expected, e = .unexpectedEnd expected
  | token :: _ => ∃ expected, e = .unexpectedToken token.text token.line expected

namespace Reading

variable {α β : Type} {tokens : List Token} {words words' : List Token → Prop}

/-- If the reading fails, then because of what stands at the head of the tokens left; and the tokens
taken begin a word. -/
def Viable (words : List Token → Prop) (reading : Reading α tokens) : Prop :=
  ∀ e, reading.result = .error e →
    e.FoundAt reading.rest ∧
      ∃ taken ending, tokens = taken ++ reading.rest ∧ words (taken ++ ending)

namespace Viable

lemma mono {reading : Reading α tokens} (h : reading.Viable words)
    (hwords : ∀ w, words w → words' w) : reading.Viable words' := by
  intro e herror
  obtain ⟨hfound, taken, ending, htokens, hword⟩ := h e herror
  exact ⟨hfound, taken, ending, htokens, hwords _ hword⟩

lemma of_ok {reading : Reading α tokens} {value : α} (h : reading.result = .ok value) :
    reading.Viable words := by
  intro e herror
  rw [h] at herror
  cases herror

lemma done {value : α} : (done value tokens).Viable words :=
  of_ok rfl

lemma unexpected {expected : Expected} {w : List Token} (h : words w) :
    (unexpected expected tokens : Reading α tokens).Viable words := by
  cases tokens with
  | nil => exact fun e herror => ⟨⟨expected, (Except.error.inj herror).symm⟩, [], w, rfl, h⟩
  | cons token rest =>
    exact fun e herror => ⟨⟨expected, (Except.error.inj herror).symm⟩, [], w, rfl, h⟩

lemma map {reading : Reading α tokens} {f : α → β} (h : reading.Viable words) :
    (reading.map f).Viable words := by
  intro e herror
  obtain ⟨result, rest, suffix⟩ := reading
  cases result with
  | ok a => cases herror
  | error e' =>
    cases herror
    exact h e rfl

lemma after {reading : Reading α tokens} {token : Token}
    (h : reading.Viable fun w => words (token :: w)) : (after token reading).Viable words := by
  intro e herror
  obtain ⟨hfound, taken, ending, htokens, hword⟩ := h e herror
  exact ⟨hfound, token :: taken, ending, congrArg (token :: ·) htokens, hword⟩

/-- Two readers in a row.  If the first fails, its word can be completed to one of both; if the
second fails, the word of the first stands before what the second has taken. -/
lemma andThen {reading : Reading α tokens}
    {next : α → (rest : List Token) → rest <:+ tokens → Reading β rest}
    (h : reading.Viable words) (hextend : ∀ w, words w → ∃ v, words' (w ++ v))
    (hnext : ∀ a rest suffix, reading.Gives a rest →
      ∃ w, tokens = w ++ rest ∧ (next a rest suffix).Viable fun v => words' (w ++ v)) :
    (reading.andThen next).Viable words' := by
  intro e herror
  obtain ⟨result, rest, suffix⟩ := reading
  cases result with
  | error e' =>
    cases herror
    obtain ⟨hfound, taken, ending, htokens, hword⟩ := h e rfl
    obtain ⟨v, hv⟩ := hextend _ hword
    rw [List.append_assoc] at hv
    exact ⟨hfound, taken, ending ++ v, htokens, hv⟩
  | ok a =>
    obtain ⟨w, htokens, hviable⟩ := hnext a rest suffix ⟨rfl, rfl⟩
    obtain ⟨hfound, taken, ending, hrest, hword⟩ := hviable e herror
    refine ⟨hfound, w ++ taken, ending, ?_, ?_⟩
    · rw [List.append_assoc]
      exact htokens.trans (congrArg (w ++ ·) hrest)
    · rw [List.append_assoc]
      exact hword

/-- Two readers in a row, where the second need not take anything. -/
lemma andThenOptional {reading : Reading α tokens}
    {next : α → (rest : List Token) → rest <:+ tokens → Reading β rest}
    (h : reading.Viable words) (hwords : ∀ w, words w → words' w)
    (hnext : ∀ a rest suffix, reading.Gives a rest →
      ∃ w, tokens = w ++ rest ∧ (next a rest suffix).Viable fun v => words' (w ++ v)) :
    (reading.andThen next).Viable words' := by
  refine h.andThen (fun w hw => ⟨[], ?_⟩) hnext
  rw [List.append_nil]
  exact hwords w hw

end Viable

end Reading

/-! ## Single tokens -/

lemma readKind_viable {kind : Kind} {tokens : List Token} {words : List Token → Prop}
    (h : words [someToken kind]) : (readKind kind tokens).Viable words := by
  cases tokens with
  | nil => exact .unexpected h
  | cons token rest =>
    rw [readKind]
    split
    · exact Reading.Viable.of_ok rfl
    · exact .unexpected h

lemma readName_viable {tokens : List Token} {words : List Token → Prop}
    (h : words [someToken .identifier]) : (readName tokens).Viable words :=
  (readKind_viable h).map

/-- A token, then a reader.  If the token is missing, it is put in front of some word that the
reader could have taken. -/
lemma readKind_andThen_viable {β : Type} {kind : Kind} {tokens v : List Token}
    {next : Token → (rest : List Token) → rest <:+ tokens → Reading β rest}
    {words : List Token → Prop} (h : words (someToken kind :: v))
    (hnext : ∀ token rest suffix, tokens = token :: rest → token.kind = kind →
      (next token rest suffix).Viable fun w => words (token :: w)) :
    ((readKind kind tokens).andThen next).Viable words := by
  have hmissing : (readKind kind tokens).Viable (· = [someToken kind]) := readKind_viable rfl
  refine hmissing.andThen ?_ ?_
  · rintro _ rfl
    exact ⟨v, h⟩
  · intro token rest suffix hgives
    obtain ⟨htokens, hkind⟩ := readKind_gives.1 hgives
    exact ⟨[token], htokens, hnext token rest suffix htokens hkind⟩

/-- A name, then a reader. -/
lemma readName_andThen_viable {β : Type} {tokens v : List Token}
    {next : String → (rest : List Token) → rest <:+ tokens → Reading β rest}
    {words : List Token → Prop} (h : words (someToken .identifier :: v))
    (hnext : ∀ (name : Token) rest suffix, tokens = name :: rest → name.kind = .identifier →
      (next name.text rest suffix).Viable fun w => words (name :: w)) :
    ((readName tokens).andThen next).Viable words := by
  have hmissing : (readName tokens).Viable (· = [someToken .identifier]) := readName_viable rfl
  refine hmissing.andThen ?_ ?_
  · rintro _ rfl
    exact ⟨v, h⟩
  · intro text rest suffix hgives
    obtain ⟨name, htokens, hkind, rfl⟩ := readName_gives.1 hgives
    exact ⟨[name], htokens, hnext name rest suffix htokens hkind⟩

/-- If all numbers are in range, only a missing number is an error. -/
lemma readInteger_viable {tokens : List Token} {words : List Token → Prop}
    (hnum : NumeralsRead tokens) (h : words [someToken .number]) :
    (readInteger tokens).Viable words := by
  refine readKind_andThen_viable h ?_
  rintro token rest _ rfl hkind
  obtain ⟨value, hvalue⟩ := Option.isSome_iff_exists.1 (hnum token List.mem_cons_self hkind)
  rw [hvalue]
  exact .done

/-- A reader, then a token that closes what was read. -/
lemma andThen_readKind_viable {α β : Type} {tokens : List Token} {reading : Reading α tokens}
    {kind : Kind} {f : α → β} {words words' : List Token → Prop} (h : reading.Viable words)
    (hsound : ∀ a rest, reading.Gives a rest → ∃ w, tokens = w ++ rest ∧ words w)
    (hclose : ∀ w, words w → words' (w ++ [someToken kind])) :
    (reading.andThen fun a rest _ => (readKind kind rest).map fun _ => f a).Viable words' := by
  refine h.andThen (fun w hw => ⟨_, hclose w hw⟩) ?_
  intro a rest _ hgives
  obtain ⟨w, htokens, hw⟩ := hsound a rest hgives
  exact ⟨w, htokens, (readKind_viable (hclose w hw)).map⟩

lemma word_of_derives {α : Type} {phrase : α → Phrase} {a : α} {tokens rest : List Token}
    (h : ∃ w, tokens = w ++ rest ∧ Derives w (phrase a)) :
    ∃ w, tokens = w ++ rest ∧ Word phrase w := by
  obtain ⟨w, htokens, hw⟩ := h
  exact ⟨w, htokens, a, hw⟩

/-! ## Expressions -/

-- The recursion is that of the readers.  Those of a loop start from the word read so far.
mutual

lemma readExpr_viable {tokens : List Token} (hnum : NumeralsRead tokens) :
    (readExpr tokens).Viable (Word .expression) := by
  rw [readExpr]
  refine (readTerm_viable hnum).andThenOptional ?_ ?_
  · rintro w ⟨e, hw⟩
    exact ⟨e, .firstTerm hw⟩
  · intro left rest hsuffix hgives
    have hlength := hsuffix.length_le
    obtain ⟨w, htokens, hw⟩ := readTerm_sound hgives
    exact ⟨w, htokens, readSum_viable (hnum.of_suffix hsuffix) (.firstTerm hw)⟩
termination_by 4 * tokens.length + 2

lemma readSum_viable {u tokens : List Token} {left : Expr} (hnum : NumeralsRead tokens)
    (hu : Derives u (.expression left)) :
    (readSum left tokens).Viable fun w => Word .expression (u ++ w) := by
  cases tokens with
  | nil =>
    rw [readSum]
    exact .done
  | cons token tokens =>
    rw [readSum]
    cases hop : sumOp? token.kind with
    | none => exact .done
    | some op =>
      have hsign := sumOp?_eq_some_iff.1 hop
      refine .after ((readTerm_viable hnum.of_cons).andThenOptional ?_ ?_)
      · rintro w ⟨right, hw⟩
        exact ⟨_, .sum hu hsign hw⟩
      · intro right rest hsuffix hgives
        have hlength := hsuffix.length_le
        obtain ⟨w, htokens, hw⟩ := readTerm_sound hgives
        have hmore := readSum_viable (hnum.of_cons.of_suffix hsuffix) (.sum hu hsign hw)
        refine ⟨w, htokens, hmore.mono fun v hv => ?_⟩
        rwa [List.append_assoc] at hv
termination_by 4 * tokens.length

lemma readTerm_viable {tokens : List Token} (hnum : NumeralsRead tokens) :
    (readTerm tokens).Viable (Word .term) := by
  rw [readTerm]
  refine (readFactor_viable hnum).andThenOptional ?_ ?_
  · rintro w ⟨e, hw⟩
    exact ⟨e, .firstFactor hw⟩
  · intro left rest hsuffix hgives
    have hlength := hsuffix.length_le
    obtain ⟨w, htokens, hw⟩ := readFactor_sound hgives
    exact ⟨w, htokens, readProduct_viable (hnum.of_suffix hsuffix) (.firstFactor hw)⟩
termination_by 4 * tokens.length + 1

lemma readProduct_viable {u tokens : List Token} {left : Expr} (hnum : NumeralsRead tokens)
    (hu : Derives u (.term left)) :
    (readProduct left tokens).Viable fun w => Word .term (u ++ w) := by
  cases tokens with
  | nil =>
    rw [readProduct]
    exact .done
  | cons token tokens =>
    rw [readProduct]
    cases hop : productOp? token.kind with
    | none => exact .done
    | some op =>
      have hsign := productOp?_eq_some_iff.1 hop
      refine .after ((readFactor_viable hnum.of_cons).andThenOptional ?_ ?_)
      · rintro w ⟨right, hw⟩
        exact ⟨_, .product hu hsign hw⟩
      · intro right rest hsuffix hgives
        have hlength := hsuffix.length_le
        obtain ⟨w, htokens, hw⟩ := readFactor_sound hgives
        have hmore := readProduct_viable (hnum.of_cons.of_suffix hsuffix) (.product hu hsign hw)
        refine ⟨w, htokens, hmore.mono fun v hv => ?_⟩
        rwa [List.append_assoc] at hv
termination_by 4 * tokens.length

lemma readFactor_viable {tokens : List Token} (hnum : NumeralsRead tokens) :
    (readFactor tokens).Viable (Word .factor) := by
  cases tokens with
  | nil =>
    rw [readFactor]
    exact .unexpected ⟨_, derives_zero⟩
  | cons token tokens =>
    rw [readFactor]
    split
    case h_1 hkind =>
      refine .after (andThen_readKind_viable (readExpr_viable hnum.of_cons)
        (fun _ _ h => word_of_derives (readExpr_sound h)) ?_)
      rintro w ⟨e, hw⟩
      exact ⟨e, .parenthesised hkind hw rfl⟩
    case h_2 hkind => exact (readInteger_viable hnum ⟨_, derives_zero⟩).map
    case h_3 hkind => exact .after (readNamed_viable hnum.of_cons hkind)
    case h_4 => exact .unexpected ⟨_, derives_zero⟩
termination_by 4 * tokens.length

lemma readNamed_viable {name : Token} {tokens : List Token} (hnum : NumeralsRead tokens)
    (hname : name.kind = .identifier) :
    (readNamed name.text tokens).Viable fun w => Word .factor (name :: w) := by
  cases tokens with
  | nil =>
    rw [readNamed]
    exact .done
  | cons token tokens =>
    rw [readNamed]
    split
    case h_1 hkind =>
      refine .after (andThen_readKind_viable (readExpr_viable hnum.of_cons)
        (fun _ _ h => word_of_derives (readExpr_sound h)) ?_)
      rintro w ⟨index, hw⟩
      exact ⟨_, .element hname hkind hw rfl⟩
    case h_2 hkind =>
      refine .after ((readArgs_viable hnum.of_cons).mono ?_).map
      rintro _ ⟨u, close, rfl, hclose, args, hu⟩
      exact ⟨_, .call hname hkind hu hclose⟩
    case h_3 => exact .done
termination_by 4 * tokens.length

lemma readArgs_viable {tokens : List Token} (hnum : NumeralsRead tokens) :
    (readArgs tokens).Viable (ClosedWord .closeParen .args) := by
  have hargs (v : List Token) : Word .expressions v → Word .args v := by
    rintro ⟨list, hv⟩
    exact ⟨some list, .args hv⟩
  rw [readArgs]
  split
  · exact (readKind_viable (ClosedWord.close ⟨none, .noArgs⟩)).map
  · refine (readExpr_viable hnum).andThen ?_ ?_
    · rintro w ⟨e, hw⟩
      exact ⟨_, .close (hargs w ⟨[e], .lastExpression hw⟩)⟩
    · intro e rest hsuffix hgives
      have hlength := hsuffix.length_le
      obtain ⟨w, htokens, hw⟩ := readExpr_sound hgives
      have hmore := readMoreArgs_viable (hnum.of_suffix hsuffix) hw
      exact ⟨w, htokens, (hmore.mono fun v hv => hv.mono hargs).map⟩
termination_by 4 * tokens.length + 3

lemma readMoreArgs_viable {u tokens : List Token} {e : Expr} (hnum : NumeralsRead tokens)
    (hu : Derives u (.expression e)) :
    (readMoreArgs tokens).Viable fun w => ClosedWord .closeParen .expressions (u ++ w) := by
  have hend : ClosedWord .closeParen .expressions (u ++ [someToken .closeParen]) :=
    .close ⟨[e], .lastExpression hu⟩
  cases tokens with
  | nil =>
    rw [readMoreArgs]
    exact (readKind_viable hend).map
  | cons token tokens =>
    rw [readMoreArgs]
    split
    case isTrue hcomma =>
      have hcons (v : List Token) : Word .expressions v → Word .expressions (u ++ token :: v) := by
        rintro ⟨list, hv⟩
        exact ⟨e :: list, .moreExpressions hu hcomma hv⟩
      refine .after ((readExpr_viable hnum.of_cons).andThen ?_ ?_)
      · rintro w ⟨e', hw⟩
        exact ⟨_, (ClosedWord.close ⟨[e'], .lastExpression hw⟩).after hcons⟩
      · intro e' rest hsuffix hgives
        have hlength := hsuffix.length_le
        obtain ⟨w, htokens, hw⟩ := readExpr_sound hgives
        have hmore := readMoreArgs_viable (hnum.of_cons.of_suffix hsuffix) hw
        exact ⟨w, htokens, (hmore.mono fun v hv => hv.after hcons).map⟩
    case isFalse => exact (readKind_viable hend).map
termination_by 4 * tokens.length

end

lemma readComparison_viable {tokens : List Token} (hnum : NumeralsRead tokens) :
    (readComparison tokens).Viable (Word .comparison) := by
  rw [readComparison]
  refine (readExpr_viable hnum).andThen ?_ ?_
  · rintro w ⟨left, hw⟩
    exact ⟨_, _, .comparison hw someToken_relSign derives_zeroExpression⟩
  · intro left rest hsuffix hgives
    obtain ⟨w, htokens, hw⟩ := readExpr_sound hgives
    have hend : Word .comparison (w ++ [someToken .doubleEqual, someToken .number]) :=
      ⟨_, .comparison hw someToken_relSign derives_zeroExpression⟩
    refine ⟨w, htokens, ?_⟩
    cases rest with
    | nil => exact .unexpected hend
    | cons token rest =>
      have hnum' := (hnum.of_suffix hsuffix).of_cons
      cases hop : relOp? token.kind with
      | none =>
        simp only [hop]
        exact .unexpected hend
      | some op =>
        simp only [hop]
        refine .after ((readExpr_viable hnum').mono ?_).map
        rintro v ⟨right, hv⟩
        exact ⟨_, .comparison hw (relOp?_eq_some_iff.1 hop) hv⟩

/-! ## Statements -/

lemma word_assignElement {name lbr rbr eq : Token} {u v : List Token}
    (hname : name.kind = .identifier) (hlbr : lbr.kind = .openBracket) (hu : Word .expression u)
    (hrbr : rbr.kind = .closeBracket) (heq : eq.kind = .equal) (hv : Word .expression v) :
    Word .assignment (name :: lbr :: (u ++ [rbr]) ++ eq :: v) := by
  obtain ⟨index, hu⟩ := hu
  obtain ⟨value, hv⟩ := hv
  have hassign := Derives.assignElement hname hlbr hu hrbr heq hv
  exact ⟨_, by simpa using hassign⟩

/-- Something can be assigned to what was read as a target. -/
lemma readTarget_assignable {tokens rest : List Token} {target : Target}
    (h : (readTarget tokens).Gives target rest) :
    ∃ w, tokens = w ++ rest ∧ ∀ (eq : Token) (v : List Token), eq.kind = .equal →
      Word .expression v → Word .assignment (w ++ eq :: v) := by
  obtain ⟨name, hname, hshape⟩ := readTarget_sound h
  rcases hshape with ⟨rfl, _⟩ | ⟨lbr, u, rbr, index, rfl, hlbr, hu, hrbr, _⟩
  · refine ⟨[name], rfl, ?_⟩
    rintro eq v heq ⟨value, hv⟩
    exact ⟨_, .assignVariable hname heq hv⟩
  · refine ⟨name :: lbr :: (u ++ [rbr]), by simp, ?_⟩
    intro eq v heq hv
    exact word_assignElement hname hlbr ⟨index, hu⟩ hrbr heq hv

lemma readTarget_viable {tokens : List Token} (hnum : NumeralsRead tokens) :
    (readTarget tokens).Viable fun w =>
      Word .assignment (w ++ [someToken .equal, someToken .number]) := by
  rw [readTarget]
  refine readName_andThen_viable (v := []) ⟨_, .assignVariable rfl rfl derives_zeroExpression⟩ ?_
  rintro name rest _ rfl hname
  cases rest with
  | nil => exact .done
  | cons lbr rest =>
    by_cases hlbr : lbr.kind = .openBracket
    · simp only [hlbr, if_true]
      refine .after (andThen_readKind_viable (readExpr_viable hnum.of_cons.of_cons)
        (fun _ _ h => word_of_derives (readExpr_sound h)) ?_)
      intro u hu
      exact word_assignElement hname hlbr hu rfl rfl ⟨_, derives_zeroExpression⟩
    · simp only [hlbr, if_false]
      exact .done

lemma readAssignment_viable {tokens : List Token} (hnum : NumeralsRead tokens) :
    (readAssignment tokens).Viable (Word .assignment) := by
  rw [readAssignment]
  refine (readTarget_viable hnum).andThen (fun w hw => ⟨_, hw⟩) ?_
  intro target rest hsuffix hgives
  obtain ⟨w, htokens, hassign⟩ := readTarget_assignable hgives
  refine ⟨w, htokens, readKind_andThen_viable (hassign _ _ rfl ⟨_, derives_zeroExpression⟩) ?_⟩
  rintro eq rest' _ rfl heq
  have hnum' := (hnum.of_suffix hsuffix).of_cons
  exact ((readExpr_viable hnum').mono fun v hv => hassign eq v heq hv).map

section Parentheses

variable {α : Type} {read : (tokens : List Token) → Reading α tokens} {inner : List Token → Prop}

lemma readParenthesised_word {tokens rest : List Token} {value : α}
    (hsound : ∀ tokens value rest, (read tokens).Gives value rest →
      ∃ w, tokens = w ++ rest ∧ inner w)
    (h : (readParenthesised read tokens).Gives value rest) :
    ∃ w, tokens = w ++ rest ∧ Parenthesised inner w := by
  obtain ⟨lpar, body, rpar, rfl, hlpar, hread, hrpar⟩ := readParenthesised_gives.1 h
  obtain ⟨w, rfl, hw⟩ := hsound _ _ _ hread
  exact ⟨lpar :: (w ++ [rpar]), by simp, lpar, w, rpar, rfl, hlpar, hrpar, hw⟩

lemma readParenthesised_viable {tokens w : List Token} (hw : inner w)
    (hsound : ∀ tokens value rest, (read tokens).Gives value rest →
      ∃ w, tokens = w ++ rest ∧ inner w)
    (hread : ∀ rest, rest <:+ tokens → (read rest).Viable inner) :
    (readParenthesised read tokens).Viable (Parenthesised inner) := by
  rw [readParenthesised]
  refine readKind_andThen_viable ⟨_, w, someToken .closeParen, rfl, rfl, rfl, hw⟩ ?_
  intro lpar rest hsuffix _ hlpar
  refine andThen_readKind_viable (hread rest hsuffix) (hsound rest) ?_
  intro u hu
  exact ⟨lpar, u, someToken .closeParen, rfl, hlpar, rfl, hu⟩

end Parentheses

/-- The word of a comparison in parentheses. -/
lemma readCondition_word {tokens rest : List Token} {condition : Expr}
    (h : (readParenthesised readComparison tokens).Gives condition rest) :
    ∃ w, tokens = w ++ rest ∧ Parenthesised (Word .comparison) w :=
  readParenthesised_word (fun _ _ _ h => word_of_derives (readComparison_sound h)) h

lemma readCondition_viable {tokens : List Token} (hnum : NumeralsRead tokens) :
    (readParenthesised readComparison tokens).Viable (Parenthesised (Word .comparison)) :=
  readParenthesised_viable ⟨_, derives_zeroComparison⟩
    (fun _ _ _ h => word_of_derives (readComparison_sound h))
    fun _ hsuffix => readComparison_viable (hnum.of_suffix hsuffix)

lemma word_loop {word : Token} {u v : List Token} (hword : word.kind = .whileWord)
    (hu : Parenthesised (Word .comparison) u) (hv : Word .block v) :
    Word .statement (word :: (u ++ v)) := by
  obtain ⟨lpar, c, rpar, rfl, hlpar, hrpar, condition, hc⟩ := hu
  obtain ⟨body, hv⟩ := hv
  have hloop := Derives.loop hword hlpar hc hrpar hv
  exact ⟨_, by simpa using hloop⟩

lemma word_branch {word : Token} {u v w : List Token} (hword : word.kind = .ifWord)
    (hu : Parenthesised (Word .comparison) u) (hv : Word .block v) (hw : Word .alternative w) :
    Word .statement (word :: (u ++ (v ++ w))) := by
  obtain ⟨lpar, c, rpar, rfl, hlpar, hrpar, condition, hc⟩ := hu
  obtain ⟨yes, hv⟩ := hv
  obtain ⟨no, hw⟩ := hw
  have hbranch := Derives.branch hword hlpar hc hrpar hv hw
  exact ⟨_, by simpa using hbranch⟩

mutual

lemma readStmt_viable {tokens : List Token} (hnum : NumeralsRead tokens) :
    (readStmt tokens).Viable (Word .statement) := by
  cases tokens with
  | nil =>
    rw [readStmt]
    exact .unexpected ⟨none, .emptyStatement⟩
  | cons token tokens =>
    rw [readStmt]
    split
    case h_1 | h_2 => exact .done
    case h_3 =>
      refine ((readAssignment_viable hnum).mono ?_).map
      rintro w ⟨s, hw⟩
      exact ⟨some s, .assignmentStatement hw⟩
    case h_4 hword =>
      refine .after ((readCondition_viable hnum.of_cons).andThen ?_ ?_)
      · intro u hu
        exact ⟨_, word_branch hword hu ⟨[], derives_emptyBlock⟩ ⟨none, .noAlternative⟩⟩
      · intro condition rest hsuffix hgives
        have hlength := hsuffix.length_le
        have hnum' := hnum.of_cons.of_suffix hsuffix
        obtain ⟨u, htokens, hu⟩ := readCondition_word hgives
        refine ⟨u, htokens, (readBlock_viable hnum').andThen ?_ ?_⟩
        · intro v hv
          exact ⟨[], word_branch hword hu hv ⟨none, .noAlternative⟩⟩
        · intro yes rest' hsuffix' hgives'
          have hlength' := hsuffix'.length_le
          obtain ⟨v, hrest, hv⟩ := readBlock_sound hgives'
          have helse := readElse_viable (hnum'.of_suffix hsuffix')
          exact ⟨v, hrest, (helse.mono fun w hw => word_branch hword hu ⟨yes, hv⟩ hw).map⟩
    case h_5 hword =>
      refine .after ((readCondition_viable hnum.of_cons).andThen ?_ ?_)
      · intro u hu
        exact ⟨_, word_loop hword hu ⟨[], derives_emptyBlock⟩⟩
      · intro condition rest hsuffix hgives
        have hlength := hsuffix.length_le
        obtain ⟨u, htokens, hu⟩ := readCondition_word hgives
        have hbody := readBlock_viable (hnum.of_cons.of_suffix hsuffix)
        exact ⟨u, htokens, (hbody.mono fun v hv => word_loop hword hu hv).map⟩
    case h_6 =>
      refine ((readBlock_viable hnum).mono ?_).map
      rintro w ⟨body, hw⟩
      exact ⟨some (.block body), .blockStatement hw⟩
    case h_7 hword =>
      have hvalue := readParenthesised_viable ⟨_, derives_zeroExpression⟩
        (fun _ _ _ h => word_of_derives (readExpr_sound h))
        fun _ hsuffix => readExpr_viable (hnum.of_cons.of_suffix hsuffix)
      refine .after (hvalue.mono ?_).map
      rintro _ ⟨lpar, w, rpar, rfl, hlpar, hrpar, value, hw⟩
      exact ⟨_, .print hword hlpar hw hrpar⟩
    case h_8 hword =>
      have hname : (readParenthesised readName tokens).Viable (Parenthesised NameWord) := by
        refine readParenthesised_viable ⟨someToken .identifier, rfl, rfl⟩ ?_ ?_
        · intro tokens text rest h
          obtain ⟨name, htokens, hkind, _⟩ := readName_gives.1 h
          exact ⟨[name], htokens, name, rfl, hkind⟩
        · intro rest _
          exact readName_viable ⟨_, rfl, rfl⟩
      refine .after (hname.mono ?_).map
      rintro _ ⟨lpar, _, rpar, rfl, hlpar, hrpar, name, rfl, hname⟩
      exact ⟨_, .read hword hlpar hname hrpar⟩
    case h_9 hword =>
      refine .after ((readExpr_viable hnum.of_cons).mono ?_).map
      rintro w ⟨value, hw⟩
      exact ⟨_, .ret hword hw⟩
    case h_10 => exact .unexpected ⟨none, .emptyStatement⟩
termination_by 3 * tokens.length + 1

lemma readElse_viable {tokens : List Token} (hnum : NumeralsRead tokens) :
    (readElse tokens).Viable (Word .alternative) := by
  cases tokens with
  | nil =>
    rw [readElse]
    exact .done
  | cons token tokens =>
    rw [readElse]
    split
    case isTrue hword =>
      refine .after ((readBlock_viable hnum.of_cons).mono ?_).map
      rintro w ⟨no, hw⟩
      exact ⟨some no, .alternative hword hw⟩
    case isFalse => exact .done
termination_by 3 * tokens.length

lemma readBlock_viable {tokens : List Token} (hnum : NumeralsRead tokens) :
    (readBlock tokens).Viable (Word .block) := by
  cases tokens with
  | nil =>
    rw [readBlock]
    exact .unexpected ⟨[], derives_emptyBlock⟩
  | cons token tokens =>
    rw [readBlock]
    split
    case isTrue hopen =>
      refine .after (andThen_readKind_viable (readStmts_viable hnum.of_cons)
        (fun _ _ h => word_of_derives (readStmts_sound h)) ?_)
      rintro w ⟨body, hw⟩
      exact ⟨body, .block hopen hw rfl⟩
    case isFalse => exact .unexpected ⟨[], derives_emptyBlock⟩
termination_by 3 * tokens.length

lemma readStmts_viable {tokens : List Token} (hnum : NumeralsRead tokens) :
    (readStmts tokens).Viable (Word .statements) := by
  rw [readStmts]
  refine (readStmt_viable hnum).andThenOptional ?_ ?_
  · rintro w ⟨s, hw⟩
    exact ⟨s.toList, .lastStatement hw⟩
  · intro s rest hsuffix hgives
    obtain ⟨u, htokens, hu⟩ := readStmt_sound hgives
    refine ⟨u, htokens, ?_⟩
    cases rest with
    | nil => exact .done
    | cons semi rest =>
      have hlength := hsuffix.length_le
      have hnum' := (hnum.of_suffix hsuffix).of_cons
      simp only
      split
      case isTrue hsemi =>
        refine .after ((readStmts_viable hnum').mono ?_).map
        rintro v ⟨body, hv⟩
        exact ⟨_, .moreStatements hu hsemi hv⟩
      case isFalse => exact .done
termination_by 3 * tokens.length + 2
decreasing_by
  · omega
  · simp only [List.length_cons] at hlength
    omega

end

/-! ## Declarations and programs -/

lemma readVarDef_viable {tokens : List Token} (hnum : NumeralsRead tokens) :
    (readVarDef tokens).Viable (Word .definition) := by
  rw [readVarDef]
  refine readName_andThen_viable ⟨_, .scalarDefinition rfl⟩ ?_
  rintro name rest _ rfl hname
  cases rest with
  | nil => exact .done
  | cons lbr rest =>
    by_cases hlbr : lbr.kind = .openBracket
    · simp only [hlbr, if_true]
      have hnum' := hnum.of_cons.of_cons
      have hclosed {num : Token} {size : Int32} (hkind : num.kind = .number)
          (hsize : Text.readInt32 num.text = some size) :
          Word .definition [name, lbr, num, someToken .closeBracket] :=
        ⟨_, .arrayDefinition hname hlbr hkind hsize rfl⟩
      have hmissing : (readInteger rest).Viable (· = [someToken .number]) :=
        readInteger_viable hnum' rfl
      -- Not every number token can be completed, but the one that is put in is in range.
      refine .after (hmissing.andThen ?_ ?_)
      · rintro _ rfl
        exact ⟨[someToken .closeBracket], hclosed rfl readInt32_someToken⟩
      · intro size rest' _ hgives
        obtain ⟨num, hrest, hkind, hsize⟩ := readInteger_gives.1 hgives
        exact ⟨[num], hrest, (readKind_viable (hclosed hkind hsize)).map⟩
    · simp only [hlbr, if_false]
      exact .done

lemma readMoreVarDefs_viable {u tokens : List Token} {d : VarDef} (hnum : NumeralsRead tokens)
    (hu : Derives u (.definition d)) :
    (readMoreVarDefs tokens).Viable fun w => ClosedWord .semicolon .definitions (u ++ w) := by
  have hend : ClosedWord .semicolon .definitions (u ++ [someToken .semicolon]) :=
    .close ⟨[d], .lastDefinition hu⟩
  cases tokens with
  | nil =>
    rw [readMoreVarDefs]
    exact (readKind_viable hend).map
  | cons token tokens =>
    rw [readMoreVarDefs]
    split
    case isTrue hcomma =>
      have hcons (v : List Token) : Word .definitions v → Word .definitions (u ++ token :: v) := by
        rintro ⟨group, hv⟩
        exact ⟨d :: group, .moreDefinitions hu hcomma hv⟩
      refine .after ((readVarDef_viable hnum.of_cons).andThen ?_ ?_)
      · rintro w ⟨d', hw⟩
        exact ⟨_, (ClosedWord.close ⟨[d'], .lastDefinition hw⟩).after hcons⟩
      · intro d' rest hsuffix hgives
        have hlength := hsuffix.length_le
        obtain ⟨w, htokens, hw⟩ := readVarDef_sound hgives
        have hmore := readMoreVarDefs_viable (hnum.of_cons.of_suffix hsuffix) hw
        exact ⟨w, htokens, (hmore.mono fun v hv => hv.after hcons).map⟩
    case isFalse => exact (readKind_viable hend).map
termination_by tokens.length

lemma readVariables_viable {int : Token} {tokens : List Token} (hnum : NumeralsRead tokens)
    (hint : int.kind = .intWord) :
    (readVariables tokens).Viable fun w => Word .variables (int :: w) := by
  rw [readVariables]
  refine (readVarDef_viable hnum).andThen ?_ ?_
  · rintro w ⟨d, hw⟩
    exact ⟨[someToken .semicolon], _, .variableGroup hint (.lastDefinition hw) rfl⟩
  · intro d rest hsuffix hgives
    obtain ⟨u, htokens, hu⟩ := readVarDef_sound hgives
    refine ⟨u, htokens, ((readMoreVarDefs_viable (hnum.of_suffix hsuffix) hu).mono ?_).map⟩
    rintro w ⟨v, semi, hv, hsemi, group, hgroup⟩
    rw [hv]
    exact ⟨group, .variableGroup hint hgroup hsemi⟩

lemma readMoreParams_viable {name : Token} {tokens : List Token} (hname : name.kind = .identifier) :
    (readMoreParams tokens).Viable fun w => ClosedWord .closeParen .names (name :: w) := by
  have hend {last : Token} (hlast : last.kind = .identifier) :
      ClosedWord .closeParen .names [last, someToken .closeParen] :=
    .close (w := [last]) ⟨_, .lastName hlast⟩
  cases tokens with
  | nil =>
    rw [readMoreParams]
    exact (readKind_viable (hend hname)).map
  | cons token tokens =>
    rw [readMoreParams]
    split
    case isTrue hcomma =>
      have hcons (v : List Token) : Word .names v → Word .names ([name] ++ token :: v) := by
        rintro ⟨list, hv⟩
        exact ⟨_, .moreNames hname hcomma hv⟩
      refine .after (readName_andThen_viable ((hend rfl).after hcons) ?_)
      rintro next rest hsuffix rfl hnext
      exact ((readMoreParams_viable hnext).mono fun v hv => hv.after hcons).map
    case isFalse => exact (readKind_viable (hend hname)).map
termination_by tokens.length

lemma readParams_viable {tokens : List Token} :
    (readParams tokens).Viable (ClosedWord .closeParen .params) := by
  have hparams (v : List Token) : Word .names v → Word .params v := by
    rintro ⟨list, hv⟩
    exact ⟨some list, .params hv⟩
  rw [readParams]
  split
  · exact (readKind_viable (ClosedWord.close ⟨none, .noParams⟩)).map
  · refine readName_andThen_viable (.close (hparams _ ⟨_, .lastName rfl⟩)) ?_
    rintro name rest _ rfl hname
    exact ((readMoreParams_viable hname).mono fun v hv => hv.mono hparams).map

lemma readLocals_viable {tokens : List Token} (hnum : NumeralsRead tokens) :
    (readLocals tokens).Viable (Word .locals) := by
  cases tokens with
  | nil => exact .done
  | cons token tokens =>
    rw [readLocals]
    split
    case isTrue hint =>
      refine .after ((readVariables_viable hnum.of_cons hint).mono ?_).map
      rintro w ⟨group, hw⟩
      exact ⟨some group, .locals hw⟩
    case isFalse => exact .done

lemma word_function {name lpar semi : Token} {u v w : List Token} (hname : name.kind = .identifier)
    (hlpar : lpar.kind = .openParen) (hu : ClosedWord .closeParen .params u)
    (hsemi : semi.kind = .semicolon) (hv : Word .locals v) (hw : Word .block w) :
    Word .function (name :: lpar :: (u ++ semi :: (v ++ w))) := by
  obtain ⟨z, rpar, rfl, hrpar, params, hz⟩ := hu
  obtain ⟨group, hv⟩ := hv
  obtain ⟨body, hw⟩ := hw
  have hfunction := Derives.function hname hlpar hz hrpar hsemi hv hw
  exact ⟨_, by simpa using hfunction⟩

lemma readFunction_viable {name : Token} {tokens : List Token} (hnum : NumeralsRead tokens)
    (hname : name.kind = .identifier) :
    (readFunction name.text tokens).Viable fun w => Word .function (name :: w) := by
  have hblock : Word .block [someToken .openBrace, someToken .closeBrace] :=
    ⟨[], derives_emptyBlock⟩
  have hlocals : Word .locals [] := ⟨none, .noLocals⟩
  have hparams : ClosedWord .closeParen .params [someToken .closeParen] :=
    .close (w := []) ⟨none, .noParams⟩
  have hend : (someToken .semicolon).kind = .semicolon := rfl
  -- Wherever reading stops, the function is finished with no parameters, no locals, an empty block.
  rw [readFunction]
  refine readKind_andThen_viable (word_function hname rfl hparams hend hlocals hblock) ?_
  rintro lpar rest₁ _ rfl hlpar
  refine readParams_viable.andThen ?_ ?_
  · intro u hu
    exact ⟨_, word_function hname hlpar hu hend hlocals hblock⟩
  · intro params rest₂ hsuffix₂ hgives
    obtain ⟨u, rpar, rfl, hrpar, hu⟩ := readParams_sound hgives
    have hclosed : ClosedWord .closeParen .params (u ++ [rpar]) := ⟨u, rpar, rfl, hrpar, params, hu⟩
    refine ⟨u ++ [rpar], by simp, ?_⟩
    refine readKind_andThen_viable (word_function hname hlpar hclosed rfl hlocals hblock) ?_
    rintro semi rest₃ _ rfl hsemi
    have hnum₃ := (hnum.of_cons.of_suffix hsuffix₂).of_cons
    refine (readLocals_viable hnum₃).andThen ?_ ?_
    · intro v hv
      exact ⟨_, word_function hname hlpar hclosed hsemi hv hblock⟩
    · intro locals rest₄ hsuffix₄ hlocals
      obtain ⟨v, htokens, hv⟩ := readLocals_sound hlocals
      refine ⟨v, htokens, ((readBlock_viable (hnum₃.of_suffix hsuffix₄)).mono ?_).map⟩
      intro w hw
      exact word_function hname hlpar hclosed hsemi ⟨locals, hv⟩ hw

/-- The word of a declaration starts with the token that was read before it. -/
lemma exists_eq_cons_of_suffix {first : Token} {tokens w rest : List Token}
    (h : first :: tokens = w ++ rest) (hsuffix : rest <:+ tokens) :
    ∃ v, w = first :: v ∧ tokens = v ++ rest := by
  cases w with
  | nil =>
    have hlength := hsuffix.length_le
    rw [← List.nil_append rest, ← h, List.length_cons] at hlength
    omega
  | cons token v =>
    obtain ⟨rfl, htokens⟩ := List.cons.inj h
    exact ⟨v, rfl, htokens⟩

/-- A declaration, and those after it. -/
lemma andThen_readDecls_viable {α : Type} {first : Token} {tokens : List Token}
    {reading : Reading α tokens} {decl : α → Decl}
    (h : reading.Viable fun w => Word .declaration (first :: w))
    (hsound : ∀ a rest, reading.Gives a rest →
      ∃ w, first :: tokens = w ++ rest ∧ Derives w (.declaration (decl a)))
    (hmore : ∀ rest, rest <:+ tokens → (readDecls rest).Viable (Word .declarations)) :
    (reading.andThen fun a rest _ => (readDecls rest).map fun more => decl a :: more).Viable
      fun w => Word .declarations (first :: w) := by
  refine h.andThenOptional ?_ ?_
  · rintro w ⟨d, hw⟩
    exact ⟨[d], .lastDeclaration hw⟩
  · intro a rest hsuffix hgives
    obtain ⟨w, hw, hderives⟩ := hsound a rest hgives
    obtain ⟨v, rfl, htokens⟩ := exists_eq_cons_of_suffix hw hsuffix
    refine ⟨v, htokens, ((hmore rest hsuffix).mono ?_).map⟩
    rintro z ⟨list, hz⟩
    exact ⟨decl a :: list, .moreDeclarations hderives hz⟩

lemma readDecls_viable {tokens : List Token} (hnum : NumeralsRead tokens) :
    (readDecls tokens).Viable (Word .declarations) := by
  cases tokens with
  | nil =>
    rw [readDecls]
    exact .done
  | cons token tokens =>
    have hmore (rest : List Token) (hsuffix : rest <:+ tokens) :
        (readDecls rest).Viable (Word .declarations) := by
      have hlength := hsuffix.length_le
      exact readDecls_viable (hnum.of_cons.of_suffix hsuffix)
    rw [readDecls]
    split
    case h_1 hint =>
      refine .after (andThen_readDecls_viable ?_ ?_ hmore)
      · refine (readVariables_viable hnum.of_cons hint).mono ?_
        rintro w ⟨group, hw⟩
        exact ⟨.vars group, .variablesDeclaration hw⟩
      · intro group rest hgives
        obtain ⟨w, htokens, hw⟩ := readVariables_sound hint hgives
        exact ⟨w, htokens, .variablesDeclaration hw⟩
    case h_2 hname =>
      refine .after (andThen_readDecls_viable ?_ ?_ hmore)
      · refine (readFunction_viable hnum.of_cons hname).mono ?_
        rintro w ⟨f, hw⟩
        exact ⟨.function f, .functionDeclaration hw⟩
      · intro f rest hgives
        obtain ⟨w, htokens, hw⟩ := readFunction_sound hname hgives
        exact ⟨w, htokens, .functionDeclaration hw⟩
    case h_3 => exact .done
termination_by tokens.length
decreasing_by
  subst_vars
  simp only [List.length_cons]
  omega

/-- With a block after them, the tokens are a program. -/
def ProgramHead (w : List Token) : Prop :=
  ∀ v, Word .block v → Word .program (w ++ v)

lemma programHead_nil : ProgramHead [] := by
  rintro v ⟨body, hv⟩
  exact ⟨_, .bareProgram hv⟩

lemma programHead_of_word {w : List Token} (h : Word .declarations w) : ProgramHead w := by
  obtain ⟨list, hw⟩ := h
  rintro v ⟨body, hv⟩
  exact ⟨_, .program hw hv⟩

lemma readDeclarations_head {tokens rest : List Token} {declarations : Option (List Decl)}
    (h : (readDeclarations tokens).Gives declarations rest) :
    ∃ w, tokens = w ++ rest ∧ ProgramHead w := by
  rcases readDeclarations_sound h with ⟨_, htokens⟩ | ⟨w, list, _, htokens, hw⟩
  · exact ⟨[], htokens, programHead_nil⟩
  · exact ⟨w, htokens, programHead_of_word ⟨list, hw⟩⟩

lemma readDeclarations_viable {tokens : List Token} (hnum : NumeralsRead tokens) :
    (readDeclarations tokens).Viable ProgramHead := by
  rw [readDeclarations]
  split
  · exact .done
  · exact ((readDecls_viable hnum).mono fun w => programHead_of_word).map
  · exact ((readDecls_viable hnum).mono fun w => programHead_of_word).map
  · exact .unexpected programHead_nil

lemma readProgram_viable {tokens : List Token} (hnum : NumeralsRead tokens) :
    (readProgram tokens).Viable (Word .program) := by
  rw [readProgram]
  refine (readDeclarations_viable hnum).andThen ?_ ?_
  · intro w hw
    exact ⟨_, hw _ ⟨[], derives_emptyBlock⟩⟩
  · intro declarations rest hsuffix hgives
    obtain ⟨w, htokens, hw⟩ := readDeclarations_head hgives
    exact ⟨w, htokens, ((readBlock_viable (hnum.of_suffix hsuffix)).mono hw).map⟩

/-- What parsing has taken when it fails begins a program. -/
lemma parse_viable {tokens : List Token} (hnum : NumeralsRead tokens) :
    (parse tokens).Viable (Word .program) := by
  rw [parse]
  refine (readProgram_viable hnum).andThenOptional (fun _ hw => hw) ?_
  intro program rest _ hgives
  obtain ⟨w, htokens, hw⟩ := readProgram_sound hgives
  refine ⟨w, htokens, ?_⟩
  cases rest with
  | nil => exact .done
  | cons token rest =>
    have hword : Word .program (w ++ []) := ⟨program, by rwa [List.append_nil]⟩
    exact .unexpected hword

end DLang
