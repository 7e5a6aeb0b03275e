import DLang.Proofs.Grammar.EarliestError

/-!
# Reading looks at the kinds of tokens

A reader goes by the kinds of the tokens.  The texts go into the tree, but only that of a number has
an influence on what is read: a number out of range is an error as soon as it is taken.

So two lists of tokens with the same kinds are read in step (`Reading.InStep`).  If all numbers of
the second are in range, then either the first too meets only numbers in range, and both readings
stop at the same place, or it fails at its first number that is not, while the other goes on.

From this it follows where numbers are expected and what becomes of them there.  If some number can
stand after some tokens, then so can every number in range, and every other one is reported
(`ExpectsNumber.parse_eq`, `ExpectsNumber.accepted`); and no number is reported that stands anywhere
else (`exists_of_parse_outOfRange`).
-/

namespace DLang

/-! ## Readings in step -/

/-- The tokens have the same kinds, and the numbers of the second list can all be read. -/
inductive Alike : List Token → List Token → Prop
  | nil : Alike [] []
  | cons {token token' : Token} {tokens tokens' : List Token} :
      token'.kind = token.kind →
      (token'.kind = .number → (Text.readInt32 token'.text).isSome = true) →
      Alike tokens tokens' → Alike (token :: tokens) (token' :: tokens')

namespace Alike

variable {tokens tokens' : List Token}

lemma length_eq (h : Alike tokens tokens') : tokens'.length = tokens.length := by
  induction h with
  | nil => rfl
  | cons _ _ _ ih => rw [List.length_cons, List.length_cons, ih]

lemma headKind_eq (h : Alike tokens tokens') : headKind tokens' = headKind tokens := by
  cases h with
  | nil => rfl
  | cons hsame _ _ => exact congrArg some hsame

lemma numerals (h : Alike tokens tokens') : NumeralsRead tokens' := by
  induction h with
  | nil => exact fun _ hmem => absurd hmem List.not_mem_nil
  | cons _ hread _ ih => exact List.forall_mem_cons.2 ⟨hread, ih⟩

end Alike

lemma NumeralsRead.append {tokens tokens' : List Token} (h : NumeralsRead tokens)
    (h' : NumeralsRead tokens') : NumeralsRead (tokens ++ tokens') :=
  List.forall_mem_append.2 ⟨h, h'⟩

lemma NumeralsRead.cons {token : Token} {tokens : List Token} (hkind : token.kind ≠ .number)
    (h : NumeralsRead tokens) : NumeralsRead (token :: tokens) :=
  List.forall_mem_cons.2 ⟨fun hnumber => absurd hnumber hkind, h⟩

namespace Reading

variable {α β γ δ : Type} {tokens tokens' : List Token}

/-- What becomes of two readings of tokens of the same kinds.  Numbers out of range can be met only
by the first. -/
inductive InStep (reading : Reading α tokens) (reading' : Reading β tokens') : Prop
  /-- Both stop at the same place, with a value or with an error about what stands there. -/
  | together {taken : List Token} :
      tokens = taken ++ reading.rest → NumeralsRead taken → Alike reading.rest reading'.rest →
      reading'.result.isOk = reading.result.isOk →
      (∀ e, reading.result = .error e → e.FoundAt reading.rest) → InStep reading reading'
  /-- The first fails after a number out of range, and the other is not behind it. -/
  | apart {front : List Token} {num : Token} :
      tokens = front ++ num :: reading.rest → NumeralsRead front → num.kind = .number →
      Text.readInt32 num.text = none → reading.result = .error (.outOfRange num.text num.line) →
      reading'.rest.length ≤ reading.rest.length → InStep reading reading'

namespace InStep

lemma done (h : Alike tokens tokens') {a : α} {b : β} :
    InStep (done a tokens) (Reading.done b tokens') := by
  refine .together rfl (fun _ hmem => absurd hmem List.not_mem_nil) h rfl ?_
  intro e herror
  cases herror

lemma unexpected (h : Alike tokens tokens') {expected : Expected} :
    InStep (unexpected expected tokens : Reading α tokens)
      (Reading.unexpected expected tokens' : Reading β tokens') := by
  have hnone : NumeralsRead [] := fun _ hmem => absurd hmem List.not_mem_nil
  cases h with
  | nil =>
    refine .together rfl hnone .nil rfl fun e herror => ?_
    exact ⟨expected, (Except.error.inj herror).symm⟩
  | cons hsame hread hrest =>
    refine .together rfl hnone (.cons hsame hread hrest) rfl fun e herror => ?_
    exact ⟨expected, (Except.error.inj herror).symm⟩

lemma after {reading : Reading α tokens} {reading' : Reading β tokens'} {token token' : Token}
    (h : InStep reading reading') (hkind : token.kind ≠ .number) :
    InStep (after token reading) (Reading.after token' reading') := by
  cases h with
  | @together taken htokens htaken hrest hok hfound =>
    have hsplit : token :: tokens = (token :: taken) ++ reading.rest := by
      rw [List.cons_append, ← htokens]
    exact .together hsplit (htaken.cons hkind) hrest hok hfound
  | @apart front num htokens hfront hnum hread hresult hlength =>
    have hsplit : token :: tokens = (token :: front) ++ num :: reading.rest := by
      rw [List.cons_append, ← htokens]
    exact .apart hsplit (hfront.cons hkind) hnum hread hresult hlength

lemma map {reading : Reading α tokens} {reading' : Reading β tokens'} {f : α → γ} {g : β → δ}
    (h : InStep reading reading') : InStep (reading.map f) (reading'.map g) := by
  cases h with
  | together htokens htaken hrest hok hfound =>
    obtain ⟨result, rest, suffix⟩ := reading
    obtain ⟨result', rest', suffix'⟩ := reading'
    refine .together htokens htaken hrest ?_ ?_
    · cases result <;> cases result' <;> exact hok
    · intro e herror
      cases result with
      | error e' => exact hfound e (congrArg Except.error (Except.error.inj herror))
      | ok a => cases herror
  | apart htokens hfront hnum hread hresult hlength =>
    refine .apart htokens hfront hnum hread ?_ hlength
    exact congrArg (Except.map f) hresult

/-- What two readers take, the first one has taken or the second. -/
lemma suffix_andThen (reading : Reading α tokens)
    (next : α → (rest : List Token) → rest <:+ tokens → Reading β rest) :
    (reading.andThen next).rest <:+ reading.rest := by
  obtain ⟨result, rest, suffix⟩ := reading
  cases result with
  | error e => exact List.suffix_refl rest
  | ok a => exact (next a rest suffix).suffix

lemma andThen {reading : Reading α tokens} {reading' : Reading β tokens'}
    {next : α → (rest : List Token) → rest <:+ tokens → Reading γ rest}
    {next' : β → (rest : List Token) → rest <:+ tokens' → Reading δ rest}
    (h : InStep reading reading')
    (hnext : ∀ a b rest rest' suffix suffix', Alike rest rest' →
      InStep (next a rest suffix) (next' b rest' suffix')) :
    InStep (reading.andThen next) (reading'.andThen next') := by
  cases h with
  | @together taken htokens htaken hrest hok hfound =>
    obtain ⟨result, rest, suffix⟩ := reading
    obtain ⟨result', rest', suffix'⟩ := reading'
    cases result with
    | error e =>
      cases result' with
      | error e' =>
        refine .together htokens htaken hrest rfl fun e' herror => ?_
        exact hfound e' (congrArg Except.error (Except.error.inj herror))
      | ok b => cases hok
    | ok a =>
      cases result' with
      | error e' => cases hok
      | ok b =>
        cases hnext a b rest rest' suffix suffix' hrest with
        | @together more hmore hread hleft hok' hfound' =>
          have hsplit : tokens = (taken ++ more) ++ (next a rest suffix).rest := by
            rw [List.append_assoc, ← hmore]
            exact htokens
          exact .together hsplit (htaken.append hread) hleft hok' hfound'
        | @apart front num hmore hfront hnum hread hresult hlength =>
          have hsplit : tokens = (taken ++ front) ++ num :: (next a rest suffix).rest := by
            rw [List.append_assoc, ← hmore]
            exact htokens
          exact .apart hsplit (htaken.append hfront) hnum hread hresult hlength
  | apart htokens hfront hnum hread hresult hlength =>
    have hends : (reading.andThen next).result = _ ∧ (reading.andThen next).rest = reading.rest :=
      andThen_of_error hresult
    rw [← hends.2] at htokens hlength
    refine .apart htokens hfront hnum hread hends.1 ?_
    exact Nat.le_trans (suffix_andThen reading' next').length_le hlength

end InStep

end Reading

/-! ## Single tokens -/

variable {tokens tokens' : List Token}

lemma readKind_inStep {kind : Kind} (hkind : kind ≠ .number) (h : Alike tokens tokens') :
    (readKind kind tokens).InStep (readKind kind tokens') := by
  cases h with
  | nil => exact .unexpected .nil
  | cons hsame hread hrest =>
    rw [readKind, readKind, hsame]
    split
    case isTrue heq => exact (Reading.InStep.done hrest).after (heq ▸ hkind)
    case isFalse => exact .unexpected (.cons hsame hread hrest)

lemma readName_inStep (h : Alike tokens tokens') : (readName tokens).InStep (readName tokens') :=
  (readKind_inStep (by decide) h).map

/-- Reading a number takes its token, in range or not. -/
lemma readInteger_cons {num : Token} (hnum : num.kind = .number) (rest : List Token) :
    (readInteger (num :: rest)).rest = rest ∧
      (readInteger (num :: rest)).result =
        match Text.readInt32 num.text with
        | some value => .ok value
        | none => .error (.outOfRange num.text num.line) := by
  rw [readInteger, readKind, if_pos hnum]
  show (match Text.readInt32 num.text with
      | some value => Reading.done value rest
      | none => _).rest = rest ∧ (match Text.readInt32 num.text with
      | some value => Reading.done value rest
      | none => _).result = _
  cases Text.readInt32 num.text <;> exact ⟨rfl, rfl⟩

/-- A number is where two readings can part. -/
lemma readInteger_inStep (h : Alike tokens tokens') :
    (readInteger tokens).InStep (readInteger tokens') := by
  cases h with
  | nil => exact .unexpected .nil
  | @cons token token' tokens tokens' hsame hread' hrest =>
    by_cases hnum : token.kind = .number
    · have hnum' : token'.kind = .number := hsame.trans hnum
      obtain ⟨value', hvalue'⟩ := Option.isSome_iff_exists.1 (hread' hnum')
      obtain ⟨hleft, hresult⟩ := readInteger_cons hnum tokens
      obtain ⟨hleft', hresult'⟩ := readInteger_cons hnum' tokens'
      rw [hvalue'] at hresult'
      cases hvalue : Text.readInt32 token.text with
      | some value =>
        rw [hvalue] at hresult
        have hread : NumeralsRead [token] :=
          List.forall_mem_singleton.2 fun _ => Option.isSome_iff_exists.2 ⟨value, hvalue⟩
        refine .together ?_ hread ?_ ?_ ?_
        · rw [hleft]
          rfl
        · rwa [hleft, hleft']
        · rw [hresult, hresult']
          rfl
        · intro e herror
          rw [hresult] at herror
          cases herror
      | none =>
        rw [hvalue] at hresult
        have hsplit : token :: tokens = [] ++ token :: (readInteger (token :: tokens)).rest := by
          rw [hleft]
          rfl
        refine .apart hsplit (fun _ hmem => absurd hmem List.not_mem_nil) hnum hvalue hresult ?_
        rw [hleft, hleft']
        exact Nat.le_of_eq hrest.length_eq
    · have hnum' : token'.kind ≠ .number := fun heq => hnum (hsame.symm.trans heq)
      rw [readInteger, readInteger, readKind, readKind, if_neg hnum, if_neg hnum']
      exact .unexpected (.cons hsame hread' hrest)

lemma SumSign.ne_number {kind : Kind} {op : ArithOp} (h : SumSign kind op) : kind ≠ .number := by
  cases h <;> decide

lemma ProductSign.ne_number {kind : Kind} {op : ArithOp} (h : ProductSign kind op) :
    kind ≠ .number := by
  cases h <;> decide

lemma RelSign.ne_number {kind : Kind} {op : RelOp} (h : RelSign kind op) : kind ≠ .number := by
  cases h <;> decide

/-! ## Expressions -/

-- The recursion is that of the readers.
mutual

lemma readExpr_inStep {tokens tokens' : List Token} (h : Alike tokens tokens') :
    (readExpr tokens).InStep (readExpr tokens') := by
  rw [readExpr, readExpr]
  refine (readTerm_inStep h).andThen fun left left' rest rest' hsuffix _ hrest => ?_
  have hlength := hsuffix.length_le
  exact readSum_inStep left left' hrest
termination_by 4 * tokens.length + 2

lemma readSum_inStep {tokens tokens' : List Token} (left left' : Expr)
    (h : Alike tokens tokens') : (readSum left tokens).InStep (readSum left' tokens') := by
  cases h with
  | nil =>
    rw [readSum, readSum]
    exact .done .nil
  | @cons token token' tokens tokens' hsame hread hrest =>
    rw [readSum, readSum, hsame]
    cases hop : sumOp? token.kind with
    | none => exact .done (.cons hsame hread hrest)
    | some op =>
      refine Reading.InStep.after ?_ (sumOp?_eq_some_iff.1 hop).ne_number
      refine (readTerm_inStep hrest).andThen fun right right' rest rest' hsuffix _ hrest' => ?_
      have hlength := hsuffix.length_le
      exact readSum_inStep _ _ hrest'
termination_by 4 * tokens.length

lemma readTerm_inStep {tokens tokens' : List Token} (h : Alike tokens tokens') :
    (readTerm tokens).InStep (readTerm tokens') := by
  rw [readTerm, readTerm]
  refine (readFactor_inStep h).andThen fun left left' rest rest' hsuffix _ hrest => ?_
  have hlength := hsuffix.length_le
  exact readProduct_inStep left left' hrest
termination_by 4 * tokens.length + 1

lemma readProduct_inStep {tokens tokens' : List Token} (left left' : Expr)
    (h : Alike tokens tokens') : (readProduct left tokens).InStep (readProduct left' tokens') := by
  cases h with
  | nil =>
    rw [readProduct, readProduct]
    exact .done .nil
  | @cons token token' tokens tokens' hsame hread hrest =>
    rw [readProduct, readProduct, hsame]
    cases hop : productOp? token.kind with
    | none => exact .done (.cons hsame hread hrest)
    | some op =>
      refine Reading.InStep.after ?_ (productOp?_eq_some_iff.1 hop).ne_number
      refine (readFactor_inStep hrest).andThen fun right right' rest rest' hsuffix _ hrest' => ?_
      have hlength := hsuffix.length_le
      exact readProduct_inStep _ _ hrest'
termination_by 4 * tokens.length

lemma readFactor_inStep {tokens tokens' : List Token} (h : Alike tokens tokens') :
    (readFactor tokens).InStep (readFactor tokens') := by
  cases h with
  | nil =>
    rw [readFactor]
    exact .unexpected .nil
  | @cons token token' tokens tokens' hsame hread hrest =>
    rw [readFactor, readFactor, hsame]
    split
    case h_1 hkind =>
      exact ((readExpr_inStep hrest).andThen fun _ _ _ _ _ _ hrest' =>
        (readKind_inStep (by decide) hrest').map).after (by rw [hkind]; decide)
    case h_2 => exact (readInteger_inStep (.cons hsame hread hrest)).map
    case h_3 hkind =>
      exact (readNamed_inStep token.text token'.text hrest).after (by rw [hkind]; decide)
    case h_4 => exact .unexpected (.cons hsame hread hrest)
termination_by 4 * tokens.length

lemma readNamed_inStep {tokens tokens' : List Token} (name name' : String)
    (h : Alike tokens tokens') : (readNamed name tokens).InStep (readNamed name' tokens') := by
  cases h with
  | nil =>
    rw [readNamed, readNamed]
    exact .done .nil
  | cons hsame hread hrest =>
    rw [readNamed, readNamed, hsame]
    split
    case h_1 hkind =>
      exact ((readExpr_inStep hrest).andThen fun _ _ _ _ _ _ hrest' =>
        (readKind_inStep (by decide) hrest').map).after (by rw [hkind]; decide)
    case h_2 hkind => exact (readArgs_inStep hrest).map.after (by rw [hkind]; decide)
    case h_3 => exact .done (.cons hsame hread hrest)
termination_by 4 * tokens.length

lemma readArgs_inStep {tokens tokens' : List Token} (h : Alike tokens tokens') :
    (readArgs tokens).InStep (readArgs tokens') := by
  rw [readArgs, readArgs, h.headKind_eq]
  split
  · exact (readKind_inStep (by decide) h).map
  · refine (readExpr_inStep h).andThen fun _ _ _ _ hsuffix _ hrest => ?_
    have hlength := hsuffix.length_le
    exact (readMoreArgs_inStep hrest).map
termination_by 4 * tokens.length + 3

lemma readMoreArgs_inStep {tokens tokens' : List Token} (h : Alike tokens tokens') :
    (readMoreArgs tokens).InStep (readMoreArgs tokens') := by
  cases h with
  | nil =>
    rw [readMoreArgs]
    exact (readKind_inStep (by decide) .nil).map
  | cons hsame hread hrest =>
    rw [readMoreArgs, readMoreArgs, hsame]
    split
    case isTrue hkind =>
      refine Reading.InStep.after ?_ (by rw [hkind]; decide)
      refine (readExpr_inStep hrest).andThen fun _ _ _ _ hsuffix _ hrest' => ?_
      have hlength := hsuffix.length_le
      exact (readMoreArgs_inStep hrest').map
    case isFalse => exact (readKind_inStep (by decide) (.cons hsame hread hrest)).map
termination_by 4 * tokens.length

end

lemma readComparison_inStep (h : Alike tokens tokens') :
    (readComparison tokens).InStep (readComparison tokens') := by
  refine (readExpr_inStep h).andThen fun left left' rest rest' _ _ hafter => ?_
  cases hafter with
  | nil => exact .unexpected .nil
  | @cons token token' rest rest' hsame hread hrest =>
    simp only [hsame]
    cases hop : relOp? token.kind with
    | none => exact .unexpected (.cons hsame hread hrest)
    | some op => exact (readExpr_inStep hrest).map.after (relOp?_eq_some_iff.1 hop).ne_number

/-! ## Statements -/

lemma readTarget_inStep (h : Alike tokens tokens') :
    (readTarget tokens).InStep (readTarget tokens') := by
  refine (readName_inStep h).andThen fun name name' rest rest' _ _ hafter => ?_
  cases hafter with
  | nil => exact .done .nil
  | cons hsame hread hrest =>
    simp only [hsame]
    split
    case isTrue hkind =>
      exact ((readExpr_inStep hrest).andThen fun _ _ _ _ _ _ hmore =>
        (readKind_inStep (by decide) hmore).map).after (by rw [hkind]; decide)
    case isFalse => exact .done (.cons hsame hread hrest)

lemma readAssignment_inStep (h : Alike tokens tokens') :
    (readAssignment tokens).InStep (readAssignment tokens') :=
  (readTarget_inStep h).andThen fun _ _ _ _ _ _ hrest =>
    (readKind_inStep (by decide) hrest).andThen fun _ _ _ _ _ _ hmore =>
      (readExpr_inStep hmore).map

lemma readParenthesised_inStep {α : Type} {read : (tokens : List Token) → Reading α tokens}
    (hread : ∀ {tokens tokens'}, Alike tokens tokens' → (read tokens).InStep (read tokens'))
    (h : Alike tokens tokens') :
    (readParenthesised read tokens).InStep (readParenthesised read tokens') :=
  (readKind_inStep (by decide) h).andThen fun _ _ _ _ _ _ hrest =>
    (hread hrest).andThen fun _ _ _ _ _ _ hmore => (readKind_inStep (by decide) hmore).map

mutual

lemma readStmt_inStep {tokens tokens' : List Token} (h : Alike tokens tokens') :
    (readStmt tokens).InStep (readStmt tokens') := by
  cases h with
  | nil =>
    rw [readStmt]
    exact .unexpected .nil
  | cons hsame hread hrest =>
    have hcondition := readParenthesised_inStep readComparison_inStep hrest
    rw [readStmt, readStmt, hsame]
    split
    case h_1 | h_2 => exact .done (.cons hsame hread hrest)
    case h_3 => exact (readAssignment_inStep (.cons hsame hread hrest)).map
    case h_4 hkind =>
      refine (hcondition.andThen fun _ _ _ _ hsuffix _ hyes => ?_).after (by rw [hkind]; decide)
      have hlength := hsuffix.length_le
      refine (readBlock_inStep hyes).andThen fun _ _ _ _ hsuffix' _ hno => ?_
      have hlength' := hsuffix'.length_le
      exact (readElse_inStep hno).map
    case h_5 hkind =>
      refine (hcondition.andThen fun _ _ _ _ hsuffix _ hbody => ?_).after (by rw [hkind]; decide)
      have hlength := hsuffix.length_le
      exact (readBlock_inStep hbody).map
    case h_6 => exact (readBlock_inStep (.cons hsame hread hrest)).map
    case h_7 hkind =>
      exact (readParenthesised_inStep readExpr_inStep hrest).map.after (by rw [hkind]; decide)
    case h_8 hkind =>
      exact (readParenthesised_inStep readName_inStep hrest).map.after (by rw [hkind]; decide)
    case h_9 hkind => exact (readExpr_inStep hrest).map.after (by rw [hkind]; decide)
    case h_10 => exact .unexpected (.cons hsame hread hrest)
termination_by 3 * tokens.length + 1

lemma readElse_inStep {tokens tokens' : List Token} (h : Alike tokens tokens') :
    (readElse tokens).InStep (readElse tokens') := by
  cases h with
  | nil =>
    rw [readElse]
    exact .done .nil
  | cons hsame hread hrest =>
    rw [readElse, readElse, hsame]
    split
    case isTrue hkind => exact (readBlock_inStep hrest).map.after (by rw [hkind]; decide)
    case isFalse => exact .done (.cons hsame hread hrest)
termination_by 3 * tokens.length

lemma readBlock_inStep {tokens tokens' : List Token} (h : Alike tokens tokens') :
    (readBlock tokens).InStep (readBlock tokens') := by
  cases h with
  | nil =>
    rw [readBlock]
    exact .unexpected .nil
  | cons hsame hread hrest =>
    rw [readBlock, readBlock, hsame]
    split
    case isTrue hkind =>
      exact ((readStmts_inStep hrest).andThen fun _ _ _ _ _ _ hmore =>
        (readKind_inStep (by decide) hmore).map).after (by rw [hkind]; decide)
    case isFalse => exact .unexpected (.cons hsame hread hrest)
termination_by 3 * tokens.length

lemma readStmts_inStep {tokens tokens' : List Token} (h : Alike tokens tokens') :
    (readStmts tokens).InStep (readStmts tokens') := by
  rw [readStmts, readStmts]
  refine (readStmt_inStep h).andThen fun stmt stmt' rest rest' hsuffix _ hafter => ?_
  have hlength := hsuffix.length_le
  cases hafter with
  | nil => exact .done .nil
  | cons hsame hread hrest =>
    simp only [hsame]
    split
    case isTrue hkind => exact (readStmts_inStep hrest).map.after (by rw [hkind]; decide)
    case isFalse => exact .done (.cons hsame hread hrest)
termination_by 3 * tokens.length + 2

end

/-! ## Declarations and programs -/

lemma readVarDef_inStep (h : Alike tokens tokens') :
    (readVarDef tokens).InStep (readVarDef tokens') := by
  refine (readName_inStep h).andThen fun name name' rest rest' _ _ hafter => ?_
  cases hafter with
  | nil => exact .done .nil
  | cons hsame hread hrest =>
    simp only [hsame]
    split
    case isTrue hkind =>
      exact ((readInteger_inStep hrest).andThen fun _ _ _ _ _ _ hmore =>
        (readKind_inStep (by decide) hmore).map).after (by rw [hkind]; decide)
    case isFalse => exact .done (.cons hsame hread hrest)

lemma readMoreVarDefs_inStep {tokens tokens' : List Token} (h : Alike tokens tokens') :
    (readMoreVarDefs tokens).InStep (readMoreVarDefs tokens') := by
  cases h with
  | nil =>
    rw [readMoreVarDefs]
    exact (readKind_inStep (by decide) .nil).map
  | cons hsame hread hrest =>
    rw [readMoreVarDefs, readMoreVarDefs, hsame]
    split
    case isTrue hkind =>
      refine ((readVarDef_inStep hrest).andThen fun _ _ _ _ hsuffix _ hmore => ?_).after
        (by rw [hkind]; decide)
      have hlength := hsuffix.length_le
      exact (readMoreVarDefs_inStep hmore).map
    case isFalse => exact (readKind_inStep (by decide) (.cons hsame hread hrest)).map
termination_by tokens.length

lemma readVariables_inStep (h : Alike tokens tokens') :
    (readVariables tokens).InStep (readVariables tokens') :=
  (readVarDef_inStep h).andThen fun _ _ _ _ _ _ hrest => (readMoreVarDefs_inStep hrest).map

lemma readMoreParams_inStep {tokens tokens' : List Token} (h : Alike tokens tokens') :
    (readMoreParams tokens).InStep (readMoreParams tokens') := by
  cases h with
  | nil =>
    rw [readMoreParams]
    exact (readKind_inStep (by decide) .nil).map
  | cons hsame hread hrest =>
    rw [readMoreParams, readMoreParams, hsame]
    split
    case isTrue hkind =>
      refine ((readName_inStep hrest).andThen fun _ _ _ _ hsuffix _ hmore => ?_).after
        (by rw [hkind]; decide)
      have hlength := hsuffix.length_le
      exact (readMoreParams_inStep hmore).map
    case isFalse => exact (readKind_inStep (by decide) (.cons hsame hread hrest)).map
termination_by tokens.length

lemma readParams_inStep (h : Alike tokens tokens') :
    (readParams tokens).InStep (readParams tokens') := by
  rw [readParams, readParams, h.headKind_eq]
  split
  · exact (readKind_inStep (by decide) h).map
  · exact (readName_inStep h).andThen fun _ _ _ _ _ _ hrest => (readMoreParams_inStep hrest).map

lemma readLocals_inStep (h : Alike tokens tokens') :
    (readLocals tokens).InStep (readLocals tokens') := by
  cases h with
  | nil => exact .done .nil
  | cons hsame hread hrest =>
    rw [readLocals, readLocals, hsame]
    split
    case isTrue hkind => exact (readVariables_inStep hrest).map.after (by rw [hkind]; decide)
    case isFalse => exact .done (.cons hsame hread hrest)

lemma readFunction_inStep (name name' : String) (h : Alike tokens tokens') :
    (readFunction name tokens).InStep (readFunction name' tokens') :=
  (readKind_inStep (by decide) h).andThen fun _ _ _ _ _ _ h₁ =>
    (readParams_inStep h₁).andThen fun _ _ _ _ _ _ h₂ =>
      (readKind_inStep (by decide) h₂).andThen fun _ _ _ _ _ _ h₃ =>
        (readLocals_inStep h₃).andThen fun _ _ _ _ _ _ h₄ => (readBlock_inStep h₄).map

lemma readDecls_inStep {tokens tokens' : List Token} (h : Alike tokens tokens') :
    (readDecls tokens).InStep (readDecls tokens') := by
  cases h with
  | nil =>
    rw [readDecls]
    exact .done .nil
  | cons hsame hread hrest =>
    rw [readDecls, readDecls, hsame]
    split
    case h_1 hkind =>
      refine ((readVariables_inStep hrest).andThen fun _ _ _ _ hsuffix _ hmore => ?_).after
        (by rw [hkind]; decide)
      have hlength := hsuffix.length_le
      exact (readDecls_inStep hmore).map
    case h_2 hkind =>
      refine ((readFunction_inStep _ _ hrest).andThen fun _ _ _ _ hsuffix _ hmore => ?_).after
        (by rw [hkind]; decide)
      have hlength := hsuffix.length_le
      exact (readDecls_inStep hmore).map
    case h_3 => exact .done (.cons hsame hread hrest)
termination_by tokens.length

lemma readDeclarations_inStep (h : Alike tokens tokens') :
    (readDeclarations tokens).InStep (readDeclarations tokens') := by
  rw [readDeclarations, readDeclarations, h.headKind_eq]
  split
  case h_1 => exact .done h
  case h_2 | h_3 => exact (readDecls_inStep h).map
  case h_4 => exact .unexpected h

lemma readProgram_inStep (h : Alike tokens tokens') :
    (readProgram tokens).InStep (readProgram tokens') :=
  (readDeclarations_inStep h).andThen fun _ _ _ _ _ _ hrest => (readBlock_inStep hrest).map

/-- Tokens of the same kinds are parsed in step. -/
lemma parse_inStep (h : Alike tokens tokens') : (parse tokens).InStep (parse tokens') := by
  refine (readProgram_inStep h).andThen fun p p' rest rest' _ _ hrest => ?_
  cases hrest with
  | nil => exact .done .nil
  | cons hsame hread hrest => exact .unexpected (.cons hsame hread hrest)

/-! ## Where numbers are expected -/

/-- A number can stand after these tokens: some program goes on with one. -/
def ExpectsNumber (front : List Token) : Prop :=
  ∃ (num : Token) (tail : List Token), num.kind = .number ∧ Accepted (front ++ num :: tail)

/-- The token, with zero in place of a number out of range. -/
def Token.clipped (token : Token) : Token :=
  if token.kind = .number ∧ Text.readInt32 token.text = none then { token with text := "0" }
  else token

lemma Token.kind_clipped (token : Token) : token.clipped.kind = token.kind := by
  unfold Token.clipped
  split <;> rfl

lemma Token.isSome_readInt32_clipped {token : Token} (h : token.clipped.kind = .number) :
    (Text.readInt32 token.clipped.text).isSome = true := by
  unfold Token.clipped at h ⊢
  split
  case isTrue =>
    show (Text.readInt32 "0").isSome = true
    decide
  case isFalse hread =>
    rw [if_neg hread] at h
    exact Option.isSome_iff_ne_none.2 fun hnone => hread ⟨h, hnone⟩

lemma alike_clipped (tokens : List Token) : Alike tokens (tokens.map Token.clipped) := by
  induction tokens with
  | nil => exact .nil
  | cons token tokens ih => exact .cons token.kind_clipped Token.isSome_readInt32_clipped ih

lemma map_clipped_of_numeralsRead (h : NumeralsRead tokens) :
    tokens.map Token.clipped = tokens := by
  refine (List.map_congr_left fun token htoken => ?_).trans (List.map_id tokens)
  refine if_neg fun hclipped => ?_
  have hread := h token htoken hclipped.1
  rw [hclipped.2] at hread
  cases hread

lemma rest_parse_of_ok {p : Program} (h : (parse tokens).result = .ok p) :
    (parse tokens).rest = [] := by
  rw [parse] at h ⊢
  obtain ⟨program, mid, _, _, hafter⟩ := Reading.andThen_gives.1 ⟨h, rfl⟩
  cases mid with
  | nil => exact (Reading.done_gives.1 hafter).2.symm
  | cons token mid => exact absurd hafter Reading.not_gives_unexpected

/-- The numbers in a program are in range. -/
lemma Accepted.numeralsRead (h : Accepted tokens) : NumeralsRead tokens := by
  obtain ⟨p, hp⟩ := h
  cases parse_inStep (alike_clipped tokens) with
  | together htokens htaken _ _ _ =>
    rw [rest_parse_of_ok hp, List.append_nil] at htokens
    rwa [htokens]
  | apart _ _ _ _ hresult _ =>
    rw [hp] at hresult
    cases hresult

variable {front front' tail tail' : List Token} {num num' : Token}

lemma NumeralsRead.notMem_of_unread (h : NumeralsRead tokens) (hnum : num.kind = .number)
    (hread : Text.readInt32 num.text = none) : num ∉ tokens := by
  intro hmem
  have hsome := h num hmem hnum
  rw [hread] at hsome
  cases hsome

/-- What was taken without a number out of range was taken before it. -/
lemma exists_kept_of_unread {taken rest : List Token} (heq : front ++ num :: tail = taken ++ rest)
    (htaken : NumeralsRead taken) (hnum : num.kind = .number)
    (hread : Text.readInt32 num.text = none) : ∃ kept, rest = kept ++ num :: tail := by
  rcases List.append_eq_append_iff.1 heq with ⟨more, rfl, hmore⟩ | ⟨more, rfl, hmore⟩
  · cases more with
    | nil => exact ⟨[], hmore.symm⟩
    | cons first more =>
      obtain ⟨rfl, _⟩ := List.cons.inj hmore
      exact absurd (List.mem_append_right front List.mem_cons_self)
        (htaken.notMem_of_unread hnum hread)
  · exact ⟨more, hmore⟩

/-- No two numbers are the first one out of range. -/
lemma eq_of_unread (heq : front ++ num :: tail = front' ++ num' :: tail')
    (hfront : NumeralsRead front) (hfront' : NumeralsRead front') (hnum : num.kind = .number)
    (hnum' : num'.kind = .number) (hread : Text.readInt32 num.text = none)
    (hread' : Text.readInt32 num'.text = none) : front = front' ∧ num = num' ∧ tail = tail' := by
  obtain ⟨kept, hkept⟩ := exists_kept_of_unread heq hfront' hnum hread
  obtain ⟨kept', hkept'⟩ := exists_kept_of_unread heq.symm hfront hnum' hread'
  have hlength := congrArg List.length hkept
  have hlength' := congrArg List.length hkept'
  simp only [List.length_append, List.length_cons] at hlength hlength'
  have hnil : kept = [] := List.length_eq_zero_iff.1 (by omega)
  subst hnil
  obtain ⟨rfl, rfl⟩ := List.cons.inj hkept
  exact ⟨List.append_cancel_right heq, rfl, rfl⟩

lemma alike_self (h : NumeralsRead tokens) : Alike tokens tokens := by
  induction tokens with
  | nil => exact .nil
  | cons token tokens ih => exact .cons rfl (h token List.mem_cons_self) (ih h.of_cons)

/-- One number for another leaves the tokens alike. -/
lemma alike_of_kind (hread : NumeralsRead (front ++ num' :: tail)) (hnum : num.kind = .number)
    (hnum' : num'.kind = .number) : Alike (front ++ num :: tail) (front ++ num' :: tail) := by
  induction front with
  | nil =>
    exact .cons (hnum'.trans hnum.symm) (hread num' List.mem_cons_self) (alike_self hread.of_cons)
  | cons token front ih => exact .cons rfl (hread token List.mem_cons_self) (ih hread.of_cons)

/-- Reading that gets past a token before one ending gets past it before every ending. -/
lemma rest_parse_suffix {ending : List Token} (h : (parse (front ++ num :: ending)).rest <:+ ending)
    (tail : List Token) : (parse (front ++ num :: tail)).rest <:+ tail := by
  have htail : num :: tail <:+ front ++ num :: tail := List.suffix_append front (num :: tail)
  have hkept : ¬ num :: tail <:+ (parse (front ++ num :: tail)).rest := by
    rintro ⟨kept, hkept⟩
    have hsame : Reading.SameBefore tail ending (parse (front ++ [num] ++ tail))
        (parse (front ++ [num] ++ ending)) := parse_sameBefore (front ++ [num])
    rw [← List.append_cons, ← List.append_cons] at hsame
    have hstops := (hsame (kept ++ [num]) (by simp) (by simp [← hkept])).2
    have hlength := h.length_le
    rw [hstops, List.length_append, List.length_append, List.length_singleton] at hlength
    omega
  rcases List.suffix_or_suffix_of_suffix (parse (front ++ num :: tail)).suffix htail with h | h
  · rcases List.suffix_cons_iff.1 h with h | h
    · exact absurd (⟨[], h.symm⟩) hkept
    · exact h
  · exact absurd h hkept

/-- Where a number is expected, every number in range can stand. -/
lemma ExpectsNumber.accepted (h : ExpectsNumber front) (hnum : num.kind = .number)
    (hread : (Text.readInt32 num.text).isSome = true) :
    ∃ tail, Accepted (front ++ num :: tail) := by
  obtain ⟨num', tail, hnum', p, hp⟩ := h
  have hall : NumeralsRead (front ++ num' :: tail) := Accepted.numeralsRead ⟨p, hp⟩
  obtain ⟨hfront, hrest⟩ := List.forall_mem_append.1 hall
  have hchanged : NumeralsRead (front ++ num :: tail) :=
    List.forall_mem_append.2 ⟨hfront, List.forall_mem_cons.2
      ⟨fun _ => hread, (List.forall_mem_cons.1 hrest).2⟩⟩
  refine ⟨tail, ?_⟩
  cases parse_inStep (alike_of_kind hchanged hnum' hnum) with
  | together _ _ _ hok _ =>
    cases hresult : (parse (front ++ num :: tail)).result with
    | ok q => exact ⟨q, hresult⟩
    | error e =>
      rw [hresult, hp] at hok
      cases hok
  | apart _ _ _ _ hresult _ =>
    rw [hp] at hresult
    cases hresult

/-- Where a number is expected, every number in range is taken, whatever comes after it. -/
lemma ExpectsNumber.rest_suffix (h : ExpectsNumber front) (hnum : num.kind = .number)
    (hread : (Text.readInt32 num.text).isSome = true) (tail : List Token) :
    (parse (front ++ num :: tail)).rest <:+ tail := by
  obtain ⟨ending, p, hp⟩ := h.accepted hnum hread
  have hending : (parse (front ++ num :: ending)).rest <:+ ending := by
    rw [rest_parse_of_ok hp]
    exact List.nil_suffix
  exact rest_parse_suffix hending tail

/-- Where a number is expected, every other one is reported, and nothing after it is looked at. -/
lemma ExpectsNumber.parse_eq (h : ExpectsNumber front) (hnum : num.kind = .number)
    (hread : Text.readInt32 num.text = none) (tail : List Token) :
    (parse (front ++ num :: tail)).result = .error (.outOfRange num.text num.line) ∧
      (parse (front ++ num :: tail)).rest = tail := by
  obtain ⟨num', ending, hnum', p, hp⟩ := h
  have hall : NumeralsRead (front ++ num' :: ending) := Accepted.numeralsRead ⟨p, hp⟩
  have hfront := (List.forall_mem_append.1 hall).1
  have hunread : ¬ NumeralsRead (front ++ num :: ending) := fun hread' =>
    hread'.notMem_of_unread hnum hread (List.mem_append_right front List.mem_cons_self)
  -- Before the same ending, the number is where the two readings part.
  have hending : (parse (front ++ num :: ending)).rest = ending := by
    cases parse_inStep (alike_of_kind hall hnum hnum') with
    | together htokens htaken hrest _ _ =>
      rw [rest_parse_of_ok hp] at hrest
      have hnil : (parse (front ++ num :: ending)).rest = [] :=
        List.length_eq_zero_iff.1 hrest.length_eq.symm
      rw [hnil, List.append_nil] at htokens
      exact absurd (htokens ▸ htaken) hunread
    | apart htokens hbefore hkind hnone _ _ =>
      exact (eq_of_unread htokens hfront hbefore hnum hkind hread hnone).2.2.symm
  -- Before another one reading gets past the number too, which it does only by reporting it.
  have htail := rest_parse_suffix ⟨[], hending⟩ tail
  cases parse_inStep (alike_clipped (front ++ num :: tail)) with
  | together htokens htaken _ _ _ =>
    obtain ⟨kept, hkept⟩ := exists_kept_of_unread htokens htaken hnum hread
    rw [hkept] at htail
    have hlength := htail.length_le
    rw [List.length_append, List.length_cons] at hlength
    omega
  | apart htokens hbefore hkind hnone hresult _ =>
    obtain ⟨_, rfl, htail⟩ := eq_of_unread htokens hfront hbefore hnum hkind hread hnone
    exact ⟨hresult, htail.symm⟩

/-- A number is reported only where one is expected, and only if it is out of range. -/
lemma exists_of_parse_outOfRange {literal : String} {line : Nat}
    (h : (parse tokens).result = .error (.outOfRange literal line)) :
    ∃ front num, tokens = front ++ num :: (parse tokens).rest ∧ num.kind = .number ∧
      Text.readInt32 num.text = none ∧ literal = num.text ∧ line = num.line ∧
      ExpectsNumber front := by
  cases parse_inStep (alike_clipped tokens) with
  | together _ _ _ _ hfound =>
    have hat := hfound _ h
    cases hrest : (parse tokens).rest with
    | nil =>
      rw [hrest] at hat
      obtain ⟨_, hat⟩ := hat
      cases hat
    | cons token rest =>
      rw [hrest] at hat
      obtain ⟨_, hat⟩ := hat
      cases hat
  | @apart front num htokens hfront hnum hread hresult hlength =>
    rw [h] at hresult
    cases hresult
    refine ⟨front, num, htokens, hnum, hread, rfl, rfl, num.clipped, ?_⟩
    have hclipped : tokens.map Token.clipped =
        front ++ num.clipped :: (parse tokens).rest.map Token.clipped := by
      rw [← map_clipped_of_numeralsRead hfront, ← List.map_cons, ← List.map_append, ← htokens]
    have hkind : num.clipped.kind = .number := num.kind_clipped.trans hnum
    cases hparse : (parse (tokens.map Token.clipped)).result with
    | ok p => exact ⟨_, hkind, p, hclipped ▸ hparse⟩
    | error e =>
      -- The other reading was not behind, so what it had taken when it failed has the number in it.
      obtain ⟨_, taken, ending, htaken, p, hword⟩ :=
        parse_viable (alike_clipped tokens).numerals e hparse
      have hnumber : front ++ [num.clipped] <+: tokens.map Token.clipped := by
        rw [hclipped]
        exact ⟨(parse tokens).rest.map Token.clipped, (List.append_cons ..).symm⟩
      have hlong : (front ++ [num.clipped]).length ≤ taken.length := by
        have hall := congrArg List.length hclipped
        have hsplit := congrArg List.length htaken
        simp only [List.length_append, List.length_cons, List.length_map,
          List.length_nil] at hall hsplit ⊢
        omega
      have hbegins := List.prefix_of_prefix_length_le hnumber ⟨_, htaken.symm⟩ hlong
      obtain ⟨more, rfl⟩ := hbegins
      refine ⟨more ++ ending, hkind, p, ?_⟩
      rw [List.append_cons, ← List.append_assoc]
      exact parse_of_derives hword

end DLang
