import DLang.Proofs.Grammar.Derivation

/-!
# What readings give

`reading.Gives value rest` says that a reading succeeds with a value and leaves the tokens `rest`.
Each way to build a reading has one equivalence here that says when the whole gives something in
terms of its parts; with them a successful reading can be taken apart and put together again without
opening the definitions.
-/

namespace DLang

namespace Reading

variable {α β : Type} {tokens : List Token}

/-- The reading has the value `value` and leaves the tokens `rest`. -/
def Gives (reading : Reading α tokens) (value : α) (rest : List Token) : Prop :=
  reading.result = .ok value ∧ reading.rest = rest

lemma done_gives {value v : α} {rest : List Token} :
    (done value tokens).Gives v rest ↔ value = v ∧ tokens = rest :=
  and_congr_left' ⟨Except.ok.inj, congrArg Except.ok⟩

lemma not_gives_unexpected {expected : Expected} {v : α} {rest : List Token} :
    ¬ (unexpected expected tokens).Gives v rest := by
  cases tokens with
  | nil => exact fun h => nomatch h.1
  | cons token tokens => exact fun h => nomatch h.1

lemma after_gives {token : Token} {reading : Reading α tokens} {v : α} {rest : List Token} :
    (after token reading).Gives v rest ↔ reading.Gives v rest :=
  Iff.rfl

lemma map_gives {f : α → β} {reading : Reading α tokens} {v : β} {rest : List Token} :
    (reading.map f).Gives v rest ↔ ∃ a, reading.Gives a rest ∧ f a = v := by
  obtain ⟨result, left, suffix⟩ := reading
  cases result with
  | ok a =>
    constructor
    · rintro ⟨hvalue, hrest⟩
      exact ⟨a, ⟨rfl, hrest⟩, Except.ok.inj hvalue⟩
    · rintro ⟨a', ⟨ha, hrest⟩, rfl⟩
      cases ha
      exact ⟨rfl, hrest⟩
  | error error =>
    constructor
    · exact fun h => nomatch h.1
    · exact fun ⟨_, h, _⟩ => nomatch h.1

lemma andThen_gives {reading : Reading α tokens}
    {next : α → (rest : List Token) → rest <:+ tokens → Reading β rest} {v : β}
    {rest : List Token} :
    (reading.andThen next).Gives v rest ↔
      ∃ a mid, ∃ suffix : mid <:+ tokens,
        reading.Gives a mid ∧ (next a mid suffix).Gives v rest := by
  constructor
  · rintro ⟨hvalue, hrest⟩
    obtain ⟨a, ha, hnext⟩ := exists_of_andThen_ok hvalue
    have hleft : (reading.andThen next).rest = (next a reading.rest reading.suffix).rest :=
      (andThen_of_ok ha).2
    exact ⟨a, reading.rest, reading.suffix, ⟨ha, rfl⟩, hnext, hleft.symm.trans hrest⟩
  · rintro ⟨a, mid, suffix, ⟨ha, rfl⟩, hnext⟩
    obtain ⟨hvalue, hleft⟩ := andThen_of_ok ha
    exact ⟨hvalue.trans hnext.1, hleft.trans hnext.2⟩

/-- Goes on from what a reading gives. -/
lemma Gives.andThen {reading : Reading α tokens}
    {next : α → (rest : List Token) → rest <:+ tokens → Reading β rest} {a : α} {v : β}
    {mid rest : List Token} (h : reading.Gives a mid)
    (hnext : ∀ suffix : mid <:+ tokens, (next a mid suffix).Gives v rest) :
    (reading.andThen next).Gives v rest := by
  have hsuffix : mid <:+ tokens := h.2 ▸ reading.suffix
  exact andThen_gives.2 ⟨a, mid, hsuffix, h, hnext hsuffix⟩

lemma Gives.map {f : α → β} {reading : Reading α tokens} {a : α} {rest : List Token}
    (h : reading.Gives a rest) : (reading.map f).Gives (f a) rest :=
  map_gives.2 ⟨a, h, rfl⟩

end Reading

/-! ## Single tokens -/

lemma readKind_gives {kind : Kind} {tokens rest : List Token} {token : Token} :
    (readKind kind tokens).Gives token rest ↔ tokens = token :: rest ∧ token.kind = kind := by
  cases tokens with
  | nil =>
    constructor
    · exact fun h => nomatch h.1
    · exact fun h => nomatch h.1
  | cons first tokens =>
    rw [readKind]
    by_cases hkind : first.kind = kind
    · rw [if_pos hkind, Reading.after_gives, Reading.done_gives]
      constructor
      · rintro ⟨rfl, rfl⟩
        exact ⟨rfl, hkind⟩
      · rintro ⟨heq, _⟩
        exact List.cons.inj heq
    · rw [if_neg hkind]
      constructor
      · exact fun h => absurd h Reading.not_gives_unexpected
      · rintro ⟨heq, hfirst⟩
        cases heq
        exact absurd hfirst hkind

/-- A token that is read only for its kind. -/
lemma map_readKind_gives {α : Type} {kind : Kind} {tokens rest : List Token} {a v : α} :
    ((readKind kind tokens).map fun _ => a).Gives v rest ↔
      ∃ token, tokens = token :: rest ∧ token.kind = kind ∧ a = v := by
  rw [Reading.map_gives]
  simp only [readKind_gives, and_assoc]

lemma readName_gives {tokens rest : List Token} {name : String} :
    (readName tokens).Gives name rest ↔
      ∃ token, tokens = token :: rest ∧ token.kind = .identifier ∧ token.text = name := by
  rw [readName, Reading.map_gives]
  simp only [readKind_gives, and_assoc]

lemma readInteger_gives {tokens rest : List Token} {value : Int32} :
    (readInteger tokens).Gives value rest ↔
      ∃ token, tokens = token :: rest ∧ token.kind = .number ∧
        Text.readInt32 token.text = some value := by
  rw [readInteger, Reading.andThen_gives]
  constructor
  · rintro ⟨token, mid, suffix, htoken, hvalue⟩
    obtain ⟨rfl, hkind⟩ := readKind_gives.1 htoken
    refine ⟨token, ?_⟩
    cases hread : Text.readInt32 token.text with
    | some v =>
      rw [hread] at hvalue
      obtain ⟨rfl, rfl⟩ := Reading.done_gives.1 hvalue
      exact ⟨rfl, hkind, rfl⟩
    | none =>
      rw [hread] at hvalue
      exact absurd hvalue.1 nofun
  · rintro ⟨token, rfl, hkind, hread⟩
    refine ⟨token, rest, List.suffix_cons token rest, readKind_gives.2 ⟨rfl, hkind⟩, ?_⟩
    rw [hread]
    exact ⟨rfl, rfl⟩

lemma readParenthesised_gives {α : Type} {read : (tokens : List Token) → Reading α tokens}
    {tokens rest : List Token} {value : α} :
    (readParenthesised read tokens).Gives value rest ↔
      ∃ lpar inner rpar, tokens = lpar :: inner ∧ lpar.kind = .openParen ∧
        (read inner).Gives value (rpar :: rest) ∧ rpar.kind = .closeParen := by
  rw [readParenthesised, Reading.andThen_gives]
  constructor
  · rintro ⟨lpar, inner, _, hopen, hinner⟩
    obtain ⟨htokens, hlpar⟩ := readKind_gives.1 hopen
    obtain ⟨found, mid, _, hread, hclose⟩ := Reading.andThen_gives.1 hinner
    obtain ⟨rpar, rfl, hrpar, rfl⟩ := map_readKind_gives.1 hclose
    exact ⟨lpar, inner, rpar, htokens, hlpar, hread, hrpar⟩
  · rintro ⟨lpar, inner, rpar, rfl, hlpar, hread, hrpar⟩
    refine ⟨lpar, inner, List.suffix_cons lpar inner, readKind_gives.2 ⟨rfl, hlpar⟩, ?_⟩
    refine hread.andThen fun _ => ?_
    exact map_readKind_gives.2 ⟨rpar, rfl, hrpar, rfl⟩

/-! ## Operators -/

lemma sumOp?_eq_some_iff {kind : Kind} {op : ArithOp} :
    sumOp? kind = some op ↔ SumSign kind op := by
  constructor
  · intro h
    cases kind <;> cases h <;> constructor
  · rintro ⟨⟩ <;> rfl

lemma sumOp?_eq_none {kind : Kind} (h : kind ∉ [.plus, .minus]) : sumOp? kind = none := by
  cases kind <;> first | rfl | exact absurd (by simp) h

lemma productOp?_eq_some_iff {kind : Kind} {op : ArithOp} :
    productOp? kind = some op ↔ ProductSign kind op := by
  constructor
  · intro h
    cases kind <;> cases h <;> constructor
  · rintro ⟨⟩ <;> rfl

lemma productOp?_eq_none {kind : Kind} (h : kind ∉ [.star, .slash]) : productOp? kind = none := by
  cases kind <;> first | rfl | exact absurd (by simp) h

lemma relOp?_eq_some_iff {kind : Kind} {op : RelOp} : relOp? kind = some op ↔ RelSign kind op := by
  constructor
  · intro h
    cases kind <;> cases h <;> constructor
  · rintro ⟨⟩ <;> rfl

end DLang
