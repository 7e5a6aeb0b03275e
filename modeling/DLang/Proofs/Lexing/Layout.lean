import DLang.Proofs.Lexing.Segmentation

/-!
# Laid-out texts

A lexeme is a token without its line.  `Laid lexemes text` says that a text is laid out from a list
of lexemes: their texts stand in it in order, with any number of blanks before, between and after
them, but with at least one blank where two letters or digits would touch.

Blanks are not needed anywhere else if no two symbols of the list run together, that is, if after
`<`, `>`, `=` and `/` comes nothing that starts with `=` or `*`.  `Joinable` says this of a list of
lexemes, in the form in which it holds of programs: after each of these four comes a number, a name
or an opening parenthesis.  From every text that is laid out from joinable lexemes, lexing finds
these lexemes again and nothing else (`scan_of_laid`).
-/

namespace DLang

/-! ## Lexemes -/

/-- A token without its line. -/
structure Lexeme where
  kind : Kind
  text : String
  deriving DecidableEq, Repr

/-- What a token is apart from its line. -/
def Token.lexeme (token : Token) : Lexeme :=
  ⟨token.kind, token.text⟩

namespace Lexeme

/-- The lexeme of a kind that has one spelling. -/
def ofKind (kind : Kind) : Lexeme :=
  ⟨kind, kind.spelling?.getD ""⟩

/-- The lexeme of a name. -/
def ofName (name : String) : Lexeme :=
  ⟨.identifier, name⟩

/-- The lexeme of a number. -/
def ofNat (n : Nat) : Lexeme :=
  ⟨.number, toString n⟩

/-- The lexemes that lexing can find. -/
inductive Proper : Lexeme → Prop
  | number {text : String} :
      text.toList ≠ [] → (∀ d ∈ text.toList, d.isDigit = true) → Proper ⟨.number, text⟩
  | name {text : String} :
      Segment.IsWord text.toList → (∀ kind : Kind, kind.spelling? ≠ some text) →
      Proper ⟨.identifier, text⟩
  | spelled {kind : Kind} {text : String} : kind.spelling? = some text → Proper ⟨kind, text⟩

/-- The kinds of symbols that would run together with some symbols. -/
def openSigns : List Kind :=
  [.less, .greater, .equal, .slash]

/-- The kinds of the lexemes that may follow such a symbol without a blank. -/
def operandStarts : List Kind :=
  [.number, .identifier, .openParen]

end Lexeme

open Lexeme

/-! ## Lists of lexemes and texts -/

/-- Lists of lexemes of which no two symbols run together. -/
inductive Joinable : List Lexeme → Prop
  | nil : Joinable []
  | cons {l : Lexeme} {rest : List Lexeme} :
      l.Proper → l.kind ∉ openSigns → Joinable rest → Joinable (l :: rest)
  | sign {l next : Lexeme} {rest : List Lexeme} :
      l.Proper → next.kind ∈ operandStarts → Joinable (next :: rest) → Joinable (l :: next :: rest)

/-- The texts that are laid out from a list of lexemes. -/
inductive Laid : List Lexeme → List Char → Prop
  | nil : Laid [] []
  | blank {c : Char} {lexemes : List Lexeme} {text : List Char} :
      Segment.isBlank c = true → Laid lexemes text → Laid lexemes (c :: text)
  | lexeme {l : Lexeme} {lexemes : List Lexeme} {text : List Char} :
      (∀ c ∈ l.text.toList.getLast?, ∀ d ∈ text.head?,
        ¬ (Segment.isWordChar c = true ∧ Segment.isWordChar d = true)) →
      Laid lexemes text → Laid (l :: lexemes) (l.text.toList ++ text)

lemma Joinable.append {u v : List Lexeme} (hu : Joinable u) (hv : Joinable v) :
    Joinable (u ++ v) := by
  induction hu with
  | nil => exact hv
  | cons hproper hkind _ ih => exact .cons hproper hkind ih
  | sign hproper hnext _ ih => exact .sign hproper hnext ih

/-- After a symbol that could run together with the next comes the start of an operand. -/
lemma Joinable.head_operandStarts {l : Lexeme} {rest : List Lexeme} (h : Joinable (l :: rest))
    (hkind : l.kind ∈ openSigns) : ∃ next tail, rest = next :: tail ∧
      next.kind ∈ operandStarts := by
  cases h with
  | cons _ hnot _ => exact absurd hkind hnot
  | sign _ hnext _ => exact ⟨_, _, rfl, hnext⟩

lemma Joinable.proper {l : Lexeme} {rest : List Lexeme} (h : Joinable (l :: rest)) :
    l.Proper ∧ Joinable rest := by
  cases h with
  | cons hproper _ hrest => exact ⟨hproper, hrest⟩
  | sign hproper _ hrest => exact ⟨hproper, hrest⟩

/-! ## A lexeme fits where it is laid -/

lemma Lexeme.Proper.text_ne_nil {l : Lexeme} (h : l.Proper) : l.text.toList ≠ [] := by
  cases h with
  | number hne _ => exact hne
  | name hword _ =>
    rcases hshape : String.toList _ with _ | _
    · rw [hshape] at hword
      cases hword
    · simp
  | @spelled kind text hspelling =>
    cases kind <;> simp [Kind.spelling?] at hspelling <;> subst hspelling <;> decide

/-- A number, a name and an opening parenthesis start with neither an equals sign nor a star. -/
lemma Lexeme.Proper.head_of_operandStarts {l : Lexeme} (h : l.Proper)
    (hkind : l.kind ∈ operandStarts) : ∀ d ∈ l.text.toList.head?, d ≠ '=' ∧ d ≠ '*' := by
  intro d hd
  cases h with
  | number _ hdigits =>
    have hdigit := hdigits d (List.mem_of_mem_head? hd)
    constructor <;> rintro rfl <;> simp at hdigit
  | name hword _ =>
    obtain ⟨tail, htail⟩ := List.head?_eq_some_iff.1 hd
    rw [htail] at hword
    obtain ⟨hlower, _⟩ := hword
    constructor <;> rintro rfl <;> simp at hlower
  | @spelled kind text hspelling =>
    cases kind <;> simp [Kind.spelling?, operandStarts] at hspelling hkind
    subst hspelling
    obtain rfl : '(' = d := by simpa using hd
    decide

/-- Words can be told by evaluation. -/
lemma Segment.isWord_of_all {word : List Char} (hhead : word.head?.any Char.isLower = true)
    (hall : word.all isWordChar = true) : IsWord word := by
  cases word with
  | nil => simp at hhead
  | cons c rest =>
    simp only [List.all_cons, Bool.and_eq_true, List.all_eq_true, isWordChar_iff] at hall
    exact .mk (by simpa using hhead) hall.2

/-- The spelling of a kind is a word, a comparison of two characters, or one character.  If the one
character starts a comparison or a comment, it is the spelling of an open sign. -/
lemma spelling_cases {kind : Kind} {text : String} (h : kind.spelling? = some text) :
    Segment.IsWord text.toList ∨ (∃ c, text.toList = [c, '=']) ∨
      ∃ c, text.toList = [c] ∧ (c ∈ ['<', '>', '=', '!', '/'] → kind ∈ openSigns) := by
  cases kind <;> simp only [Kind.spelling?, Option.some.injEq, reduceCtorEq] at h <;> subst h <;>
    first
      | exact .inl (Segment.isWord_of_all rfl rfl)
      | exact .inr (.inl ⟨_, rfl⟩)
      | exact .inr (.inr ⟨_, rfl, by decide⟩)

/-- A lexeme fits before a text that continues neither a word nor a number nor an open sign. -/
lemma Lexeme.Proper.fits {l : Lexeme} {after : List Char} (h : l.Proper)
    (hword : ∀ c ∈ l.text.toList.getLast?, ∀ d ∈ after.head?,
      ¬ (Segment.isWordChar c = true ∧ Segment.isWordChar d = true))
    (hsign : l.kind ∈ openSigns → ∀ d ∈ after.head?, d ≠ '=' ∧ d ≠ '*') :
    (Segment.token l.kind l.text.toList).Fits after := by
  -- After a word or a number, whose last character is a letter or a digit, none may follow.
  have hend : l.text.toList ≠ [] → (∀ d ∈ l.text.toList, Segment.isWordChar d = true) →
      ∀ d ∈ after.head?, ¬ (d.isLower = true ∨ d.isDigit = true) := by
    intro hne hall d hd hchar
    have hlast := hall _ (List.getLast_mem hne)
    exact hword _ (List.getLast?_eq_some_getLast hne) d hd ⟨hlast, Segment.isWordChar_iff.2 hchar⟩
  have hchars : Segment.IsWord l.text.toList →
      ∀ d ∈ l.text.toList, Segment.isWordChar d = true := by
    intro hisWord
    generalize l.text.toList = text at hisWord
    obtain ⟨hlower, hrest⟩ := hisWord
    intro d hd
    rw [Segment.isWordChar_iff]
    rcases List.mem_cons.1 hd with rfl | hd
    · exact .inl hlower
    · exact hrest d hd
  have hne := h.text_ne_nil
  cases h with
  | @number text _ hdigits =>
    have hall : ∀ d ∈ text.toList, Segment.isWordChar d = true :=
      fun d hd => Segment.isWordChar_iff.2 (.inr (hdigits d hd))
    exact .number hne hdigits fun d hd hdigit => hend hne hall d hd (.inr hdigit)
  | @name text hisWord hspelling =>
    refine .identifier hisWord (hend hne (hchars hisWord)) ?_
    intro kind hspells
    exact hspelling kind (by rw [hspells, String.ofList_toList])
  | @spelled kind text hspelling =>
    have hspells : Segment.Spells text.toList kind := by
      rw [Segment.Spells, hspelling, String.ofList_toList]
    rcases spelling_cases hspelling with hisWord | ⟨c, htext⟩ | ⟨c, htext, hopen⟩
    · exact .keyword hisWord (hend hne (hchars hisWord)) hspells
    · simp only [htext] at hspells ⊢
      exact .pair hspells
    · simp only [htext] at hspells ⊢
      refine .single hspells ?_ ?_
      · rintro ⟨kind', rest, rfl, hpair⟩
        have hc : c ∈ ['<', '>', '=', '!', '/'] := by
          cases kind' <;> simp [Segment.Spells, Kind.spelling?, String.ext_iff] at hpair <;>
            simp [← hpair]
        exact (hsign (hopen hc) '=' rfl).1 rfl
      · rintro ⟨rfl, body, rest, rfl⟩
        exact (hsign (hopen (by simp)) '*' rfl).2 rfl

/-! ## Lexing finds the lexemes -/

/-- The lexeme that a segment is. -/
def Segment.lexeme? : Segment → Option Lexeme
  | .token kind text => some ⟨kind, String.ofList text⟩
  | _ => none

/-- What follows a lexeme in a joinable list does not continue an open sign. -/
lemma head?_of_laid {lexemes : List Lexeme} {text : List Char} (hlaid : Laid lexemes text)
    (hjoinable : Joinable lexemes)
    (hhead : ∀ next ∈ lexemes.head?, next.kind ∈ operandStarts) :
    ∀ d ∈ text.head?, d ≠ '=' ∧ d ≠ '*' := by
  intro d hd
  cases hlaid with
  | nil => simp at hd
  | blank hblank _ =>
    obtain rfl := Option.some.inj hd
    constructor <;> rintro rfl <;> simp [Segment.isBlank] at hblank
  | @lexeme l lexemes text _ _ =>
    have hproper := hjoinable.proper.1
    obtain ⟨c, tail, htext⟩ := List.exists_cons_of_ne_nil hproper.text_ne_nil
    refine hproper.head_of_operandStarts (hhead l rfl) d ?_
    rw [htext] at hd ⊢
    exact hd

/-- A laid-out text is cut into blanks and the lexemes that it is laid out from. -/
lemma Laid.exists_segmentation {lexemes : List Lexeme} {text : List Char}
    (hlaid : Laid lexemes text) (hjoinable : Joinable lexemes) :
    ∃ found, IsSegmentation found text ∧ found.filterMap Segment.lexeme? = lexemes ∧
      ∀ c, .illegal c ∉ found := by
  induction hlaid with
  | nil => exact ⟨[], isSegmentation_nil, rfl, by simp⟩
  | @blank c lexemes text hblank hlaid ih =>
    obtain ⟨found, hfound, hlexemes, hlegal⟩ := ih hjoinable
    refine ⟨.blank c :: found, ?_, ?_, by simpa using hlegal⟩
    · exact isSegmentation_cons_iff.2 ⟨text, rfl, .blank (Segment.isBlank_iff.1 hblank), hfound⟩
    · simpa [List.filterMap_cons, Segment.lexeme?] using hlexemes
  | @lexeme l lexemes text hword hlaid ih =>
    obtain ⟨hproper, hrest⟩ := hjoinable.proper
    obtain ⟨found, hfound, hlexemes, hlegal⟩ := ih hrest
    have hsign : l.kind ∈ openSigns → ∀ d ∈ text.head?, d ≠ '=' ∧ d ≠ '*' := by
      intro hkind
      obtain ⟨next, tail, rfl, hnext⟩ := hjoinable.head_operandStarts hkind
      refine head?_of_laid hlaid hrest ?_
      intro next' hnext'
      obtain rfl := Option.some.inj hnext'
      exact hnext
    refine ⟨.token l.kind l.text.toList :: found, ?_, ?_, by simpa using hlegal⟩
    · exact isSegmentation_cons_iff.2 ⟨text, rfl, hproper.fits hword hsign, hfound⟩
    · simp [Segment.lexeme?, hlexemes]

lemma Scan.lexemes_ofSegments (line : Nat) (found : List Segment) :
    (ofSegments line found).tokens.map Token.lexeme = found.filterMap Segment.lexeme? := by
  induction found generalizing line with
  | nil => rfl
  | cons segment rest ih =>
    cases segment <;> simp [ofSegments, List.filterMap_cons, Segment.lexeme?, Token.lexeme, ih]

lemma Scan.illegals_ofSegments {found : List Segment} (h : ∀ c, .illegal c ∉ found) (line : Nat) :
    (ofSegments line found).illegals = [] := by
  induction found generalizing line with
  | nil => rfl
  | cons segment rest ih =>
    have hrest : ∀ c, .illegal c ∉ rest := fun c hc => h c (List.mem_cons_of_mem segment hc)
    cases segment with
    | illegal c => exact absurd List.mem_cons_self (h c)
    | _ => simp [ofSegments, ih hrest]

lemma Segment.Fits.proper {kind : Kind} {text after : List Char}
    (h : (Segment.token kind text).Fits after) : Lexeme.Proper ⟨kind, String.ofList text⟩ := by
  cases h with
  | number hne hdigits _ => exact .number (by simpa using hne) (by simpa using hdigits)
  | identifier hword _ hspells => exact .name (by simpa using hword) hspells
  | keyword _ _ hspells | pair hspells | single hspells _ _ => exact .spelled hspells

/-- The tokens of a source text are proper. -/
lemma proper_of_mem_scan {source : String} {token : Token} (h : token ∈ (scan source).tokens) :
    token.lexeme.Proper := by
  have hmem : token.lexeme ∈ (scan source).tokens.map Token.lexeme := List.mem_map_of_mem h
  rw [scan, Scan.lexemes_ofSegments] at hmem
  obtain ⟨segment, hsegment, hlexeme⟩ := List.mem_filterMap.1 hmem
  obtain ⟨before, after, hsplit⟩ := List.append_of_mem hsegment
  have hfits := (isSegmentation_segments source.toList).fits before segment after hsplit
  cases segment with
  | token kind text =>
    rw [← Option.some.inj hlexeme]
    exact hfits.proper
  | _ => simp [Segment.lexeme?] at hlexeme

/-- From a laid-out text, lexing finds the lexemes that it is laid out from and nothing else. -/
lemma scan_of_laid {lexemes : List Lexeme} {source : String} (hlaid : Laid lexemes source.toList)
    (hjoinable : Joinable lexemes) :
    (scan source).tokens.map Token.lexeme = lexemes ∧ (scan source).illegals = [] := by
  obtain ⟨found, hfound, hlexemes, hlegal⟩ := hlaid.exists_segmentation hjoinable
  rw [scan, ← hfound.eq_segments]
  exact ⟨by rw [Scan.lexemes_ofSegments, hlexemes], Scan.illegals_ofSegments hlegal 1⟩

end DLang
