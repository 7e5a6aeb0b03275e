import DLang.Token.Scan
import Mathlib.Tactic.Common

/-!
# The segmentation of a text

Lexing follows the rule of the longest match.  This file says what the rule means without reference
to how a text is cut, and shows that it leaves no choice.

## The rule

`Segment.Fits segment after` says that a segment may stand directly before the text `after`.  A
number or a word fits only where no character follows that would continue it, a symbol of one
character only where it does not start a comparison of two characters or a closed comment, and a
character is illegal only where nothing else can start.  The kinds of keywords and symbols are
settled by `Kind.spelling?`, the table from kinds to spellings; cutting uses tables in the opposite
direction.

A segmentation of a text is a list of segments that join to the text, each fitting where it stands
(`IsSegmentation`).

## Results

At the head of a text exactly one segment fits, the one that `Segment.first` finds
(`Segment.fits_first`, `Segment.Fits.first_eq`); so every text has exactly one segmentation
(`isSegmentation_iff`), and lexing reports its tokens and its illegal characters with the lines on
which they start (`scan_unique_segmentation`).
-/

namespace DLang

namespace Segment

/-! ## What may stand where -/

/-- The text is the one spelling of the kind. -/
def Spells (text : List Char) (kind : Kind) : Prop :=
  kind.spelling? = some (String.ofList text)

/-- A lower-case letter followed by lower-case letters and digits. -/
inductive IsWord : List Char → Prop
  | mk {c : Char} {rest : List Char} :
      c.isLower = true → (∀ d ∈ rest, d.isLower = true ∨ d.isDigit = true) → IsWord (c :: rest)

/-- The character `c` and the text after it start with a comparison of two characters. -/
def StartsPair (c : Char) (after : List Char) : Prop :=
  ∃ kind rest, after = '=' :: rest ∧ Spells [c, '='] kind

/-- A slash before this text opens a comment, and some `*/` closes it. -/
def ClosesComment (after : List Char) : Prop :=
  ∃ body rest, after = '*' :: (body ++ '*' :: '/' :: rest)

/-- The segments that may stand directly before the text `after`. -/
inductive Fits : Segment → List Char → Prop
  | blank {c : Char} {after : List Char} :
      c = ' ' ∨ c = '\t' ∨ c = '\r' ∨ c = '\n' → Fits (.blank c) after
  /-- The end of the comment is the first one: no other stands in the body, and none can stand
  half in it. -/
  | comment {body after : List Char} : ¬ ['*', '/'] <:+: body → Fits (.comment body) after
  | number {digits after : List Char} :
      digits ≠ [] → (∀ d ∈ digits, d.isDigit = true) → (∀ d ∈ after.head?, ¬ d.isDigit = true) →
      Fits (.token .number digits) after
  | keyword {kind : Kind} {word after : List Char} :
      IsWord word → (∀ d ∈ after.head?, ¬ (d.isLower = true ∨ d.isDigit = true)) →
      Spells word kind → Fits (.token kind word) after
  | identifier {word after : List Char} :
      IsWord word → (∀ d ∈ after.head?, ¬ (d.isLower = true ∨ d.isDigit = true)) →
      (∀ kind, ¬ Spells word kind) → Fits (.token .identifier word) after
  | pair {kind : Kind} {c : Char} {after : List Char} :
      Spells [c, '='] kind → Fits (.token kind [c, '=']) after
  | single {kind : Kind} {c : Char} {after : List Char} :
      Spells [c] kind → ¬ StartsPair c after → ¬ (c = '/' ∧ ClosesComment after) →
      Fits (.token kind [c]) after
  | illegal {c : Char} {after : List Char} :
      ¬ (c = ' ' ∨ c = '\t' ∨ c = '\r' ∨ c = '\n') → ¬ c.isDigit = true → ¬ c.isLower = true →
      (∀ kind, ¬ Spells [c] kind) → ¬ StartsPair c after → Fits (.illegal c) after

end Segment

/-- A list of segments that join to the text, each fitting where it stands. -/
structure IsSegmentation (found : List Segment) (source : List Char) : Prop where
  joined : found.flatMap Segment.text = source
  fits : ∀ before segment after, found = before ++ segment :: after →
    segment.Fits (after.flatMap Segment.text)

namespace Segment

/-! ## Spellings in both directions -/

variable {c d : Char} {rest after body word : List Char} {kind : Kind}

lemma isBlank_iff : isBlank c = true ↔ c = ' ' ∨ c = '\t' ∨ c = '\r' ∨ c = '\n' := by
  simp [isBlank, or_assoc]

lemma isWordChar_iff : isWordChar d = true ↔ d.isLower = true ∨ d.isDigit = true := by
  simp [isWordChar]

lemma singleKind?_eq_some_iff : singleKind? c = some kind ↔ Spells [c] kind := by
  constructor
  · intro h
    unfold singleKind? at h
    split at h <;> simp only [Option.some.injEq, reduceCtorEq] at h <;> subst h <;> rfl
  · intro h
    cases kind <;> simp [Spells, Kind.spelling?, String.ext_iff] at h <;> subst h <;> rfl

lemma pairKind?_eq_some_iff : pairKind? c d = some kind ↔ d = '=' ∧ Spells [c, '='] kind := by
  constructor
  · intro h
    unfold pairKind? at h
    split at h <;> simp only [Option.some.injEq, reduceCtorEq] at h <;> subst h <;>
      exact ⟨rfl, rfl⟩
  · rintro ⟨rfl, h⟩
    cases kind <;> simp [Spells, Kind.spelling?, String.ext_iff] at h <;> subst h <;> rfl

/-- The kinds that words spell are the keywords, and a word that spells one is read as that one. -/
lemma wordKind_of_spells (hword : IsWord word) (h : Spells word kind) : wordKind word = kind := by
  obtain ⟨hlower, _⟩ := hword
  cases kind <;> simp [Spells, Kind.spelling?, String.ext_iff] at h <;>
    obtain ⟨rfl, rfl⟩ := h <;> first | rfl | simp at hlower

lemma spells_wordKind_or (word : List Char) :
    Spells word (wordKind word) ∨ wordKind word = .identifier := by
  unfold wordKind
  split <;> simp [Spells, Kind.spelling?, *]

lemma wordKind_of_not_spells (h : ∀ kind, ¬ Spells word kind) : wordKind word = .identifier :=
  (spells_wordKind_or word).resolve_left (h (wordKind word))

/-! ## Comments -/

/-- A comment ends with the first `*/`. -/
lemma commentBody?_append (h : ¬ ['*', '/'] <:+: body) (after : List Char) :
    commentBody? (body ++ '*' :: '/' :: after) = some body := by
  induction body with
  | nil => rfl
  | cons c body ih =>
    have hbody : ¬ ['*', '/'] <:+: body := fun hinfix => h (List.infix_cons hinfix)
    have hearly : ∀ tail, c = '*' → body ++ '*' :: '/' :: after = '/' :: tail → False := by
      rintro tail rfl heq
      cases body with
      | nil => simp at heq
      | cons d body =>
        obtain rfl : d = '/' := by simpa using (List.cons.inj heq).1
        exact h (List.prefix_append ['*', '/'] body).isInfix
    rw [List.cons_append, commentBody?.eq_3 _ _ hearly, ih hbody]
    rfl

lemma not_infix_of_commentBody? {text : List Char} (h : commentBody? text = some body) :
    ¬ ['*', '/'] <:+: body := by
  fun_induction commentBody? text generalizing body with
  | case1 => simp at h
  | case2 after =>
    obtain rfl : [] = body := by simpa using h
    simp
  | case3 c rest hearly ih =>
    obtain ⟨inner, hinner, rfl⟩ := Option.map_eq_some_iff.1 h
    obtain ⟨after, rfl⟩ := exists_of_commentBody? hinner
    intro hinfix
    rcases List.infix_cons_iff.1 hinfix with hprefix | hinfix
    · obtain ⟨tail, htail⟩ := hprefix
      obtain ⟨hc, hinner'⟩ := List.cons.inj htail
      exact hearly (tail ++ '*' :: '/' :: after) hc.symm (by simp [← hinner'])
    · exact ih hinner hinfix

/-- Where some `*/` stands, a comment has a body. -/
lemma isSome_commentBody? (body after : List Char) :
    (commentBody? (body ++ '*' :: '/' :: after)).isSome = true := by
  induction body with
  | nil => rfl
  | cons c body ih =>
    rw [List.cons_append]
    unfold commentBody?
    split
    · rename_i heq
      simp at heq
    · rfl
    · rename_i heq
      obtain ⟨rfl, rfl⟩ := List.cons.inj heq
      rwa [Option.isSome_map]

lemma comment?_eq_none_iff : comment? c rest = none ↔ ¬ (c = '/' ∧ ClosesComment rest) := by
  unfold comment?
  split
  · rename_i after
    rw [Option.map_eq_none_iff]
    constructor
    · rintro hnone ⟨_, body, tail, htail⟩
      have hsome := isSome_commentBody? body tail
      rw [← (List.cons.inj htail).2, hnone] at hsome
      simp at hsome
    · intro hnot
      by_contra hsome
      obtain ⟨body, hbody⟩ := Option.ne_none_iff_exists'.1 hsome
      obtain ⟨tail, rfl⟩ := exists_of_commentBody? hbody
      exact hnot ⟨rfl, body, tail, rfl⟩
  · rename_i hshape
    simp only [true_iff, not_and]
    rintro rfl ⟨body, tail, rfl⟩
    exact hshape _ rfl rfl

/-! ## Maximal runs -/

lemma takeWhile_of_run {p : Char → Bool} {run : List Char} (hrun : ∀ d ∈ run, p d = true)
    (hend : ∀ d ∈ after.head?, ¬ p d = true) : (run ++ after).takeWhile p = run := by
  rw [List.takeWhile_append_of_pos hrun]
  cases after with
  | nil => simp
  | cons d after =>
    have hd : ¬ p d = true := hend d (by simp)
    simp [hd]

lemma not_of_head?_after_run {p : Char → Bool} (h : rest = rest.takeWhile p ++ after) :
    ∀ d ∈ after.head?, ¬ p d = true := by
  have hsplit : rest.takeWhile p ++ rest.dropWhile p = rest.takeWhile p ++ after := by
    rw [List.takeWhile_append_dropWhile]
    exact h
  obtain rfl := List.append_cancel_left hsplit
  intro d hd
  have hhead := List.head?_dropWhile_not p rest
  rw [Option.mem_def.1 hd] at hhead
  simpa using hhead

/-! ## The segment at the head -/

lemma isBlank_of_isDigit (h : c.isDigit = true) : isBlank c = false := by
  by_contra hblank
  rw [Bool.not_eq_false, isBlank_iff] at hblank
  rcases hblank with rfl | rfl | rfl | rfl <;> simp at h

lemma isBlank_of_isLower (h : c.isLower = true) : isBlank c = false := by
  by_contra hblank
  rw [Bool.not_eq_false, isBlank_iff] at hblank
  rcases hblank with rfl | rfl | rfl | rfl <;> simp at h

lemma isDigit_of_isLower (h : c.isLower = true) : c.isDigit = false := by
  have hbounds : (decide (c.val ≥ 97) && decide (c.val ≤ 122)) = true := h
  simp only [Char.isDigit, UInt32.le_iff_toNat_le] at *
  simp at *
  omega

lemma first_of_isDigit (h : c.isDigit = true) :
    first c rest = .token .number (c :: rest.takeWhile Char.isDigit) := by
  have hblank := isBlank_of_isDigit h
  have hcomment : comment? c rest = none := by
    rw [comment?_eq_none_iff]
    rintro ⟨rfl, _⟩
    simp at h
  simp [first, hblank, hcomment, h]

lemma first_of_isLower (h : c.isLower = true) :
    first c rest =
      .token (wordKind (c :: rest.takeWhile isWordChar)) (c :: rest.takeWhile isWordChar) := by
  have hblank := isBlank_of_isLower h
  have hdigit := isDigit_of_isLower h
  have hcomment : comment? c rest = none := by
    rw [comment?_eq_none_iff]
    rintro ⟨rfl, _⟩
    simp at h
  simp [first, hblank, hcomment, hdigit, h]

lemma first_of_symbol (hblank : isBlank c = false) (hcomment : comment? c rest = none)
    (hdigit : c.isDigit = false) (hlower : c.isLower = false) :
    first c rest = (symbol? c rest).getD (illegal c) := by
  simp [first, hblank, hcomment, hdigit, hlower]

/-- Two characters that are a token together are that token. -/
lemma symbol?_of_pair (h : Spells [c, '='] kind) :
    symbol? c ('=' :: rest) = some (.token kind [c, '=']) := by
  have hpair : pairKind? c '=' = some kind := pairKind?_eq_some_iff.2 ⟨rfl, h⟩
  simp [symbol?, hpair]

lemma symbol?_of_not_startsPair (h : ¬ StartsPair c rest) :
    symbol? c rest = (singleKind? c).map fun kind => .token kind [c] := by
  have hpair : rest.head?.bind (pairKind? c) = none := by
    rw [Option.bind_eq_none_iff]
    intro d hd
    by_contra hsome
    obtain ⟨kind, hkind⟩ := Option.ne_none_iff_exists'.1 hsome
    obtain ⟨rfl, hspells⟩ := pairKind?_eq_some_iff.1 hkind
    obtain ⟨tail, rfl⟩ := List.head?_eq_some_iff.1 hd
    exact h ⟨kind, tail, rfl, hspells⟩
  simp [symbol?, hpair]

/-- A character that spells a symbol, alone or before an equals sign, starts nothing else. -/
lemma of_spells_symbol (h : Spells [c] kind ∨ Spells [c, '='] kind) :
    isBlank c = false ∧ c.isDigit = false ∧ c.isLower = false := by
  cases kind <;> simp [Spells, Kind.spelling?, String.ext_iff] at h <;> subst h <;> decide

/-! ## What follows a segment -/

/-- What fits before a text fits before another one too, if that one starts with the same character
or with one that continues nothing, and if a slash does not open a comment that is closed only
there. -/
lemma Fits.of_head {segment : Segment} {after' : List Char} (h : segment.Fits after)
    (hhead : ∀ d ∈ after'.head?, d ∈ after.head? ∨ isWordChar d = false ∧ d ≠ '=')
    (hcomment : segment = .token .slash ['/'] → ClosesComment after' → ClosesComment after) :
    segment.Fits after' := by
  have hend (p : Char → Prop) (hp : ∀ d, p d → isWordChar d = true)
      (hafter : ∀ d ∈ after.head?, ¬ p d) : ∀ d ∈ after'.head?, ¬ p d := by
    intro d hd hpd
    rcases hhead d hd with hsame | ⟨hword, _⟩
    · exact hafter d hsame hpd
    · rw [hp d hpd] at hword
      cases hword
  have hdigit (d : Char) (hd : d.isDigit = true) : isWordChar d = true :=
    isWordChar_iff.2 (.inr hd)
  have hpair' {c : Char} (hpair : ¬ StartsPair c after) : ¬ StartsPair c after' := by
    rintro ⟨kind, rest, rfl, hspells⟩
    rcases hhead '=' rfl with hsame | ⟨_, hne⟩
    · obtain ⟨rest', rfl⟩ := List.head?_eq_some_iff.1 hsame
      exact hpair ⟨kind, rest', rfl, hspells⟩
    · exact hne rfl
  cases h with
  | blank hc => exact .blank hc
  | comment hbody => exact .comment hbody
  | number hne hdigits hafter => exact .number hne hdigits (hend _ hdigit hafter)
  | keyword hword hafter hspells =>
    exact .keyword hword (hend _ (fun _ => isWordChar_iff.2) hafter) hspells
  | identifier hword hafter hspells =>
    exact .identifier hword (hend _ (fun _ => isWordChar_iff.2) hafter) hspells
  | pair hspells => exact .pair hspells
  | single hspells hpair hslash =>
    refine .single hspells (hpair' hpair) ?_
    rintro ⟨rfl, hcloses⟩
    obtain rfl := Option.some.inj (singleKind?_eq_some_iff.2 hspells)
    exact hslash ⟨rfl, hcomment rfl hcloses⟩
  | illegal hblank hdigit hlower hspells hpair =>
    exact .illegal hblank hdigit hlower hspells (hpair' hpair)

/-! ## Exactly one segment fits -/

/-- A segment that fits at the head of a text is the one that cutting finds there. -/
lemma Fits.first_eq {segment : Segment} (h : segment.Fits after)
    (htext : segment.text ++ after = c :: rest) : first c rest = segment := by
  cases h with
  | blank hc =>
    simp only [text, List.cons_append, List.nil_append, List.cons.injEq] at htext
    obtain ⟨rfl, rfl⟩ := htext
    simp [first, isBlank_iff.2 hc]
  | @comment body after hbody =>
    have hrest : '/' :: '*' :: (body ++ '*' :: '/' :: after) = c :: rest := by
      simpa [text] using htext
    obtain ⟨rfl, rfl⟩ := List.cons.inj hrest
    have hcomment : comment? '/' ('*' :: (body ++ '*' :: '/' :: after)) = some (.comment body) := by
      simp [comment?, commentBody?_append hbody after]
    simp [first, isBlank, hcomment]
  | @number digits after hne hdigits hend =>
    obtain ⟨d, digits, rfl⟩ := List.exists_cons_of_ne_nil hne
    simp only [text, List.cons_append, List.cons.injEq] at htext
    obtain ⟨rfl, rfl⟩ := htext
    have hfirst : d.isDigit = true := hdigits d (by simp)
    have hrun := takeWhile_of_run (fun e he => hdigits e (List.mem_cons_of_mem d he)) hend
    rw [first_of_isDigit hfirst, hrun]
  | keyword hword hend hspells =>
    have hkind := wordKind_of_spells hword hspells
    obtain ⟨hlower, hrest⟩ := hword
    simp only [text, List.cons_append, List.cons.injEq] at htext
    obtain ⟨rfl, rfl⟩ := htext
    simp only [← isWordChar_iff] at hrest hend
    rw [first_of_isLower hlower, takeWhile_of_run hrest hend, hkind]
  | identifier hword hend hspells =>
    have hkind := wordKind_of_not_spells hspells
    obtain ⟨hlower, hrest⟩ := hword
    simp only [text, List.cons_append, List.cons.injEq] at htext
    obtain ⟨rfl, rfl⟩ := htext
    simp only [← isWordChar_iff] at hrest hend
    rw [first_of_isLower hlower, takeWhile_of_run hrest hend, hkind]
  | @pair kind c' after hspells =>
    obtain ⟨hblank, hdigit, hlower⟩ := of_spells_symbol (.inr hspells)
    simp only [text, List.cons_append, List.nil_append, List.cons.injEq] at htext
    obtain ⟨rfl, rfl⟩ := htext
    have hcomment : comment? c' ('=' :: after) = none := by
      rw [comment?_eq_none_iff]
      rintro ⟨_, body, tail, htail⟩
      simp at htail
    rw [first_of_symbol hblank hcomment hdigit hlower, symbol?_of_pair hspells]
    rfl
  | single hspells hpair hcomment =>
    obtain ⟨hblank, hdigit, hlower⟩ := of_spells_symbol (.inl hspells)
    simp only [text, List.cons_append, List.nil_append, List.cons.injEq] at htext
    obtain ⟨rfl, rfl⟩ := htext
    rw [first_of_symbol hblank (comment?_eq_none_iff.2 hcomment) hdigit hlower,
      symbol?_of_not_startsPair hpair, singleKind?_eq_some_iff.2 hspells]
    rfl
  | @illegal c' after hblank hdigit hlower hspells hpair =>
    simp only [text, List.cons_append, List.nil_append, List.cons.injEq] at htext
    obtain ⟨rfl, rfl⟩ := htext
    rw [← isBlank_iff, Bool.not_eq_true] at hblank
    rw [Bool.not_eq_true] at hdigit hlower
    have hcomment : comment? c' after = none := by
      rw [comment?_eq_none_iff]
      rintro ⟨rfl, _⟩
      exact hspells .slash rfl
    have hsingle : singleKind? c' = none := by
      by_contra hsome
      obtain ⟨kind, hkind⟩ := Option.ne_none_iff_exists'.1 hsome
      exact hspells kind (singleKind?_eq_some_iff.1 hkind)
    rw [first_of_symbol hblank hcomment hdigit hlower, symbol?_of_not_startsPair hpair, hsingle]
    rfl

lemma Fits.text_ne_nil {segment : Segment} (h : segment.Fits after) : segment.text ≠ [] := by
  cases h with
  | number hne => exact hne
  | keyword hword | identifier hword =>
    obtain ⟨_, _⟩ := hword
    simp [text]
  | _ => simp [text]

/-- A symbol or an illegal character that cutting finds fits where it stands. -/
lemma fits_getD_symbol? (hblank : ¬ isBlank c = true) (hcomment : comment? c rest = none)
    (hdigit : ¬ c.isDigit = true) (hlower : ¬ c.isLower = true)
    (htext : c :: rest = ((symbol? c rest).getD (illegal c)).text ++ after) :
    ((symbol? c rest).getD (illegal c)).Fits after := by
  by_cases hpair : StartsPair c rest
  · obtain ⟨kind, tail, rfl, hspells⟩ := hpair
    rw [symbol?_of_pair hspells]
    exact .pair hspells
  · rw [symbol?_of_not_startsPair hpair] at htext ⊢
    cases hsingle : singleKind? c with
    | some kind =>
      simp only [hsingle, Option.map_some, Option.getD_some, text, List.cons_append,
        List.nil_append, List.cons.injEq, true_and] at htext
      obtain rfl := htext
      exact .single (singleKind?_eq_some_iff.1 hsingle) hpair (comment?_eq_none_iff.1 hcomment)
    | none =>
      simp only [hsingle, Option.map_none, Option.getD_none, text, List.cons_append,
        List.nil_append, List.cons.injEq, true_and] at htext
      obtain rfl := htext
      refine .illegal (fun h => hblank (isBlank_iff.2 h)) hdigit hlower ?_ hpair
      intro kind hspells
      rw [singleKind?_eq_some_iff.2 hspells] at hsingle
      simp at hsingle

/-- The segment that cutting finds at the head of a text fits there. -/
lemma fits_first (htext : c :: rest = (first c rest).text ++ after) :
    (first c rest).Fits after := by
  by_cases hblank : isBlank c = true
  · have hfirst : first c rest = .blank c := by simp [first, hblank]
    rw [hfirst]
    exact .blank (isBlank_iff.1 hblank)
  cases hcomment : comment? c rest with
  | some segment =>
    have hfirst : first c rest = segment := by simp [first, hblank, hcomment]
    rw [hfirst]
    unfold comment? at hcomment
    split at hcomment
    · obtain ⟨body, hbody, rfl⟩ := Option.map_eq_some_iff.1 hcomment
      exact .comment (not_infix_of_commentBody? hbody)
    · simp at hcomment
  | none =>
    by_cases hdigit : c.isDigit = true
    · rw [first_of_isDigit hdigit] at htext ⊢
      have hend := not_of_head?_after_run (List.cons.inj htext).2
      refine .number (by simp) ?_ hend
      intro d hd
      rcases List.mem_cons.1 hd with rfl | hd
      · exact hdigit
      · exact List.all_eq_true.1 List.all_takeWhile d hd
    by_cases hlower : c.isLower = true
    · rw [first_of_isLower hlower] at htext ⊢
      have hend := not_of_head?_after_run (List.cons.inj htext).2
      have hrun : ∀ d ∈ rest.takeWhile isWordChar, isWordChar d = true :=
        fun d hd => List.all_eq_true.1 List.all_takeWhile d hd
      simp only [isWordChar_iff] at hend hrun
      have hword : IsWord (c :: rest.takeWhile isWordChar) := .mk hlower hrun
      by_cases hspells : ∃ kind, Spells (c :: rest.takeWhile isWordChar) kind
      · obtain ⟨kind, hspells⟩ := hspells
        rw [wordKind_of_spells hword hspells]
        exact .keyword hword hend hspells
      · rw [not_exists] at hspells
        rw [wordKind_of_not_spells hspells]
        exact .identifier hword hend hspells
    · have hfirst : first c rest = (symbol? c rest).getD (illegal c) := by
        simp [first, hblank, hcomment, hdigit, hlower]
      rw [hfirst] at htext ⊢
      exact fits_getD_symbol? hblank hcomment hdigit hlower htext

end Segment

/-! ## Exactly one segmentation -/

lemma isSegmentation_nil : IsSegmentation [] [] := by
  refine ⟨rfl, ?_⟩
  intro before segment after h
  simp at h

/-- A segmentation is a segment that fits, followed by a segmentation of the rest. -/
lemma isSegmentation_cons_iff {segment : Segment} {found : List Segment} {source : List Char} :
    IsSegmentation (segment :: found) source ↔
      ∃ after, source = segment.text ++ after ∧ segment.Fits after ∧
        IsSegmentation found after := by
  constructor
  · rintro ⟨rfl, hfits⟩
    refine ⟨found.flatMap Segment.text, by simp, hfits [] segment found rfl, rfl, ?_⟩
    intro before segment' after hsplit
    exact hfits (segment :: before) segment' after (by simp [hsplit])
  · rintro ⟨after, rfl, hfits, hfound⟩
    obtain rfl := hfound.joined
    refine ⟨by simp, ?_⟩
    intro before segment' after hsplit
    cases before with
    | nil =>
      obtain ⟨rfl, rfl⟩ := List.cons.inj hsplit
      exact hfits
    | cons first before => exact hfound.fits before segment' after (List.cons.inj hsplit).2

/-- The segments of a text are a segmentation of it. -/
lemma isSegmentation_segments (source : List Char) : IsSegmentation (segments source) source := by
  fun_induction segments source with
  | case1 => exact isSegmentation_nil
  | case2 c rest ih =>
    obtain ⟨after, hafter⟩ := Segment.exists_eq_text_first_append c rest
    have hdrop : (c :: rest).drop (Segment.first c rest).text.length = after := by
      rw [hafter, List.drop_left]
    rw [hdrop] at ih ⊢
    exact isSegmentation_cons_iff.2 ⟨after, hafter, Segment.fits_first hafter, ih⟩

/-- A text has no other segmentation: each segment is the first one of the text from there on. -/
lemma IsSegmentation.eq_segments {found : List Segment} {source : List Char}
    (h : IsSegmentation found source) : found = segments source := by
  induction found generalizing source with
  | nil =>
    obtain rfl : [] = source := h.joined
    rw [segments]
  | cons segment found ih =>
    obtain ⟨after, rfl, hfits, hfound⟩ := isSegmentation_cons_iff.1 h
    cases htext : segment.text ++ after with
    | nil => exact absurd (List.append_eq_nil_iff.1 htext).1 hfits.text_ne_nil
    | cons c rest =>
      have hfirst := hfits.first_eq htext
      rw [segments, hfirst, ← htext, List.drop_left, ← ih hfound]

/-- The segments of a text are its only segmentation. -/
lemma isSegmentation_iff {found : List Segment} {source : List Char} :
    IsSegmentation found source ↔ found = segments source := by
  constructor
  · exact IsSegmentation.eq_segments
  · rintro rfl
    exact isSegmentation_segments source

/-! ## Places and lines -/

/-- The segments with their places: the number of characters before each of them, if `offset`
characters stand before the first. -/
def located (offset : Nat) : List Segment → List (Nat × Segment)
  | [] => []
  | segment :: rest => (offset, segment) :: located (offset + segment.text.length) rest

/-- The line of a place in a text: one more than the number of line feeds before it. -/
def lineAt (source : List Char) (offset : Nat) : Nat :=
  1 + (source.take offset).count '\n'

/-- The token that a segment is, with the line of its place. -/
def tokenAt? (source : List Char) : Nat × Segment → Option Token
  | (offset, .token kind text) => some ⟨kind, String.ofList text, lineAt source offset⟩
  | _ => none

/-- The illegal character that a segment is, with the line of its place. -/
def illegalAt? (source : List Char) : Nat × Segment → Option IllegalCharacter
  | (offset, .illegal c) => some ⟨c, lineAt source offset⟩
  | _ => none

lemma lineAt_append (before after : List Char) :
    lineAt (before ++ after) before.length = 1 + before.count '\n' := by
  simp [lineAt]

/-- What is collected from a line on is what stands at the places from there on.  The invariant of
the induction is that the line counts the line feeds of the text `before` that is already read. -/
lemma ofSegments_eq_filterMap_located (before : List Char) (found : List Segment) :
    (Scan.ofSegments (1 + before.count '\n') found).tokens =
        (located before.length found).filterMap
          (tokenAt? (before ++ found.flatMap Segment.text)) ∧
      (Scan.ofSegments (1 + before.count '\n') found).illegals =
        (located before.length found).filterMap
          (illegalAt? (before ++ found.flatMap Segment.text)) := by
  induction found generalizing before with
  | nil => simp [located, Scan.ofSegments]
  | cons segment rest ih =>
    have hline : 1 + before.count '\n' + segment.text.count '\n' =
        1 + (before ++ segment.text).count '\n' := by
      rw [List.count_append, Nat.add_assoc]
    have hrest := ih (before ++ segment.text)
    rw [List.length_append, List.append_assoc, ← List.flatMap_cons] at hrest
    cases segment <;>
      simp only [Scan.ofSegments, located, hline, hrest, List.filterMap_cons, tokenAt?, illegalAt?,
        lineAt_append, and_self]

/-- **Lexing reports the one segmentation of a text.**  Every source text has exactly one
segmentation.  The tokens of the text are the tokens in it and its illegal characters those in it,
in order, each with its text and with a line that is one more than the number of line feeds before
it in the source. -/
theorem scan_unique_segmentation (source : String) :
    (∃! found, IsSegmentation found source.toList) ∧
      ∀ found, IsSegmentation found source.toList →
        (scan source).tokens = (located 0 found).filterMap (tokenAt? source.toList) ∧
          (scan source).illegals = (located 0 found).filterMap (illegalAt? source.toList) := by
  constructor
  · exact ⟨segments source.toList, isSegmentation_segments _, fun _ h => h.eq_segments⟩
  · intro found h
    obtain rfl := h.eq_segments
    have hlocated := ofSegments_eq_filterMap_located [] (segments source.toList)
    simp only [List.count_nil, List.length_nil, List.nil_append, flatMap_text_segments] at hlocated
    exact hlocated

end DLang
