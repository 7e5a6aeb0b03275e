import DLang.Proofs.Module.Spelling
import Mathlib.Data.List.TakeWhile

/-!
# Typed and untyped pointers

The text of a module with untyped pointers is the text with typed ones after two replacements in
every line: first the format, which is a constant expression in the typed style, then each pointer
type that is left (`Program.generate_untyped`).  The two texts agree in everything else.

The replacements know nothing of modules.  They go through the characters of a line from the left
and replace each word they find (`replaceWords`).  What has to be shown is that they find no word
other than those that lowering meant.  For a pointer type this is a matter of what stands in front
of it: a pointee has no comma and no parenthesis in it and begins with no blank, so it cannot begin
earlier than where it was written (`Bars`).  For the format it is a matter of its first star, which
no other pointer type has between the same characters.
-/

namespace DLang

/-! ## Replacing words -/

/-- Replaces words from the left.  `width` gives the length of the word at the front of some
characters, zero if there is none there; `skip` characters belong to a word replaced before. -/
def replaceWords (width : List Char → Nat) (replacement : List Char) :
    Nat → List Char → List Char
  | _, [] => []
  | skip + 1, _ :: rest => replaceWords width replacement skip rest
  | 0, c :: rest =>
    match width (c :: rest) with
    | 0 => c :: replaceWords width replacement 0 rest
    | n + 1 => replacement ++ replaceWords width replacement n rest

/-- The length of the typed format at the front. -/
def formatWidth (chars : List Char) : Nat :=
  if (IR.formatArgument .typed).toList.isPrefixOf chars then
    (IR.formatArgument .typed).toList.length
  else 0

/-- Whether characters spell the type of an array of integers: brackets around a numeral and the
type of its elements. -/
def isArrayType : List Char → Bool
  | '[' :: rest =>
    !(rest.takeWhile Char.isDigit).isEmpty && rest.dropWhile Char.isDigit == " x i32]".toList
  | _ => false

/-- Whether characters spell a type that a module has pointers to. -/
def isPointee (chars : List Char) : Bool :=
  chars == "i8".toList || chars == "i32".toList || isArrayType chars

/-- The length of the pointer type at the front: a pointee and a star. -/
def pointerWidth (chars : List Char) : Nat :=
  let pointee := chars.takeWhile (· != '*')
  if isPointee pointee && pointee.length < chars.length then pointee.length + 1 else 0

/-- A line with its format replaced. -/
def replaceFormat : List Char → List Char :=
  replaceWords formatWidth (IR.formatArgument .untyped).toList 0

/-- A line with all its pointer types replaced. -/
def replacePointers : List Char → List Char :=
  replaceWords pointerWidth "ptr".toList 0

/-- A line after both replacements. -/
def untypedLine (line : String) : String :=
  String.ofList (replacePointers (replaceFormat line.toList))

/-- A text after a replacement in each of its lines. -/
def Text.mapLines (f : String → String) (text : String) : String :=
  "\n".intercalate ((Text.lines text).map f)

section Words

variable {width : List Char → Nat} {replacement : List Char}

lemma replaceWords_skip (w rest : List Char) :
    replaceWords width replacement w.length (w ++ rest) =
      replaceWords width replacement 0 rest := by
  induction w with
  | nil => rfl
  | cons c w ih => exact ih

/-- A word at the front is replaced. -/
lemma replaceWords_word {w rest : List Char} (hw : w ≠ []) (hwidth : width (w ++ rest) = w.length) :
    replaceWords width replacement 0 (w ++ rest) =
      replacement ++ replaceWords width replacement 0 rest := by
  cases w with
  | nil => exact absurd rfl hw
  | cons c w =>
    rw [List.cons_append, replaceWords, ← List.cons_append, hwidth, List.length_cons]
    exact congrArg (replacement ++ ·) (replaceWords_skip w rest)

/-- Characters in which no word begins are kept. -/
lemma replaceWords_append {u rest : List Char}
    (h : ∀ b, b <:+ u → b ≠ [] → width (b ++ rest) = 0) :
    replaceWords width replacement 0 (u ++ rest) =
      u ++ replaceWords width replacement 0 rest := by
  induction u with
  | nil => rfl
  | cons c u ih =>
    have hhere := h (c :: u) List.suffix_rfl (List.cons_ne_nil c u)
    have hrest := ih fun b hb => h b (hb.trans (List.suffix_cons c u))
    rw [List.cons_append] at hhere
    rw [List.cons_append, replaceWords, hhere, hrest]
    rfl

end Words

/-! ## The format -/

open IR (Starless Respelled AddressType starless_append)

lemma takeWhile_star {w t : List Char} (h : '*' ∉ w) :
    (w ++ '*' :: t).takeWhile (· != '*') = w := by
  rw [List.takeWhile_append_of_pos]
  · simp
  · intro c hc
    simp only [bne_iff_ne]
    rintro rfl
    exact h hc

lemma toList_formatArgument_typed :
    (IR.formatArgument .typed).toList = "i8".toList ++ '*' :: ' ' ::
      "getelementptr([4 x i8], [4 x i8]* @.formatstr, i32 0, i32 0)".toList := by
  decide +kernel

/-- Where the format is spelled, its first star comes after two characters and before a blank. -/
lemma eq_of_formatWidth_ne_zero {w t : List Char} (hw : '*' ∉ w)
    (h : formatWidth (w ++ '*' :: t) ≠ 0) : w = "i8".toList ∧ t.head? = some ' ' := by
  unfold formatWidth at h
  split at h
  · rename_i hformat
    obtain ⟨rest, hrest⟩ := List.isPrefixOf_iff_prefix.1 hformat
    rw [toList_formatArgument_typed, List.append_assoc] at hrest
    have htaken := congrArg (List.takeWhile (· != '*')) hrest
    rw [List.cons_append, takeWhile_star (by decide), takeWhile_star hw] at htaken
    subst htaken
    obtain ⟨_, ht⟩ := List.cons.inj (List.append_cancel_left hrest)
    exact ⟨rfl, by rw [← ht]; rfl⟩
  · exact absurd rfl h

lemma formatWidth_of_starless {chars : List Char} (h : Starless chars) :
    formatWidth chars = 0 := by
  unfold formatWidth
  rw [if_neg]
  intro hformat
  have hsubset := (List.isPrefixOf_iff_prefix.1 hformat).subset
  rw [toList_formatArgument_typed] at hsubset
  exact h.star_notMem (hsubset (List.mem_append_right _ List.mem_cons_self))

/-- Nothing is replaced up to a star that is not the one of the format. -/
lemma replaceFormat_star {w t : List Char} (hw : Starless w)
    (h : "i8".toList <:+ w → t.head? ≠ some ' ') :
    replaceFormat (w ++ "*".toList ++ t) = w ++ "*".toList ++ replaceFormat t := by
  have hstar : formatWidth ("*".toList ++ t) = 0 := by
    by_contra hne
    exact absurd (eq_of_formatWidth_ne_zero (w := []) List.not_mem_nil hne).1 (by decide)
  unfold replaceFormat
  rw [List.append_assoc, replaceWords_append, replaceWords_append, List.append_assoc]
  · intro b hb hne
    rcases List.suffix_cons_iff.1 hb with rfl | hb
    · exact hstar
    · exact absurd (List.suffix_nil.1 hb) hne
  · intro b hb hne
    by_contra hwidth
    have hstarless : '*' ∉ b := fun hmem => hw.star_notMem (hb.subset hmem)
    obtain ⟨rfl, hhead⟩ := eq_of_formatWidth_ne_zero hstarless hwidth
    exact h hb hhead

/-- The format is replaced, whatever is in front of it. -/
lemma replaceFormat_format {w t : List Char} (hw : Starless w) :
    replaceFormat (w ++ (IR.formatArgument .typed).toList ++ t) =
      w ++ (IR.formatArgument .untyped).toList ++ replaceFormat t := by
  unfold replaceFormat
  rw [List.append_assoc, replaceWords_append, replaceWords_word, List.append_assoc]
  · rw [toList_formatArgument_typed]
    exact List.append_ne_nil_of_right_ne_nil _ (List.cons_ne_nil _ _)
  · unfold formatWidth
    rw [if_pos (List.isPrefixOf_iff_prefix.2 (List.prefix_append _ _))]
  · intro b hb hne
    by_contra hwidth
    have hstarless : '*' ∉ b ++ "i8".toList := by
      rw [List.mem_append, not_or]
      exact ⟨fun hmem => hw.star_notMem (hb.subset hmem), by decide⟩
    rw [toList_formatArgument_typed, List.append_assoc, ← List.append_assoc b,
      List.cons_append] at hwidth
    have hnil := (eq_of_formatWidth_ne_zero hstarless hwidth).1
    exact hne (List.append_left_eq_self.1 hnil)

/-- The type of an address does not end as the type of a character does. -/
lemma not_suffix_addressType {u pointee : List Char} (h : AddressType pointee) :
    ¬ "i8".toList <:+ u ++ pointee := by
  rintro ⟨v, hv⟩
  have hlast : ∀ (w : List Char) (c : Char), u ++ pointee = w ++ [c] → c = '8' := by
    intro w c hw
    rw [← hv] at hw
    have hchars : v ++ ['i'] ++ ['8'] = w ++ [c] := by
      rw [List.append_assoc]
      exact hw
    exact (List.singleton_inj.1 (List.append_inj_right' hchars rfl)).symm
  cases h with
  | integer => exact absurd (hlast (u ++ "i3".toList) '2' (by simp)) (by decide)
  | array size =>
    refine absurd (hlast (u ++ ("[" ++ toString size ++ " x i32").toList) ']' ?_) (by decide)
    simp [IR.arrayType]

/-- The first replacement gives the line in which only the format has changed. -/
lemma replaceFormat_of_respelled {t m t' : List Char} (h : Respelled t m t') :
    ∀ v, Starless v → replaceFormat (v ++ t) = v ++ m := by
  induction h with
  | @plain u hu =>
    intro v hv
    have hall : Starless (v ++ u) := hv.append hu
    have hkept : replaceFormat (v ++ u ++ []) = v ++ u ++ replaceFormat [] := by
      apply replaceWords_append
      intro b hb _
      rw [List.append_nil]
      exact formatWidth_of_starless (hall.of_suffix hb)
    simpa [replaceFormat, replaceWords] using hkept
  | @parameter u t m t' hu _ ih =>
    intro v hv
    have hfront : Starless (v ++ u ++ "(i8".toList) := (hv.append hu).append rfl
    have hstar := replaceFormat_star (t := ", ".toList ++ t) hfront fun _ => by
      simp
    rw [ih ", ".toList rfl] at hstar
    have hsplit : "(i8*".toList = "(i8".toList ++ "*".toList := rfl
    rw [hsplit]
    simpa only [List.append_assoc] using hstar
  | @address u pointee t m t' hu hpointee _ ih =>
    intro v hv
    have hfront : Starless (v ++ u ++ ", ".toList ++ pointee) :=
      starless_append.2 ⟨starless_append.2 ⟨hv.append hu, rfl⟩, hpointee.starless⟩
    have hstar := replaceFormat_star (t := " ".toList ++ t) hfront fun hsuffix =>
      absurd hsuffix (not_suffix_addressType hpointee)
    rw [ih " ".toList rfl] at hstar
    simpa only [List.append_assoc] using hstar
  | @argument u t m t' hu _ ih =>
    intro v hv
    have hfront : Starless (v ++ u ++ "(".toList) := (hv.append hu).append rfl
    have hformat := replaceFormat_format (t := t) hfront
    have hrest := ih [] rfl
    rw [List.nil_append, List.nil_append] at hrest
    rw [hrest] at hformat
    simpa only [List.append_assoc] using hformat

/-! ## Pointer types -/

lemma isArrayType_iff {chars : List Char} :
    isArrayType chars = true ↔ ∃ digits, digits ≠ [] ∧ (∀ c ∈ digits, c.isDigit = true) ∧
      chars = '[' :: (digits ++ " x i32]".toList) := by
  constructor
  · intro h
    unfold isArrayType at h
    split at h
    · rename_i rest
      simp only [Bool.and_eq_true, Bool.not_eq_true', List.isEmpty_eq_false_iff, beq_iff_eq] at h
      refine ⟨rest.takeWhile Char.isDigit, h.1, fun c hc => ?_, ?_⟩
      · exact List.all_eq_true.1 List.all_takeWhile c hc
      · rw [← h.2, List.takeWhile_append_dropWhile]
    · cases h
  · rintro ⟨digits, hne, hdigits, rfl⟩
    have htaken : (digits ++ " x i32]".toList).takeWhile Char.isDigit = digits := by
      rw [List.takeWhile_append_of_pos hdigits]
      exact List.append_nil digits
    have hdropped : (digits ++ " x i32]".toList).dropWhile Char.isDigit = " x i32]".toList := by
      rw [List.dropWhile_append_of_pos hdigits]
      rfl
    simp only [isArrayType, htaken, hdropped, beq_self_eq_true, Bool.and_true]
    simpa using hne

lemma isPointee_arrayType (size : Nat) : isPointee (IR.arrayType size).toList = true := by
  have harray : isArrayType (IR.arrayType size).toList = true := by
    refine isArrayType_iff.2 ⟨Nat.toDigits 10 size, Nat.toDigits_ne_nil, ?_, by simp [IR.arrayType]⟩
    exact fun c hc => Nat.isDigit_of_mem_toDigits (by omega) (by omega) hc
  rw [isPointee, harray, Bool.or_true]

/-- A pointee has no comma and no parenthesis in it and begins with no blank. -/
lemma of_isPointee {chars : List Char} (h : isPointee chars = true) :
    ',' ∉ chars ∧ '(' ∉ chars ∧ chars.head? ≠ some ' ' := by
  simp only [isPointee, Bool.or_eq_true, beq_iff_eq] at h
  rcases h with (rfl | rfl) | h
  · decide
  · decide
  · obtain ⟨digits, _, hdigits, rfl⟩ := isArrayType_iff.1 h
    have hother : ∀ c : Char, c.isDigit = false → c ∉ digits := by
      intro c hc hmem
      rw [hdigits c hmem] at hc
      cases hc
    have hcomma := hother ',' rfl
    have hparenthesis := hother '(' rfl
    simp [hcomma, hparenthesis]

/-- No pointee begins in these characters. -/
def Bars (u : List Char) : Prop :=
  ∀ b, b <:+ u → b ≠ [] → ∀ rest, isPointee (b ++ rest) = false

lemma bars_parenthesis (u : List Char) : Bars (u ++ "(".toList) := by
  intro b hb hne rest
  by_contra hpointee
  obtain ⟨_, hparenthesis, _⟩ := of_isPointee (eq_true_of_ne_false hpointee)
  have hb : b <:+ u ++ ['('] := hb
  rcases List.suffix_concat_iff.1 hb with rfl | ⟨front, rfl, _⟩
  · exact hne rfl
  · exact hparenthesis (by simp)

lemma bars_comma (u : List Char) : Bars (u ++ ", ".toList) := by
  intro b hb hne rest
  by_contra hpointee
  obtain ⟨hcomma, _, hblank⟩ := of_isPointee (eq_true_of_ne_false hpointee)
  have hb : b <:+ (u ++ [',']) ++ [' '] := by
    rw [List.append_assoc]
    exact hb
  -- The last blank alone begins no pointee, and anything longer has the comma in it.
  rcases List.suffix_concat_iff.1 hb with rfl | ⟨front, rfl, hfront⟩
  · exact hne rfl
  · rcases List.suffix_concat_iff.1 hfront with rfl | ⟨front, rfl, _⟩
    · exact hblank rfl
    · exact hcomma (by simp)

lemma pointerWidth_star {w t : List Char} (h : Starless w) :
    pointerWidth (w ++ '*' :: t) = if isPointee w then w.length + 1 else 0 := by
  unfold pointerWidth
  rw [takeWhile_star h.star_notMem]
  simp

lemma pointerWidth_of_starless {chars : List Char} (h : Starless chars) :
    pointerWidth chars = 0 := by
  have hall : chars.takeWhile (· != '*') = chars := by
    rw [List.takeWhile_eq_self_iff]
    intro c hc
    simp only [bne_iff_ne]
    rintro rfl
    exact h.star_notMem hc
  unfold pointerWidth
  rw [hall]
  simp

/-- A pointer type is replaced where its pointee cannot begin earlier. -/
lemma replacePointers_pointer {w pointee t : List Char} (hw : Starless w) (hbars : Bars w)
    (hstarless : Starless pointee) (hpointee : isPointee pointee = true) :
    replacePointers (w ++ pointee ++ "*".toList ++ t) = w ++ "ptr".toList ++ replacePointers t := by
  have hhere : replacePointers (pointee ++ "*".toList ++ t) =
      "ptr".toList ++ replacePointers t := by
    apply replaceWords_word
    · simp
    · rw [List.append_assoc]
      show pointerWidth (pointee ++ '*' :: t) = _
      rw [pointerWidth_star hstarless, if_pos hpointee, List.length_append]
      rfl
  rw [List.append_assoc, List.append_assoc, List.append_assoc w, ← hhere, List.append_assoc]
  apply replaceWords_append
  intro b hb hne
  show pointerWidth (b ++ (pointee ++ '*' :: t)) = 0
  rw [← List.append_assoc, pointerWidth_star ((hw.of_suffix hb).append hstarless),
    hbars b hb hne pointee]
  rfl

lemma AddressType.isPointee {pointee : List Char} (h : AddressType pointee) :
    DLang.isPointee pointee = true := by
  cases h with
  | integer => rfl
  | array size => exact isPointee_arrayType size

/-- The second replacement gives the line with untyped pointers. -/
lemma replacePointers_of_respelled {t m t' : List Char} (h : Respelled t m t') :
    ∀ v, Starless v → replacePointers (v ++ m) = v ++ t' := by
  induction h with
  | @plain u hu =>
    intro v hv
    have hall : Starless (v ++ u) := hv.append hu
    have hkept : replacePointers (v ++ u ++ []) = v ++ u ++ replacePointers [] := by
      apply replaceWords_append
      intro b hb _
      rw [List.append_nil]
      exact pointerWidth_of_starless (hall.of_suffix hb)
    simpa [replacePointers, replaceWords] using hkept
  | @parameter u t m t' hu _ ih =>
    intro v hv
    have hfront : Starless (v ++ u ++ "(".toList) := starless_append.2 ⟨hv.append hu, rfl⟩
    have hpointer := replacePointers_pointer (t := ", ".toList ++ m) hfront (bars_parenthesis _)
      (rfl : Starless "i8".toList) rfl
    rw [ih ", ".toList rfl] at hpointer
    have hsplit : "(i8*".toList = "(".toList ++ ("i8".toList ++ "*".toList) := rfl
    have hsplit' : "(ptr".toList = "(".toList ++ "ptr".toList := rfl
    rw [hsplit, hsplit']
    simpa only [List.append_assoc] using hpointer
  | @address u pointee t m t' hu haddress _ ih =>
    intro v hv
    have hfront : Starless (v ++ u ++ ", ".toList) := starless_append.2 ⟨hv.append hu, rfl⟩
    have hpointer := replacePointers_pointer (t := " ".toList ++ m) hfront (bars_comma _)
      haddress.starless (AddressType.isPointee haddress)
    rw [ih " ".toList rfl] at hpointer
    simpa only [List.append_assoc] using hpointer
  | @argument u t m t' hu _ ih =>
    intro v hv
    have hfront : Starless (v ++ u ++ "(".toList ++ (IR.formatArgument .untyped).toList) :=
      starless_append.2 ⟨starless_append.2 ⟨hv.append hu, rfl⟩, rfl⟩
    have hrest := ih _ hfront
    simpa only [List.append_assoc] using hrest

/-! ## Modules -/

lemma untypedLine_of_respelled {line line' : String} {m : List Char}
    (h : Respelled line.toList m line'.toList) : untypedLine line = line' := by
  have hformat := replaceFormat_of_respelled h [] rfl
  have hpointers := replacePointers_of_respelled h [] rfl
  rw [List.nil_append, List.nil_append] at hformat hpointers
  rw [untypedLine, hformat, hpointers, String.ofList_toList]

example : untypedLine "  %tmp.2 = getelementptr [10 x i32], [10 x i32]* %i8, i32 0, i32 %tmp.1" =
    "  %tmp.2 = getelementptr [10 x i32], ptr %i8, i32 0, i32 %tmp.1" := by
  decide +kernel

lemma map_untypedLine {typed untyped : List String} (h : IR.RespelledAll typed untyped) :
    typed.map untypedLine = untyped := by
  induction h with
  | nil => rfl
  | cons hline _ ih =>
    obtain ⟨_, hspelled⟩ := hline
    rw [List.map_cons, untypedLine_of_respelled hspelled, ih]

/-- The untyped text of a module from the typed one. -/
lemma mapLines_text {m : IR.Module}
    (h : ∀ g ∈ m.functions, ∀ name ∈ g.mentioned, isIdentifier name = true) :
    Text.mapLines untypedLine (m.text .typed) = m.text .untyped := by
  have hlast : untypedLine "" = "" := by decide
  apply String.ext
  rw [Text.mapLines, IR.Module.lines_text h, List.map_append, map_untypedLine
    (IR.Module.respelledAll h), List.map_singleton, hlast, String.toList_intercalate,
    IR.Module.text, Text.toList_join_lines]
  rfl

/-- **The two pointer styles are one lowering.**  If all names in a program are identifiers, then
with either choice of the final return the two styles fail with the same error, or both give a text.
Then the untyped text is the typed one with two replacements in each line, first of the format and
then of the pointer types that are left. -/
theorem Program.generate_untyped (p : Program)
    (hnames : ∀ name ∈ p.mentioned, isIdentifier name = true) (finalReturn : Bool) :
    (p.generate { pointers := .untyped, finalReturn }).result =
      (p.generate { pointers := .typed, finalReturn }).result.map (Text.mapLines untypedLine) := by
  have hgenerate (style : PointerStyle) :
      (p.generate { pointers := style, finalReturn }).result =
        (p.lower finalReturn).result.map fun lowered => lowered.1.text style := by
    rw [Program.generate, Logged.result_bind]
    cases (p.lower finalReturn).result <;> rfl
  rw [hgenerate, hgenerate]
  cases hlower : (p.lower finalReturn).result with
  | error e => rfl
  | ok lowered =>
    have hidentifiers := Program.isIdentifier_of_lower hnames hlower
    exact congrArg Except.ok (mapLines_text hidentifiers).symm

/-- A tree that reads, stores and prints, with variables that have the names of types. -/
def typeNames : Program where
  declarations := some [.vars [.scalar "i8", .array "ptr" 10]]
  body :=
    [.read "i8" (some (.var "i8" .int)),
     .assign (.element "ptr" (.integer 2 (some .int)) (some (.array "ptr" .int 10)))
       (.var "i8" (some (.var "i8" .int)) (some .int)) none none,
     .print (.element "ptr" (.integer 2 (some .int)) (some (.array "ptr" .int 10)) (some .int))]

/-- Names that look like types stay as they are. -/
theorem Program.generate_untyped_typeNames :
    (∀ name ∈ typeNames.mentioned, isIdentifier name = true) ∧
      ∃ text, (typeNames.generate { pointers := .typed, finalReturn := true }).result = .ok text ∧
        (typeNames.generate { pointers := .untyped, finalReturn := true }).result =
          .ok (Text.mapLines untypedLine text) := by
  have hnames : ∀ name ∈ typeNames.mentioned, isIdentifier name = true := by decide
  have hgenerates : (typeNames.generate { pointers := .typed
                                          finalReturn := true }).result.toOption.isSome := by
    decide +kernel
  obtain ⟨text, hsome⟩ := Option.isSome_iff_exists.1 hgenerates
  have htext := eq_ok_of_toOption_eq_some hsome
  have huntyped := Program.generate_untyped typeNames hnames true
  rw [htext] at huntyped
  exact ⟨hnames, text, htext, huntyped⟩

end DLang
