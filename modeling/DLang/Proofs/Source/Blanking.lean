import DLang.Proofs.Compilation.Stages
import DLang.Proofs.Lexing.Layout
import Mathlib.Data.List.Forall2

/-!
# Comments and illegal characters are blanks

`blanked source` is a source text with its closed comments and its illegal characters blanked out:
each of their characters is replaced by a space, but line feeds stay where they are.  This file
shows that nothing but the reports of illegal characters is lost by this.

The segmentation of the new text is that of the old one with blanks in the place of every comment
and of every illegal character.  To see that the other segments fit where they stand, it is enough
to know that each character of the new text is a space or the old one (`Masked`): a space continues
no word and no number, it is not the second character of a comparison, and it is no part of what
opens or closes a comment.  So whatever a token could run together with in the new text, it could
have run together with in the old one (`Segment.Fits.of_masked`).
-/

namespace DLang

/-! ## Blanking out -/

/-- What replaces a character that is blanked out. -/
def blankFor (c : Char) : Char :=
  if c = '\n' then '\n' else ' '

/-- The text of a segment after blanking. -/
def Segment.blankedText : Segment → List Char
  | .comment body => (Segment.comment body).text.map blankFor
  | .illegal _ => [' ']
  | .blank c => [c]
  | .token _ text => text

/-- A source text with its comments and its illegal characters blanked out. -/
def blanked (source : String) : String :=
  String.ofList ((segments source.toList).flatMap Segment.blankedText)

/-- The segments into which the text of a segment is cut after blanking. -/
def Segment.blankedSegments : Segment → List Segment
  | .comment body => ((Segment.comment body).text.map blankFor).map .blank
  | .illegal _ => [.blank ' ']
  | .blank c => [.blank c]
  | .token kind text => [.token kind text]

lemma isBlank_blankFor (c : Char) : Segment.isBlank (blankFor c) = true := by
  unfold blankFor
  split <;> rfl

lemma count_map_blankFor (text : List Char) :
    (text.map blankFor).count '\n' = text.count '\n' := by
  induction text with
  | nil => rfl
  | cons c rest ih =>
    have hc : blankFor c = '\n' ↔ c = '\n' := by
      by_cases hc : c = '\n' <;> simp [blankFor, hc]
    simp only [List.map_cons, List.count_cons, ih, beq_iff_eq, hc]

/-! ## Masked texts -/

/-- The second text is the first one with some of its characters replaced by spaces. -/
def Masked (text masked : List Char) : Prop :=
  List.Forall₂ (fun c d => d = c ∨ d = ' ') text masked

namespace Masked

variable {text masked : List Char}

lemma refl (text : List Char) : Masked text text :=
  List.forall₂_same.2 fun _ _ => .inl rfl

lemma append {text' masked' : List Char} (h : Masked text masked) (h' : Masked text' masked') :
    Masked (text ++ text') (masked ++ masked') :=
  List.rel_append h h'

lemma map_blankFor (text : List Char) : Masked text (text.map blankFor) := by
  rw [Masked, List.forall₂_map_right_iff, List.forall₂_same]
  intro c _
  by_cases hc : c = '\n'
  · exact .inl (by rw [blankFor, if_pos hc, hc])
  · exact .inr (if_neg hc)

/-- A character that is not a space stands in the masked text only where it stood before. -/
lemma exists_of_cons {d : Char} (h : Masked text (d :: masked)) (hd : d ≠ ' ') :
    ∃ rest, text = d :: rest ∧ Masked rest masked := by
  obtain ⟨c, rest, hc, hrest, rfl⟩ := List.forall₂_cons_right_iff.1 h
  obtain rfl : d = c := hc.resolve_right hd
  exact ⟨rest, rfl, hrest⟩

lemma exists_of_append {left right : List Char} (h : Masked text (left ++ right)) :
    ∃ left' right', text = left' ++ right' ∧ Masked right' right :=
  ⟨text.take left.length, text.drop left.length, (List.take_append_drop _ _).symm,
    List.forall₂_drop_append text left right h⟩

lemma head? (h : Masked text masked) {d : Char} (hd : d ∈ masked.head?) :
    d = ' ' ∨ d ∈ text.head? := by
  obtain ⟨rest, rfl⟩ := List.head?_eq_some_iff.1 hd
  by_cases hspace : d = ' '
  · exact .inl hspace
  · obtain ⟨rest', rfl, _⟩ := h.exists_of_cons hspace
    exact .inr rfl

/-- The star and the slash of the end may stand anywhere, but both stood there before. -/
lemma closesComment (h : Masked text masked) (hcloses : Segment.ClosesComment masked) :
    Segment.ClosesComment text := by
  obtain ⟨body, rest, rfl⟩ := hcloses
  obtain ⟨tail, rfl, htail⟩ := h.exists_of_cons (by decide)
  obtain ⟨body', ending, rfl, hending⟩ := htail.exists_of_append
  obtain ⟨afterStar, rfl, hafterStar⟩ := hending.exists_of_cons (by decide)
  obtain ⟨rest', rfl, _⟩ := hafterStar.exists_of_cons (by decide)
  exact ⟨body', rest', rfl⟩

end Masked

lemma Segment.masked_blankedText (segment : Segment) :
    Masked segment.text segment.blankedText := by
  cases segment with
  | comment body => exact Masked.map_blankFor _
  | illegal c => exact .cons (.inr rfl) .nil
  | blank c => exact Masked.refl _
  | token kind text => exact Masked.refl _

lemma masked_flatMap_blankedText (found : List Segment) :
    Masked (found.flatMap Segment.text) (found.flatMap Segment.blankedText) := by
  induction found with
  | nil => exact .nil
  | cons segment rest ih => exact segment.masked_blankedText.append ih

/-! ## The segmentation after blanking -/

/-- A token still fits where what follows it is masked: a space continues nothing. -/
lemma Segment.Fits.of_masked {kind : Kind} {text after masked : List Char}
    (h : (Segment.token kind text).Fits after) (hmasked : Masked after masked) :
    (Segment.token kind text).Fits masked := by
  refine h.of_head (fun d hd => ?_) fun _ => hmasked.closesComment
  rcases hmasked.head? hd with rfl | hd'
  · exact .inr (by decide)
  · exact .inl hd'

lemma isSegmentation_blanks_append {blanks : List Char}
    (hblanks : ∀ c ∈ blanks, Segment.isBlank c = true) {found : List Segment} {source : List Char}
    (h : IsSegmentation found source) :
    IsSegmentation (blanks.map .blank ++ found) (blanks ++ source) := by
  induction blanks with
  | nil => exact h
  | cons c rest ih =>
    obtain ⟨hc, hrest⟩ := List.forall_mem_cons.1 hblanks
    exact isSegmentation_cons_iff.2
      ⟨rest ++ source, rfl, .blank (Segment.isBlank_iff.1 hc), ih hrest⟩

/-- If the segments before blanking are a segmentation, then so are those after it. -/
lemma IsSegmentation.blanked {found : List Segment} {source : List Char}
    (h : IsSegmentation found source) :
    IsSegmentation (found.flatMap Segment.blankedSegments)
      (found.flatMap Segment.blankedText) := by
  induction found generalizing source with
  | nil => exact isSegmentation_nil
  | cons segment rest ih =>
    obtain ⟨after, rfl, hfits, hrest⟩ := isSegmentation_cons_iff.1 h
    have hmasked : Masked after (rest.flatMap Segment.blankedText) := by
      rw [← hrest.joined]
      exact masked_flatMap_blankedText rest
    have hih := ih hrest
    rw [List.flatMap_cons, List.flatMap_cons]
    cases segment with
    | comment body =>
      refine isSegmentation_blanks_append ?_ hih
      intro c hc
      obtain ⟨c', _, rfl⟩ := List.mem_map.1 hc
      exact isBlank_blankFor c'
    | illegal c =>
      have hspace : ∀ c ∈ [' '], Segment.isBlank c = true := List.forall_mem_singleton.2 rfl
      exact isSegmentation_blanks_append hspace hih
    | blank c =>
      have hblank : (Segment.blank c).Fits (rest.flatMap Segment.blankedText) := by
        cases hfits with
        | blank hc => exact .blank hc
      exact isSegmentation_cons_iff.2 ⟨_, rfl, hblank, hih⟩
    | token kind text => exact isSegmentation_cons_iff.2 ⟨_, rfl, hfits.of_masked hmasked, hih⟩

lemma segments_blanked (source : String) :
    segments (blanked source).toList =
      (segments source.toList).flatMap Segment.blankedSegments := by
  rw [DLang.blanked, String.toList_ofList]
  exact (isSegmentation_segments source.toList).blanked.eq_segments.symm

/-! ## What lexing and compiling give -/

lemma Scan.tokens_ofSegments_blanks_append (blanks : List Char) (found : List Segment)
    (line : Nat) :
    (ofSegments line (blanks.map .blank ++ found)).tokens =
      (ofSegments (line + blanks.count '\n') found).tokens := by
  induction blanks generalizing line with
  | nil => rfl
  | cons c rest ih =>
    have hcount : line + [c].count '\n' + rest.count '\n' = line + (c :: rest).count '\n' := by
      rw [Nat.add_assoc, ← List.count_append, List.singleton_append]
    rw [← hcount, ← ih]
    rfl

lemma IsSegmentation.illegal_lineFeed_notMem {found : List Segment} {source : List Char}
    (h : IsSegmentation found source) : .illegal '\n' ∉ found := by
  intro hmem
  obtain ⟨before, after, hsplit⟩ := List.append_of_mem hmem
  cases h.fits before _ after hsplit with
  | illegal hblank => exact hblank (by decide)

/-- The tokens stay on their lines: the line feeds of comments stay, and none is illegal. -/
lemma Scan.tokens_ofSegments_blanked {found : List Segment} (h : .illegal '\n' ∉ found)
    (line : Nat) :
    (ofSegments line (found.flatMap Segment.blankedSegments)).tokens =
      (ofSegments line found).tokens := by
  induction found generalizing line with
  | nil => rfl
  | cons segment rest ih =>
    obtain ⟨hsegment, hrest⟩ := not_or.1 (mt List.mem_cons.2 h)
    replace ih := ih hrest
    rw [List.flatMap_cons]
    cases segment with
    | comment body =>
      rw [Segment.blankedSegments, tokens_ofSegments_blanks_append, count_map_blankFor, ih]
      rfl
    | illegal c =>
      have hcount : [c].count '\n' = 0 := by
        rw [List.count_eq_zero, List.mem_singleton]
        rintro rfl
        exact hsegment rfl
      calc (ofSegments line (.blank ' ' :: rest.flatMap Segment.blankedSegments)).tokens
        _ = (ofSegments line rest).tokens := ih line
        _ = (ofSegments (line + [c].count '\n') rest).tokens := by rw [hcount, Nat.add_zero]
    | blank c => exact ih _
    | token kind text => exact congrArg (⟨kind, String.ofList text, line⟩ :: ·) (ih _)

lemma Segment.illegal_notMem_blankedSegments (c : Char) (segment : Segment) :
    .illegal c ∉ segment.blankedSegments := by
  cases segment <;> simp [blankedSegments]

/-- **Comments and illegal characters are exactly blanks.**  From a source text whose comments and
illegal characters are blanked out, lexing finds the same tokens, on the same lines, and reports
nothing; and under all options it compiles to the same module or fails with the same error. -/
theorem blanked_indistinguishable (source : String) :
    (scan (blanked source)).tokens = (scan source).tokens ∧
      (scan (blanked source)).illegals = [] ∧
      ∀ options, (compileSource options (blanked source)).result =
        (compileSource options source).result := by
  have htokens : (scan (blanked source)).tokens = (scan source).tokens := by
    rw [scan, segments_blanked, scan]
    exact Scan.tokens_ofSegments_blanked
      (isSegmentation_segments source.toList).illegal_lineFeed_notMem 1
  refine ⟨htokens, ?_, compileSource_of_tokens_eq htokens⟩
  rw [scan, segments_blanked]
  refine Scan.illegals_ofSegments (fun c hc => ?_) 1
  obtain ⟨segment, _, hmem⟩ := List.mem_flatMap.1 hc
  exact segment.illegal_notMem_blankedSegments c hmem

/-- The equals sign and the star that follow a comment do not run together with the signs before it,
and a comment that is not closed stays. -/
example : blanked "x</* a\n */=!/@/**/* /* b" = "x<    \n   = /     * /* b" := by
  decide +kernel

end DLang
