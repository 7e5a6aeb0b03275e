import DLang.Proofs.Lexing.Numerals
import DLang.Proofs.Lexing.Segmentation
import DLang.Text.Blank

/-!
# White space at the end of a source text

White space at the end of a text holds no tokens, and it changes none before it: a character of
white space continues no word and no number, it is not the second character of a comparison, and no
comment ends with it.  So a source text has the same tokens, on the same lines, with and without
the white space at its end (`tokens_scan_trimEnd`).

The set of characters with the property `White_Space` is larger than that of the blanks, and the
others among them are illegal where they stand.  The reports of illegal characters are what
trimming loses.
-/

namespace DLang

namespace Text

/-- White space stands below the digits or above the lowercase letters. -/
lemma toNat_of_isWhiteSpace {c : Char} (h : isWhiteSpace c = true) :
    c.toNat < 48 ∨ 122 < c.toNat := by
  simp only [isWhiteSpace, inRanges, whiteSpaceRanges, List.any_cons, List.any_nil, Bool.or_eq_true,
    Bool.and_eq_true, decide_eq_true_eq, Bool.false_eq_true, or_false] at h
  omega

lemma not_isDigit_of_isWhiteSpace {c : Char} (h : isWhiteSpace c = true) : ¬ c.isDigit = true := by
  intro hdigit
  have hbounds := toNat_bounds_of_isDigit hdigit
  have houtside := toNat_of_isWhiteSpace h
  omega

lemma not_isLower_of_isWhiteSpace {c : Char} (h : isWhiteSpace c = true) : ¬ c.isLower = true := by
  intro hlower
  have hrange : (decide (97 ≤ c.val) && decide (c.val ≤ 122)) = true := hlower
  simp only [UInt32.le_iff_toNat_le, Bool.and_eq_true, decide_eq_true_eq] at hrange
  have hbounds : 97 ≤ c.toNat ∧ c.toNat ≤ 122 := hrange
  have houtside := toNat_of_isWhiteSpace h
  omega

/-- A text is its trimmed form followed by white space. -/
lemma exists_toList_eq_trimEnd_append (text : String) :
    ∃ white, text.toList = (trimEnd text).toList ++ white ∧ ∀ c ∈ white, isWhiteSpace c = true := by
  refine ⟨(text.toList.reverse.takeWhile isWhiteSpace).reverse, ?_, ?_⟩
  · rw [trimEnd, String.toList_ofList, ← List.reverse_append, List.takeWhile_append_dropWhile,
      List.reverse_reverse]
  · intro c hc
    exact List.all_eq_true.1 List.all_takeWhile c (List.mem_reverse.1 hc)

end Text

namespace Segment

variable {c : Char} {after white : List Char}

/-- No symbol begins with white space. -/
lemma not_spells_of_isWhiteSpace {kind : Kind} (hc : Text.isWhiteSpace c = true) :
    ¬ (Spells [c] kind ∨ Spells [c, '='] kind) := by
  intro h
  cases kind <;> simp [Spells, Kind.spelling?, String.ext_iff] at h <;> subst h <;>
    exact absurd hc (by decide)

/-- The end of a comment does not reach into white space. -/
lemma ClosesComment.of_append (hwhite : ∀ d ∈ white, Text.isWhiteSpace d = true)
    (h : ClosesComment (after ++ white)) : ClosesComment after := by
  obtain ⟨body, rest, heq⟩ := h
  have hslash : '/' ∉ white := fun hmem => absurd (hwhite '/' hmem) (by decide)
  have hsplit : '*' :: body ++ ['*'] ++ ['/'] ++ rest = after ++ white := by simpa using heq.symm
  rcases List.append_eq_append_iff.1 hsplit with ⟨between, hafter, _⟩ | ⟨between, hend, hwhite'⟩
  · exact ⟨body, between, by simp [hafter]⟩
  · -- What of the comment would stand in the white space ends with the slash, or is nothing.
    rcases List.eq_nil_or_concat between with rfl | ⟨init, last, rfl⟩
    · exact ⟨body, [], by simpa using hend.symm⟩
    · rw [List.concat_eq_append, ← List.append_assoc] at hend
      have hlast : last = '/' := (List.head_eq_of_cons_eq (List.append_inj' hend rfl).2).symm
      exact absurd (by simp [hwhite', hlast]) hslash

/-- White space at the end of the text does not change what fits before. -/
lemma Fits.append_white {segment : Segment} (h : segment.Fits after)
    (hwhite : ∀ d ∈ white, Text.isWhiteSpace d = true) : segment.Fits (after ++ white) := by
  refine h.of_head (fun d hd => ?_) fun _ hcloses => hcloses.of_append hwhite
  cases after with
  | cons d' after => exact .inl hd
  | nil =>
    have hd' := hwhite d (List.mem_of_mem_head? hd)
    refine .inr ⟨?_, ?_⟩
    · rw [Bool.eq_false_iff, ne_eq, isWordChar_iff, not_or]
      exact ⟨Text.not_isLower_of_isWhiteSpace hd', Text.not_isDigit_of_isWhiteSpace hd'⟩
    · rintro rfl
      exact absurd hd' (by decide)

/-- The segment that a character of white space is. -/
def ofWhite (c : Char) : Segment :=
  if isBlank c then .blank c else .illegal c

lemma ofWhite_cases (c : Char) : ofWhite c = .blank c ∨ ofWhite c = .illegal c := by
  unfold ofWhite
  split
  · exact .inl rfl
  · exact .inr rfl

lemma text_ofWhite (c : Char) : (ofWhite c).text = [c] := by
  rcases ofWhite_cases c with hc | hc <;> rw [hc] <;> rfl

lemma fits_ofWhite (hc : Text.isWhiteSpace c = true) (after : List Char) :
    (ofWhite c).Fits after := by
  unfold ofWhite
  split
  · rename_i hblank
    exact .blank (isBlank_iff.1 hblank)
  · rename_i hblank
    refine .illegal (fun h => hblank (isBlank_iff.2 h)) (Text.not_isDigit_of_isWhiteSpace hc)
      (Text.not_isLower_of_isWhiteSpace hc) ?_ ?_
    · exact fun kind h => not_spells_of_isWhiteSpace hc (.inl h)
    · rintro ⟨kind, _, _, h⟩
      exact not_spells_of_isWhiteSpace hc (.inr h)

end Segment

/-- White space at the end of a text is cut into its characters. -/
lemma IsSegmentation.append_white {found : List Segment} {source white : List Char}
    (h : IsSegmentation found source) (hwhite : ∀ c ∈ white, Text.isWhiteSpace c = true) :
    IsSegmentation (found ++ white.map Segment.ofWhite) (source ++ white) := by
  induction found generalizing source with
  | nil =>
    obtain rfl : [] = source := h.joined
    clear h
    induction white with
    | nil => exact isSegmentation_nil
    | cons c white ih =>
      obtain ⟨hc, hrest⟩ := List.forall_mem_cons.1 hwhite
      refine isSegmentation_cons_iff.2 ⟨white, ?_, Segment.fits_ofWhite hc white, ih hrest⟩
      rw [Segment.text_ofWhite]
      rfl
  | cons segment found ih =>
    obtain ⟨after, rfl, hfits, hfound⟩ := isSegmentation_cons_iff.1 h
    exact isSegmentation_cons_iff.2
      ⟨after ++ white, List.append_assoc _ _ _, hfits.append_white hwhite, ih hfound⟩

lemma Scan.tokens_ofSegments_append_white (line : Nat) (found : List Segment) (white : List Char) :
    (ofSegments line (found ++ white.map Segment.ofWhite)).tokens =
      (ofSegments line found).tokens := by
  induction found generalizing line with
  | nil =>
    induction white generalizing line with
    | nil => rfl
    | cons c white ih =>
      rw [List.nil_append, List.map_cons]
      rcases Segment.ofWhite_cases c with hc | hc
      · rw [hc]
        exact ih _
      · rw [hc]
        exact ih _
  | cons segment found ih =>
    cases segment with
    | token kind text => exact congrArg (⟨kind, String.ofList text, line⟩ :: ·) (ih _)
    | _ => exact ih _

/-- A source text has the same tokens without the white space at its end. -/
lemma tokens_scan_trimEnd (source : String) :
    (scan (Text.trimEnd source)).tokens = (scan source).tokens := by
  obtain ⟨white, hsource, hwhite⟩ := Text.exists_toList_eq_trimEnd_append source
  have hsegments : segments source.toList =
      segments (Text.trimEnd source).toList ++ white.map Segment.ofWhite := by
    have hwhole := (isSegmentation_segments (Text.trimEnd source).toList).append_white hwhite
    rw [← hsource] at hwhole
    exact hwhole.eq_segments.symm
  rw [scan, scan, hsegments, Scan.tokens_ofSegments_append_white]

end DLang
