import DLang.Proofs.Lexing.Segmentation

/-!
# Lexing line by line

A text is lexed by lexing the part before a line feed and the part after it.  Most of what lexing
looks at ends before a line feed: the line feed continues no word and no number, and it is not the
second character of a comparison.  Only the search for the end of a comment goes past it.  If the
first part opens a comment and does not close it, then the second part may close it, and what was
read as a slash and a star becomes part of a comment.

`OpenersClosed` excludes exactly this.  It speaks of the places where lexing stands, since what
looks like an opener inside a comment opens nothing.  Then the segments of the whole are those of
the first part, the line feed and those of the second part (`segments_append_lineFeed`), and the
tokens and illegal characters of the second part stand lower by the lines of the first
(`scan_append_line`).
-/

namespace DLang

/-! ## Comments that are closed -/

/-- Wherever a segment starts at `/*`, it is a comment: no opener is left unclosed. -/
def OpenersClosed (found : List Segment) : Prop :=
  ∀ before segment after, found = before ++ segment :: after →
    ['/', '*'] <+: (segment :: after).flatMap Segment.text → ∃ body, segment = .comment body

lemma openersClosed_nil : OpenersClosed [] := by
  intro before segment after h
  simp at h

lemma openersClosed_cons_iff {segment : Segment} {found : List Segment} :
    OpenersClosed (segment :: found) ↔
      (['/', '*'] <+: (segment :: found).flatMap Segment.text → ∃ body, segment = .comment body) ∧
        OpenersClosed found := by
  constructor
  · intro h
    refine ⟨h [] segment found rfl, ?_⟩
    intro before segment' after hsplit
    exact h (segment :: before) segment' after (by rw [hsplit, List.cons_append])
  · rintro ⟨hfirst, hrest⟩ before segment' after hsplit
    cases before with
    | nil =>
      obtain ⟨rfl, rfl⟩ := List.cons.inj hsplit
      exact hfirst
    | cons _ before => exact hrest before segment' after (List.cons.inj hsplit).2

instance Segment.decidableComment (segment : Segment) :
    Decidable (∃ body, segment = .comment body) :=
  match segment with
  | .comment body => isTrue ⟨body, rfl⟩
  | .blank _ | .token _ _ | .illegal _ => isFalse fun ⟨_, h⟩ => by cases h

instance decidableOpenersClosed : (found : List Segment) → Decidable (OpenersClosed found)
  | [] => isTrue openersClosed_nil
  | _ :: found =>
    have := decidableOpenersClosed found
    decidable_of_iff' _ openersClosed_cons_iff

/-! ## The segments of two parts -/

namespace Segment

/-- What fits at the end of a part fits before a line feed, unless it is the slash of an opener. -/
lemma Fits.append_lineFeed {segment : Segment} {after : List Char} (h : segment.Fits after)
    (hopen : ['/', '*'] <+: segment.text ++ after → ∃ body, segment = .comment body)
    (rest : List Char) : segment.Fits (after ++ '\n' :: rest) := by
  refine h.of_head (fun d hd => ?_) ?_
  · cases after with
    | nil =>
      obtain rfl := Option.some.inj hd
      exact .inr (by decide)
    | cons d' after => exact .inl hd
  · rintro rfl ⟨body, tail, hstar⟩
    cases after with
    | nil => exact absurd (List.cons.inj hstar).1 (by decide)
    | cons d after =>
      obtain rfl : d = '*' := (List.cons.inj hstar).1
      obtain ⟨body', hcomment⟩ := hopen (List.prefix_append ['/', '*'] after)
      cases hcomment

end Segment

/-- Two segmentations are joined by the line feed between their texts. -/
lemma IsSegmentation.append_lineFeed {found found' : List Segment} {a b : List Char}
    (ha : IsSegmentation found a) (hclosed : OpenersClosed found) (hb : IsSegmentation found' b) :
    IsSegmentation (found ++ .blank '\n' :: found') (a ++ '\n' :: b) := by
  induction found generalizing a with
  | nil =>
    obtain rfl : [] = a := ha.joined
    exact isSegmentation_cons_iff.2 ⟨b, rfl, .blank (by simp), hb⟩
  | cons segment found ih =>
    obtain ⟨after, rfl, hfits, hfound⟩ := isSegmentation_cons_iff.1 ha
    obtain ⟨hopen, hrest⟩ := openersClosed_cons_iff.1 hclosed
    rw [List.flatMap_cons, hfound.joined] at hopen
    exact isSegmentation_cons_iff.2
      ⟨after ++ '\n' :: b, List.append_assoc _ _ _, hfits.append_lineFeed hopen b, ih hfound hrest⟩

/-- The segments of a text with a line feed in it are those of its two parts. -/
lemma segments_append_lineFeed {a : List Char} (h : OpenersClosed (segments a)) (b : List Char) :
    segments (a ++ '\n' :: b) = segments a ++ .blank '\n' :: segments b :=
  ((isSegmentation_segments a).append_lineFeed h (isSegmentation_segments b)).eq_segments.symm

/-! ## Lines -/

/-- The token a number of lines further down. -/
def Token.lower (lines : Nat) (token : Token) : Token :=
  { token with line := token.line + lines }

/-- The illegal character a number of lines further down. -/
def IllegalCharacter.lower (lines : Nat) (illegal : IllegalCharacter) : IllegalCharacter :=
  { illegal with line := illegal.line + lines }

namespace Scan

/-- Segments that start further down are found further down. -/
lemma ofSegments_add (line lines : Nat) (found : List Segment) :
    (ofSegments (line + lines) found).tokens =
        (ofSegments line found).tokens.map (Token.lower lines) ∧
      (ofSegments (line + lines) found).illegals =
        (ofSegments line found).illegals.map (IllegalCharacter.lower lines) := by
  induction found generalizing line with
  | nil => exact ⟨rfl, rfl⟩
  | cons segment rest ih =>
    obtain ⟨htokens, hillegals⟩ := ih (line + segment.text.count '\n')
    rw [Nat.add_right_comm] at htokens hillegals
    cases segment with
    | token kind text => exact ⟨congrArg (List.cons _) htokens, hillegals⟩
    | illegal c => exact ⟨htokens, congrArg (List.cons _) hillegals⟩
    | blank c | comment body => exact ⟨htokens, hillegals⟩

/-- What follows some segments starts below all the line feeds in them. -/
lemma ofSegments_append (line : Nat) (found found' : List Segment) :
    (ofSegments line (found ++ found')).tokens =
        (ofSegments line found).tokens ++
          (ofSegments (line + (found.flatMap Segment.text).count '\n') found').tokens ∧
      (ofSegments line (found ++ found')).illegals =
        (ofSegments line found).illegals ++
          (ofSegments (line + (found.flatMap Segment.text).count '\n') found').illegals := by
  induction found generalizing line with
  | nil => exact ⟨rfl, rfl⟩
  | cons segment rest ih =>
    obtain ⟨htokens, hillegals⟩ := ih (line + segment.text.count '\n')
    rw [List.flatMap_cons, List.count_append, ← Nat.add_assoc]
    cases segment with
    | token kind text => exact ⟨congrArg (List.cons _) htokens, hillegals⟩
    | illegal c => exact ⟨htokens, congrArg (List.cons _) hillegals⟩
    | blank c | comment body => exact ⟨htokens, hillegals⟩

end Scan

/-- **Lexing distributes over lines.**  If lexing the first part of a text meets no comment opener
that is left unclosed, then of both parts with a line feed between them it finds the tokens of the
first part, followed by those of the second, each lower by one line and by the line feeds of the
first part; and likewise for the illegal characters. -/
theorem scan_append_line (a b : String) (h : OpenersClosed (segments a.toList)) :
    (scan (a ++ "\n" ++ b)).tokens =
        (scan a).tokens ++ (scan b).tokens.map (Token.lower (1 + a.toList.count '\n')) ∧
      (scan (a ++ "\n" ++ b)).illegals =
        (scan a).illegals ++
          (scan b).illegals.map (IllegalCharacter.lower (1 + a.toList.count '\n')) := by
  have htext : (a ++ "\n" ++ b).toList = a.toList ++ '\n' :: b.toList := by simp
  obtain ⟨htokens, hillegals⟩ :=
    Scan.ofSegments_append 1 (segments a.toList) (.blank '\n' :: segments b.toList)
  rw [flatMap_text_segments] at htokens hillegals
  -- After the line feed the second part starts on the next line.
  obtain ⟨htokens', hillegals'⟩ :=
    Scan.ofSegments_add 1 (1 + a.toList.count '\n') (segments b.toList)
  rw [Nat.add_comm 1 (1 + _)] at htokens' hillegals'
  rw [scan, htext, segments_append_lineFeed h, htokens, hillegals]
  exact ⟨congrArg (_ ++ ·) htokens', congrArg (_ ++ ·) hillegals'⟩

/-- The second part may leave a comment open, and its equals sign does not run together with the
sign at the end of the first. -/
theorem scan_append_line_signs :
    OpenersClosed (segments "x /* 1\n * / */ $ <".toList) ∧
      (scan ("x /* 1\n * / */ $ <" ++ "\n" ++ "= @ /* 2")).tokens =
        [⟨.identifier, "x", 1⟩, ⟨.less, "<", 2⟩, ⟨.equal, "=", 3⟩, ⟨.slash, "/", 3⟩,
          ⟨.star, "*", 3⟩, ⟨.number, "2", 3⟩] ∧
      (scan ("x /* 1\n * / */ $ <" ++ "\n" ++ "= @ /* 2")).illegals = [⟨'$', 2⟩, ⟨'@', 3⟩] := by
  have hclosed : OpenersClosed (segments "x /* 1\n * / */ $ <".toList) := by decide +kernel
  obtain ⟨htokens, hillegals⟩ := scan_append_line "x /* 1\n * / */ $ <" "= @ /* 2" hclosed
  exact ⟨hclosed, htokens.trans (by decide +kernel), hillegals.trans (by decide +kernel)⟩

/-- A comment that the first part leaves open can be closed by the second. -/
example : (scan "/* 1").tokens.length = 3 ∧ (scan "/* 1\n*/").tokens.length = 0 := by
  decide +kernel

end DLang
