import DLang.Proofs.Compilation.Stages
import DLang.Proofs.Grammar.Relining
import DLang.Proofs.Lexing.Layout

/-!
# Source texts written anew from their tokens

`respaced source` is the text made of the tokens of a source text with one space between any two of
them.  All that is lost is the layout: comments, illegal characters, and the lines of the tokens,
which all stand on the first line now.

A token that is followed by a space or by nothing is read as itself, whatever stood next to it in
the source: a space continues no word, no number and no symbol.  In particular the slash and the
star of a comment that was never closed stay two tokens, and an equals sign that followed a sign
over a comment does not run together with it.  So lexing finds the same tokens again
(`tokens_scan_respaced`), and since no stage after lexing looks at anything but the tokens, and only
the errors of the parser say on which line they are, compiling gives the same (`scan_respaced`).
-/

namespace DLang

/-! ## Lexing finds the tokens again -/

/-- The tokens of a source text, with one space between any two of them. -/
def respaced (source : String) : String :=
  " ".intercalate ((scan source).tokens.map Token.text)

/-- The segments of tokens with one space between any two of them. -/
def spacedSegments (tokens : List Token) : List Segment :=
  (tokens.map fun token => .token token.kind token.text.toList).intersperse (.blank ' ')

/-- A lexeme fits before a space and at the end. -/
lemma Lexeme.Proper.fits_before_space {l : Lexeme} {after : List Char} (h : l.Proper)
    (hafter : ∀ d ∈ after.head?, d = ' ') : (Segment.token l.kind l.text.toList).Fits after := by
  refine h.fits ?_ ?_
  · rintro c _ d hd ⟨_, hword⟩
    rw [hafter d hd] at hword
    exact absurd hword (by decide)
  · intro _ d hd
    rw [hafter d hd]
    decide

lemma isSegmentation_spacedSegments {tokens : List Token}
    (h : ∀ token ∈ tokens, token.lexeme.Proper) :
    IsSegmentation (spacedSegments tokens)
      (List.intercalate [' '] (tokens.map fun token => token.text.toList)) := by
  induction tokens with
  | nil => exact isSegmentation_nil
  | cons token rest ih =>
    obtain ⟨htoken, hrest⟩ := List.forall_mem_cons.1 h
    cases rest with
    | nil =>
      refine isSegmentation_cons_iff.2 ⟨[], ?_, ?_, isSegmentation_nil⟩
      · simp [Segment.text]
      · exact htoken.fits_before_space (by simp)
    | cons next rest =>
      have hblank : (Segment.blank ' ').Fits
          (List.intercalate [' '] ((next :: rest).map fun token => token.text.toList)) :=
        .blank (.inl rfl)
      rw [List.map_cons, List.map_cons, List.intercalate_cons_cons, List.append_assoc]
      refine isSegmentation_cons_iff.2 ⟨_, rfl, ?_, isSegmentation_cons_iff.2 ⟨_, rfl, hblank, ?_⟩⟩
      · exact htoken.fits_before_space (by simp)
      · exact ih hrest

lemma segments_respaced (source : String) :
    segments (respaced source).toList = spacedSegments (scan source).tokens := by
  have hproper : ∀ token ∈ (scan source).tokens, token.lexeme.Proper :=
    fun _ htoken => proper_of_mem_scan htoken
  rw [respaced, String.toList_intercalate, List.map_map]
  exact (isSegmentation_spacedSegments hproper).eq_segments.symm

/-- No token goes over the end of a line. -/
lemma Lexeme.Proper.count_lineFeed {l : Lexeme} (h : l.Proper) : l.text.toList.count '\n' = 0 := by
  rw [List.count_eq_zero]
  intro hmem
  cases h with
  | number _ hdigits => exact absurd (hdigits _ hmem) (by decide)
  | @name text hword _ =>
    generalize text.toList = word at hmem hword
    obtain ⟨hlower, hrest⟩ := hword
    rcases List.mem_cons.1 hmem with rfl | hmem
    · exact absurd hlower (by decide)
    · exact absurd (hrest _ hmem) (by decide)
  | @spelled kind text hspelling =>
    cases kind <;> simp only [Kind.spelling?, Option.some.injEq, reduceCtorEq] at hspelling <;>
      subst hspelling <;> exact absurd hmem (by decide)

/-- Tokens with spaces between them are all found on the line on which the first one starts. -/
lemma Scan.tokens_ofSegments_spacedSegments {tokens : List Token}
    (h : ∀ token ∈ tokens, token.lexeme.Proper) (line : Nat) :
    (ofSegments line (spacedSegments tokens)).tokens = tokens.map (Token.onLine line) := by
  have hsegment (token : Token) (found : List Segment) (hproper : token.lexeme.Proper) :
      (ofSegments line (.token token.kind token.text.toList :: found)).tokens =
        token.onLine line :: (ofSegments line found).tokens := by
    have hcount : token.text.toList.count '\n' = 0 := hproper.count_lineFeed
    simp [ofSegments, Segment.text, hcount, Token.onLine]
  induction tokens with
  | nil => rfl
  | cons token rest ih =>
    obtain ⟨htoken, hrest⟩ := List.forall_mem_cons.1 h
    cases rest with
    | nil => exact hsegment token [] htoken
    | cons next rest =>
      calc (ofSegments line (spacedSegments (token :: next :: rest))).tokens
        _ = token.onLine line ::
            (ofSegments line (.blank ' ' :: spacedSegments (next :: rest))).tokens :=
          hsegment token _ htoken
        _ = token.onLine line :: (ofSegments line (spacedSegments (next :: rest))).tokens := rfl
        _ = (token :: next :: rest).map (Token.onLine line) := by rw [ih hrest, ← List.map_cons]

lemma tokens_scan_respaced (source : String) :
    (scan (respaced source)).tokens = (scan source).tokens.map (Token.onLine 1) := by
  rw [scan, segments_respaced]
  exact Scan.tokens_ofSegments_spacedSegments (fun _ htoken => proper_of_mem_scan htoken) 1

lemma illegal_notMem_spacedSegments (c : Char) (tokens : List Token) :
    .illegal c ∉ spacedSegments tokens := by
  induction tokens with
  | nil => simp [spacedSegments]
  | cons token rest ih =>
    cases rest with
    | nil => simp [spacedSegments]
    | cons next rest => simpa [spacedSegments] using ih

lemma illegals_scan_respaced (source : String) : (scan (respaced source)).illegals = [] := by
  rw [scan, segments_respaced]
  exact Scan.illegals_ofSegments (fun c => illegal_notMem_spacedSegments c _) 1

/-! ## Compiling gives the same -/

/-- The error on a given line, if it is about one: only the errors of the parser are. -/
def CompileError.onLine (line : Nat) : CompileError → CompileError
  | parse error => parse (error.onLine line)
  | semantic error => semantic error
  | lowering error => lowering error

/-- From the tree on, nothing that is reported is about a line. -/
lemma Program.mapError_onLine_compile (options : Options) (p : Program) (line : Nat) :
    (p.compile options).mapError (CompileError.onLine line) = p.compile options := by
  rw [Program.compile]
  cases p.analyze.result with
  | error e => rfl
  | ok annotated =>
    show ((annotated.generate options).result.mapError _).mapError _ =
      (annotated.generate options).result.mapError _
    cases (annotated.generate options).result <;> rfl

/-- What a source text is compiled to depends on the lines of its tokens only in the errors of the
parser. -/
lemma compileSource_of_tokens_onLine {source source' : String} {line : Nat}
    (h : (scan source').tokens = (scan source).tokens.map (Token.onLine line))
    (options : Options) :
    (compileSource options source').result =
      (compileSource options source).result.mapError (CompileError.onLine line) := by
  rw [result_compileSource, result_compileSource, result_parseSource, result_parseSource, h,
    result_parse_onLine]
  cases (parse (scan source).tokens).result with
  | error e => rfl
  | ok p => exact (p.mapError_onLine_compile options line).symm

/-- **Lexing again what was lexed changes nothing.**  From the tokens of a source text with single
spaces between them, lexing finds the same kinds and texts, all on the first line, and reports
nothing; and under all options that text compiles to the same module, or fails with the same error
but for its line. -/
theorem scan_respaced (source : String) :
    (scan (respaced source)).tokens = (scan source).tokens.map (Token.onLine 1) ∧
      (scan (respaced source)).illegals = [] ∧
      ∀ options, (compileSource options (respaced source)).result =
        (compileSource options source).result.mapError (CompileError.onLine 1) :=
  ⟨tokens_scan_respaced source, illegals_scan_respaced source,
    compileSource_of_tokens_onLine (tokens_scan_respaced source)⟩

/-- Signs that touch only over a comment stay apart, and so do the two of an open comment. -/
example : respaced "x<</**/=\n2@3if /*" = "x < < = 2 3 if / *" := by
  decide +kernel

end DLang
