import DLang.Token.Segment

/-!
# Lexing

`scan` reads a source text into tokens.  It never fails: an illegal character is reported and
skipped.  Tokens and reports carry the line on which they start, one more than the number of line
feeds before them, those inside comments included.
-/

namespace DLang

/-- What lexing finds in a source text. -/
structure Scan where
  tokens : List Token
  illegals : List IllegalCharacter
  /-- The number of the last line. -/
  lines : Nat
  deriving DecidableEq, Repr

namespace Scan

/-- Collects the tokens and the illegal characters of a list of segments whose first one starts on
line `line`. -/
def ofSegments (line : Nat) : List Segment → Scan
  | [] => { tokens := [], illegals := [], lines := line }
  | segment :: rest =>
    let scan := ofSegments (line + segment.text.count '\n') rest
    match segment with
    | .token kind text => { scan with tokens := ⟨kind, String.ofList text, line⟩ :: scan.tokens }
    | .illegal c => { scan with illegals := ⟨c, line⟩ :: scan.illegals }
    | .blank _ | .comment _ => scan

/-- The last line is reached by counting the line feeds of all segments. -/
theorem lines_ofSegments (line : Nat) (found : List Segment) :
    (ofSegments line found).lines = line + (found.flatMap Segment.text).count '\n' := by
  induction found generalizing line with
  | nil => rfl
  | cons segment rest ih =>
    rw [List.flatMap_cons, List.count_append, ← Nat.add_assoc, ← ih]
    cases segment <;> rfl

end Scan

/-- The tokens and the illegal characters of a source text. -/
def scan (source : String) : Scan :=
  Scan.ofSegments 1 (segments source.toList)

/-- A text has one line more than line feeds. -/
theorem lines_scan (source : String) :
    (scan source).lines = 1 + source.toList.count '\n' := by
  rw [scan, Scan.lines_ofSegments, flatMap_text_segments]

end DLang
