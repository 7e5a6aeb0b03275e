import DLang.Token.Basic

/-!
# Segments of a source text

A source text is read as a sequence of segments: blanks, comments, tokens and illegal characters.
`segments` cuts the whole text, so the texts of the segments joined together are the source again,
and everything that lexing reports is a view of that list.

## The rules

At each place the first rule that applies decides.

* A space, a tab, a carriage return or a line feed is a blank.
* `/*` opens a comment if some `*/` follows that starts no earlier than the third character; the
  comment ends with the first such.  Without one, `/*` is no comment, and its two characters are
  read as two tokens.
* A digit starts a number: all the digits that follow.
* A lower-case letter starts a word: all the lower-case letters and digits that follow.  A word
  that is the spelling of a keyword is that keyword, any other is an identifier.
* A comparison of two characters is preferred to the one-character token it starts with.
* Any other character is illegal, by itself.

Letters and digits are those of ASCII: no other character starts or continues a token.
-/

namespace DLang

/-- One piece of a source text. -/
inductive Segment where
  /-- A space, a tab, a carriage return or a line feed. -/
  | blank (c : Char)
  /-- A closed comment; `body` stands between the two delimiters. -/
  | comment (body : List Char)
  /-- A token of the given kind. -/
  | token (kind : Kind) (text : List Char)
  /-- A character that belongs to no token. -/
  | illegal (c : Char)
  deriving DecidableEq, Repr

namespace Segment

/-- The characters that a segment covers. -/
def text : Segment → List Char
  | blank c => [c]
  | comment body => '/' :: '*' :: body ++ ['*', '/']
  | token _ text => text
  | illegal c => [c]

/-! ## Character classes and spellings -/

/-- A blank between tokens. -/
def isBlank (c : Char) : Bool :=
  c = ' ' || c = '\t' || c = '\r' || c = '\n'

/-- A lower-case letter or a digit, which continue a word. -/
def isWordChar (c : Char) : Bool :=
  c.isLower || c.isDigit

/-- The kind of a word: the keyword it spells, or an identifier. -/
def wordKind (word : List Char) : Kind :=
  match String.ofList word with
  | "else" => .elseWord
  | "if" => .ifWord
  | "int" => .intWord
  | "print" => .printWord
  | "read" => .readWord
  | "return" => .returnWord
  | "while" => .whileWord
  | _ => .identifier

/-- The token that two characters spell together. -/
def pairKind? : Char → Char → Option Kind
  | '<', '=' => some .lessEqual
  | '>', '=' => some .greaterEqual
  | '=', '=' => some .doubleEqual
  | '!', '=' => some .notEqual
  | _, _ => none

/-- The token that one character spells. -/
def singleKind? : Char → Option Kind
  | ';' => some .semicolon
  | ',' => some .comma
  | '+' => some .plus
  | '-' => some .minus
  | '/' => some .slash
  | '*' => some .star
  | '(' => some .openParen
  | ')' => some .closeParen
  | '\x7b' => some .openBrace
  | '\x7d' => some .closeBrace
  | '[' => some .openBracket
  | ']' => some .closeBracket
  | '<' => some .less
  | '>' => some .greater
  | '=' => some .equal
  | _ => none

/-! ## The segment at the head of a text -/

/-- The characters before the first `*/`, if there is one. -/
def commentBody? : List Char → Option (List Char)
  | [] => none
  | '*' :: '/' :: _ => some []
  | c :: rest => (commentBody? rest).map (c :: ·)

/-- The comment that `c :: rest` starts with, if it starts with a closed one. -/
def comment? (c : Char) (rest : List Char) : Option Segment :=
  match c, rest with
  | '/', '*' :: after => (commentBody? after).map comment
  | _, _ => none

/-- The token spelled by symbols that `c :: rest` starts with: two characters if they are a token
together, else one. -/
def symbol? (c : Char) (rest : List Char) : Option Segment :=
  match rest.head?.bind (pairKind? c) with
  | some kind => some (token kind (c :: rest.take 1))
  | none => (singleKind? c).map fun kind => token kind [c]

/-- The segment that `c :: rest` starts with. -/
def first (c : Char) (rest : List Char) : Segment :=
  if isBlank c then blank c
  else if let some segment := comment? c rest then segment
  else if c.isDigit then token .number (c :: rest.takeWhile Char.isDigit)
  else if c.isLower then
    token (wordKind (c :: rest.takeWhile isWordChar)) (c :: rest.takeWhile isWordChar)
  else (symbol? c rest).getD (illegal c)

/-! ## The segment covers the head of the text -/

/-- The body of a comment stands at the head of the text, and the end of the comment follows it. -/
theorem exists_of_commentBody? {text body : List Char} (h : commentBody? text = some body) :
    ∃ after, text = body ++ '*' :: '/' :: after := by
  fun_induction commentBody? text generalizing body with
  | case1 => simp at h
  | case2 after =>
    obtain rfl : [] = body := by simpa using h
    exact ⟨after, rfl⟩
  | case3 c rest _ ih =>
    obtain ⟨inner, hinner, rfl⟩ := Option.map_eq_some_iff.1 h
    obtain ⟨after, rfl⟩ := ih hinner
    exact ⟨after, rfl⟩

/-- A comment at the head of a text covers its first characters. -/
theorem exists_of_comment? {c : Char} {rest : List Char} {segment : Segment}
    (h : comment? c rest = some segment) : ∃ tail, c :: rest = segment.text ++ tail := by
  unfold comment? at h
  split at h
  · rename_i after
    obtain ⟨body, hbody, rfl⟩ := Option.map_eq_some_iff.1 h
    obtain ⟨tail, rfl⟩ := exists_of_commentBody? hbody
    exact ⟨tail, by simp [text]⟩
  · simp at h

/-- A token spelled by symbols covers the first characters of the text. -/
theorem exists_of_symbol? {c : Char} {rest : List Char} {segment : Segment}
    (h : symbol? c rest = some segment) : ∃ tail, c :: rest = segment.text ++ tail := by
  unfold symbol? at h
  cases hpair : rest.head?.bind (pairKind? c) with
  | some kind =>
    rw [hpair] at h
    obtain rfl : token kind (c :: rest.take 1) = segment := by simpa using h
    exact ⟨rest.drop 1, by rw [text, List.cons_append, List.take_append_drop]⟩
  | none =>
    rw [hpair] at h
    obtain ⟨kind, _, rfl⟩ := Option.map_eq_some_iff.1 h
    exact ⟨rest, rfl⟩

/-- The first segment covers the first characters of the text. -/
theorem exists_eq_text_first_append (c : Char) (rest : List Char) :
    ∃ tail, c :: rest = (first c rest).text ++ tail := by
  unfold first
  split
  · exact ⟨rest, rfl⟩
  · split
    · exact exists_of_comment? ‹_›
    · split
      · exact ⟨rest.dropWhile Char.isDigit, by simp [text]⟩
      · split
        · exact ⟨rest.dropWhile isWordChar, by simp [text]⟩
        · cases hsymbol : symbol? c rest with
          | some segment => exact exists_of_symbol? hsymbol
          | none => exact ⟨rest, rfl⟩

/-- The first segment covers at least one character. -/
theorem text_first_ne_nil (c : Char) (rest : List Char) : (first c rest).text ≠ [] := by
  unfold first
  split
  · simp [text]
  · split
    · rename_i segment h
      unfold comment? at h
      split at h
      · obtain ⟨body, _, rfl⟩ := Option.map_eq_some_iff.1 h
        simp [text]
      · simp at h
    · split
      · simp [text]
      · split
        · simp [text]
        · unfold symbol?
          cases hpair : rest.head?.bind (pairKind? c) with
          | some kind => simp [text]
          | none => cases hsingle : singleKind? c <;> simp [text]

end Segment

open Segment in
/-- The segments of a text, in order. -/
def segments : List Char → List Segment
  | [] => []
  | c :: rest => first c rest :: segments ((c :: rest).drop (first c rest).text.length)
termination_by source => source.length
decreasing_by
  have := List.length_pos_iff.2 (text_first_ne_nil c rest)
  simp only [List.length_drop, List.length_cons]
  omega

/-- The texts of the segments make up the source: nothing is lost and nothing is added. -/
theorem flatMap_text_segments (source : List Char) :
    (segments source).flatMap Segment.text = source := by
  fun_induction segments source with
  | case1 => rfl
  | case2 c rest ih =>
    obtain ⟨tail, htail⟩ := Segment.exists_eq_text_first_append c rest
    have hdrop : (c :: rest).drop (Segment.first c rest).text.length = tail := by
      rw [htail, List.drop_left]
    rw [List.flatMap_cons, ih, hdrop, ← htail]

end DLang
