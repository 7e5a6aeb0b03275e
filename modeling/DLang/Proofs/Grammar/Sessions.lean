import DLang.Parsing.Session
import DLang.Proofs.Grammar.Kinds

/-!
# Parsing sessions by position

A session reads several times from one list of tokens, each time from where it stopped before.  A
`Parser` is a session seen from outside: all the tokens, and a position in them.  What it answers is
what `session` answers from the tokens ahead (`Parser.session_ahead`), so a reading in the middle of
a session is the first reading of a fresh one over the tokens from there on.

Reading an expression takes as much as there is.  It stops before a token that it has seen and could
not use, and what comes after that token it has not seen.  If some longer stretch were an
expression, then reading it alone would take it whole; but reading stops at the same place there,
with the same token ahead (`Derives.not_longer_of_readExpr`).

The results are put together in `Parser.expression_maximal`.
-/

namespace DLang

/-! ## Maximal expressions -/

lemma Derives.expression_ne_nil {w : List Token} {e : Expr} (h : Derives w (.expression e)) :
    w ≠ [] := by
  rintro rfl
  have hread : (readExpr []).Gives e [] :=
    readExpr_of_isRead h.isRead fun _ htoken => by cases htoken
  rw [readExpr] at hread
  obtain ⟨_, _, _, hterm, _⟩ := Reading.andThen_gives.1 hread
  rw [readTerm] at hterm
  obtain ⟨_, _, _, hfactor, _⟩ := Reading.andThen_gives.1 hterm
  rw [readFactor] at hfactor
  exact Reading.not_gives_unexpected hfactor

/-- No expression starts with the tokens that were taken and goes on with some that were left. -/
lemma Derives.not_longer_of_readExpr {w more tail : List Token} {e e' : Expr}
    (h : (readExpr (w ++ more ++ tail)).Gives e (more ++ tail)) (hmore : more ≠ []) :
    ¬ Derives (w ++ more) (.expression e') := by
  intro hlonger
  have hsame : Reading.SameBefore tail [] (readExpr (w ++ more ++ tail))
      (readExpr (w ++ more ++ [])) := readExpr_sameBefore (w ++ more)
  have hstops : (readExpr (w ++ more ++ [])).rest = more ++ [] := (hsame more hmore h.2).2
  have hwhole : (readExpr (w ++ more ++ [])).rest = [] :=
    (readExpr_of_isRead hlonger.isRead fun _ htoken => by cases htoken).2
  rw [hwhole] at hstops
  exact hmore (List.append_eq_nil_iff.1 hstops.symm).1

/-- Reading an expression takes one that is as long as can be. -/
lemma readExpr_maximal {tokens rest : List Token} {e : Expr}
    (h : (readExpr tokens).Gives e rest) :
    ∃ w, tokens = w ++ rest ∧ Derives w (.expression e) ∧
      ∀ n, w.length < n → n ≤ tokens.length → ∀ e', ¬ Derives (tokens.take n) (.expression e') := by
  obtain ⟨w, rfl, hw⟩ := readExpr_sound h
  refine ⟨w, rfl, hw, ?_⟩
  intro n hlt hle e'
  obtain ⟨m, rfl⟩ := Nat.exists_eq_add_of_lt hlt
  rw [List.length_append] at hle
  have hmore : rest.take (m + 1) ≠ [] := by
    rw [ne_eq, ← List.length_eq_zero_iff, List.length_take]
    omega
  rw [Nat.add_assoc, List.take_length_add_append]
  rw [← List.take_append_drop (m + 1) rest, ← List.append_assoc] at h
  exact Derives.not_longer_of_readExpr h hmore

/-- If the value of a reading was changed, an error was there before. -/
lemma Reading.error_of_map {α β : Type} {tokens : List Token} {reading : Reading α tokens}
    {f : α → β} {e : ParseError} (h : (reading.map f).result = .error e) :
    reading.result = .error e := by
  obtain ⟨result, rest, suffix⟩ := reading
  cases result with
  | ok a => cases h
  | error e' => exact congrArg Except.error (Except.error.inj h)

/-! ## Parsers -/

/-- A parser at work: all its tokens, and how many of them it has taken. -/
structure Parser where
  tokens : List Token
  position : Nat
  deriving DecidableEq, Repr

/-- The error is about the token at a position, or about the end if that is the position.  A number
out of range has been taken, so it stands just before the position. -/
def ParseError.NamesAt (tokens : List Token) (position : Nat) : ParseError → Prop
  | unexpectedToken found line _ =>
    ∃ token, tokens[position]? = some token ∧ found = token.text ∧ line = token.line
  | unexpectedEnd _ => position = tokens.length
  | outOfRange literal line =>
    ∃ before token, position = before + 1 ∧ tokens[before]? = some token ∧
      literal = token.text ∧ line = token.line

namespace Parser

/-- A parser that has taken nothing. -/
def fresh (tokens : List Token) : Parser :=
  { tokens, position := 0 }

/-- The tokens that have not been taken. -/
def ahead (parser : Parser) : List Token :=
  parser.tokens.drop parser.position

/-- The tokens from where the parser stands up to another position. -/
def stretch (parser : Parser) (stop : Nat) : List Token :=
  (parser.tokens.take stop).drop parser.position

/-- What comes of a request. -/
def answer (parser : Parser) (request : Request) : Except ParseError Answer :=
  (request.read parser.ahead).result

/-- The parser after a request. -/
def next (parser : Parser) (request : Request) : Parser :=
  { parser with position := parser.position + (request.read parser.ahead).position }

/-- What comes of several requests. -/
def answers (parser : Parser) : List Request → List (Except ParseError Answer)
  | [] => []
  | request :: more => parser.answer request :: (parser.next request).answers more

/-- The parser after several requests. -/
def after (parser : Parser) (requests : List Request) : Parser :=
  requests.foldl next parser

variable (parser : Parser)

/-- A parser goes on with the tokens that a reading has left. -/
lemma ahead_next (request : Request) :
    (parser.next request).ahead = (request.read parser.ahead).rest := by
  have hrest := List.suffix_iff_eq_drop.1 (request.read parser.ahead).suffix
  calc (parser.next request).ahead
    _ = parser.ahead.drop (request.read parser.ahead).position := List.drop_drop.symm
    _ = (request.read parser.ahead).rest := hrest.symm

/-- A parser answers as a session does that has only the tokens ahead. -/
lemma session_ahead (requests : List Request) :
    session parser.ahead requests = parser.answers requests := by
  induction requests generalizing parser with
  | nil => rfl
  | cons request more ih =>
    rw [session, answers, ← ih, ahead_next]
    rfl

/-- Further requests are answered from where the earlier ones have left the parser. -/
lemma answers_append (before more : List Request) :
    parser.answers (before ++ more) =
      parser.answers before ++
        session (parser.tokens.drop (parser.after before).position) more := by
  induction before generalizing parser with
  | nil => exact (parser.session_ahead more).symm
  | cons request before ih => exact congrArg (List.cons _) (ih (parser.next request))

/-- What a parser answers and takes depends on the tokens ahead of it. -/
lemma answer_fresh (request : Request) :
    parser.answer request = (fresh parser.ahead).answer request := by
  show _ = (request.read (parser.ahead.drop 0)).result
  rw [List.drop_zero]
  rfl

lemma position_next (request : Request) :
    (parser.next request).position =
      parser.position + ((fresh parser.ahead).next request).position := by
  show _ = parser.position + (0 + (request.read (parser.ahead.drop 0)).position)
  rw [List.drop_zero, Nat.zero_add]
  rfl

/-! ## Positions -/

variable {parser}

lemma position_le_next (request : Request) : parser.position ≤ (parser.next request).position :=
  Nat.le_add_right _ _

/-- One request does not go past the end. -/
lemma next_within (h : parser.position ≤ parser.tokens.length) (request : Request) :
    (parser.next request).position ≤ parser.tokens.length := by
  have htaken : (request.read parser.ahead).position ≤ parser.ahead.length := Nat.sub_le _ _
  rw [ahead, List.length_drop] at htaken
  show parser.position + (request.read parser.ahead).position ≤ _
  rw [ahead]
  omega

/-- The position never decreases. -/
lemma position_le_after (requests : List Request) :
    parser.position ≤ (parser.after requests).position := by
  induction requests generalizing parser with
  | nil => exact Nat.le_refl _
  | cons request more ih => exact Nat.le_trans (position_le_next request) ih

/-- The position never passes the end. -/
lemma after_within (h : parser.position ≤ parser.tokens.length) (requests : List Request) :
    (parser.after requests).position ≤ parser.tokens.length := by
  induction requests generalizing parser with
  | nil => exact h
  | cons request more ih =>
    show ((parser.next request).after more).position ≤ (parser.next request).tokens.length
    exact ih (next_within h request)

lemma stretch_eq_take_ahead (stop : Nat) :
    parser.stretch stop = parser.ahead.take (stop - parser.position) :=
  List.drop_take

/-- The position after a request, if the tokens that it took are known. -/
lemma position_next_of_ahead (request : Request) {taken : List Token}
    (h : parser.ahead = taken ++ (request.read parser.ahead).rest) :
    (parser.next request).position = parser.position + taken.length :=
  congrArg (parser.position + ·) (Reading.position_eq h)

/-! ## Expressions -/

/-- What a parser takes as an expression is one, and no longer stretch is. -/
lemma expression_of_answer_ok {answer : Answer} (h : parser.answer .expression = .ok answer) :
    ∃ e, answer = .expression e ∧ parser.position < (parser.next .expression).position ∧
      Derives (parser.stretch (parser.next .expression).position) (.expression e) ∧
      ∀ k, (parser.next .expression).position < k → k ≤ parser.tokens.length →
        ∀ e', ¬ Derives (parser.stretch k) (.expression e') := by
  obtain ⟨e, hread, rfl⟩ := Reading.map_gives.1 ⟨h, rfl⟩
  obtain ⟨w, hahead, hw, hmaximal⟩ := readExpr_maximal hread
  have hpositive := List.length_pos_iff.2 hw.expression_ne_nil
  rw [position_next_of_ahead .expression hahead]
  refine ⟨e, rfl, by omega, ?_, ?_⟩
  · rw [stretch_eq_take_ahead, Nat.add_sub_cancel_left, hahead, List.take_left]
    exact hw
  · intro k hk hle e'
    have hlength : parser.ahead.length = parser.tokens.length - parser.position :=
      List.length_drop
    rw [stretch_eq_take_ahead]
    exact hmaximal (k - parser.position) (by omega) (by omega) e'

/-- An error of a parser is about the token at which it stands then. -/
lemma namesAt_of_answer_error (hwithin : parser.position ≤ parser.tokens.length)
    {error : ParseError} (h : parser.answer .expression = .error error) :
    error.NamesAt parser.tokens (parser.next .expression).position := by
  have herror : (readExpr parser.ahead).result = .error error := Reading.error_of_map h
  have htoken (n : Nat) : parser.tokens[parser.position + n]? = parser.ahead[n]? :=
    List.getElem?_drop.symm
  cases readExpr_inStep (alike_clipped parser.ahead) with
  | @together taken hahead _ _ _ hfound =>
    have hat := hfound error herror
    rw [position_next_of_ahead .expression hahead]
    generalize (readExpr parser.ahead).rest = rest at hahead hat
    cases rest with
    | nil =>
      obtain ⟨expected, rfl⟩ := hat
      have hlength := congrArg List.length hahead
      rw [ahead, List.length_drop, List.append_nil] at hlength
      show parser.position + taken.length = parser.tokens.length
      omega
    | cons token rest =>
      obtain ⟨expected, rfl⟩ := hat
      exact ⟨token, by rw [htoken, hahead]; simp, rfl, rfl⟩
  | @apart front num hahead _ _ _ hresult _ =>
    rw [herror] at hresult
    cases hresult
    have htaken : parser.ahead = (front ++ [num]) ++ (readExpr parser.ahead).rest := by
      rw [← List.append_cons]
      exact hahead
    rw [position_next_of_ahead .expression htaken]
    refine ⟨parser.position + front.length, num, by simp [Nat.add_assoc], ?_, rfl, rfl⟩
    rw [htoken, hahead]
    simp

/-- **Parsers take maximal expressions, and sessions are local.**  A parser that stands anywhere in
its tokens reads an expression as a fresh parser does over the tokens from there on, and takes as
many of them.  If it succeeds, then it has taken at least one token and has not gone past the end,
what it has taken derives the expression, and no longer stretch from where it stood derives any.  If
it fails, then it has not gone back or past the end, and the error is about the token at which it
stands, or about the end if it stands there.  Over any requests for expressions and programs, the
position never decreases and never passes the end, and each request is answered as by a fresh
session over the tokens from the position on. -/
theorem expression_maximal (parser : Parser)
    (hwithin : parser.position ≤ parser.tokens.length) :
    (parser.answer .expression = (fresh parser.ahead).answer .expression ∧
        (parser.next .expression).position =
          parser.position + ((fresh parser.ahead).next .expression).position) ∧
      (∀ answer, parser.answer .expression = .ok answer →
        ∃ e, answer = .expression e ∧ parser.position < (parser.next .expression).position ∧
          (parser.next .expression).position ≤ parser.tokens.length ∧
          Derives (parser.stretch (parser.next .expression).position) (.expression e) ∧
          ∀ k, (parser.next .expression).position < k → k ≤ parser.tokens.length →
            ∀ e', ¬ Derives (parser.stretch k) (.expression e')) ∧
      (∀ error, parser.answer .expression = .error error →
        parser.position ≤ (parser.next .expression).position ∧
          (parser.next .expression).position ≤ parser.tokens.length ∧
          error.NamesAt parser.tokens (parser.next .expression).position) ∧
      ∀ before more : List Request,
        (parser.after before).position ≤ (parser.after (before ++ more)).position ∧
          (parser.after (before ++ more)).position ≤ parser.tokens.length ∧
          session parser.ahead (before ++ more) =
            parser.answers before ++
              session (parser.tokens.drop (parser.after before).position) more := by
  refine ⟨⟨parser.answer_fresh .expression, parser.position_next .expression⟩, ?_, ?_, ?_⟩
  · intro answer h
    obtain ⟨e, hanswer, hlt, hderives, hmaximal⟩ := expression_of_answer_ok h
    exact ⟨e, hanswer, hlt, next_within hwithin .expression, hderives, hmaximal⟩
  · intro error h
    exact ⟨position_le_next .expression, next_within hwithin .expression,
      namesAt_of_answer_error hwithin h⟩
  · intro before more
    refine ⟨?_, after_within hwithin (before ++ more), ?_⟩
    · rw [after, after, List.foldl_append]
      exact position_le_after more
    · rw [session_ahead, answers_append]

/-- A product between two closing parentheses, before which the parser stands. -/
def product : Parser :=
  { tokens :=
      [⟨.closeParen, ")", 1⟩, ⟨.identifier, "x", 1⟩, ⟨.star, "*", 1⟩, ⟨.number, "2", 1⟩,
        ⟨.closeParen, ")", 2⟩]
    position := 1 }

theorem expression_maximal_product :
    product.position ≤ product.tokens.length ∧ (product.next .expression).position = 4 ∧
      (∃ e, product.answer .expression = .ok (.expression e) ∧
        Derives (product.stretch 4) (.expression e)) ∧
      ∀ e, ¬ Derives (product.stretch 5) (.expression e) := by
  have hwithin : product.position ≤ product.tokens.length := by decide
  have hnext : (product.next .expression).position = 4 := by decide +kernel
  have hok : (product.answer .expression).isOk = true := by decide +kernel
  obtain ⟨_, htaken, _, _⟩ := expression_maximal product hwithin
  cases hanswer : product.answer .expression with
  | error e =>
    rw [hanswer] at hok
    cases hok
  | ok answer =>
    obtain ⟨e, rfl, _, _, hderives, hmaximal⟩ := htaken answer hanswer
    rw [hnext] at hderives hmaximal
    exact ⟨hwithin, hnext, ⟨e, rfl, hderives⟩, hmaximal 5 (by decide) (by decide)⟩

end Parser

end DLang
