import DLang.Proofs.Grammar.Completeness
import DLang.Proofs.Grammar.Lookahead
import DLang.Proofs.Grammar.Viability

/-!
# Errors are found at the earliest token

Parsing reports an error at the first token that no program can have at its place.  There are two
halves to this.  What was taken before the error begins a program (`parse_viable`), and programs are
accepted.  With the token at which the error was found nothing can be completed any more, since
parsing fails there whatever comes after that token (`parse_sameBefore`).

The result is `parse_error_earliest`.
-/

namespace DLang

/-- The tokens parse to a program. -/
def Accepted (tokens : List Token) : Prop :=
  ∃ p, (parse tokens).result = .ok p

/-- How many tokens a reading has taken, also if it failed. -/
def Reading.position {α : Type} {tokens : List Token} (reading : Reading α tokens) : Nat :=
  tokens.length - reading.rest.length

lemma Reading.position_eq {α : Type} {tokens taken : List Token} {reading : Reading α tokens}
    (h : tokens = taken ++ reading.rest) : reading.position = taken.length := by
  have hlength := congrArg List.length h
  rw [List.length_append] at hlength
  unfold position
  omega

/-- The error names the token at a position, and this is the first position that is wrong: the
tokens before it begin some accepted list, and with it they begin none.  If the tokens end too
early, then the position is the end and all of them begin a longer accepted list. -/
def ParseError.EarliestAt (tokens : List Token) (position : Nat) : ParseError → Prop
  | unexpectedToken found line _ =>
    (∃ token, tokens[position]? = some token ∧ found = token.text ∧ line = token.line) ∧
      (∃ accepted, Accepted accepted ∧ tokens.take position <+: accepted) ∧
      ∀ accepted, Accepted accepted → ¬ tokens.take (position + 1) <+: accepted
  | unexpectedEnd _ =>
    position = tokens.length ∧
      ∃ accepted, Accepted accepted ∧ tokens <+: accepted ∧ tokens ≠ accepted
  | outOfRange _ _ => False

/-- Whatever follows the token at which parsing fails, it fails there. -/
lemma not_accepted_of_parse_error {taken rest tail : List Token} {token : Token} {e : ParseError}
    (herror : (parse (taken ++ [token] ++ rest)).result = .error e)
    (hrest : (parse (taken ++ [token] ++ rest)).rest = token :: rest) :
    ¬ Accepted (taken ++ [token] ++ tail) := by
  rintro ⟨p, hp⟩
  have hsame : Reading.SameBefore rest tail (parse (taken ++ [token] ++ rest))
      (parse (taken ++ [token] ++ tail)) := parse_sameBefore (taken ++ [token])
  obtain ⟨hresult, _⟩ := hsame [token] (List.cons_ne_nil token []) hrest
  rw [hp, herror] at hresult
  cases hresult

/-- If all numbers are in range, parsing fails at the first token that cannot be continued to an
accepted list, or at the end if all tokens can be continued. -/
theorem parse_error_earliest {tokens : List Token} {e : ParseError} (hnum : NumeralsRead tokens)
    (h : (parse tokens).result = .error e) :
    e.EarliestAt tokens (parse tokens).position := by
  obtain ⟨hfound, taken, ending, htokens, p, hword⟩ := parse_viable hnum e h
  have haccepted : Accepted (taken ++ ending) := ⟨p, parse_of_derives hword⟩
  rw [Reading.position_eq htokens]
  cases hrest : (parse tokens).rest with
  | nil =>
    rw [hrest] at hfound
    rw [hrest, List.append_nil] at htokens
    obtain ⟨expected, rfl⟩ := hfound
    subst htokens
    -- All tokens were taken.  If nothing were missing, they would be accepted themselves.
    refine ⟨rfl, tokens ++ ending, haccepted, List.prefix_append tokens ending, ?_⟩
    intro heq
    rw [← heq] at haccepted
    obtain ⟨q, hq⟩ := haccepted
    rw [hq] at h
    cases h
  | cons token rest =>
    rw [hrest] at hfound
    rw [hrest, List.append_cons] at htokens
    obtain ⟨expected, rfl⟩ := hfound
    subst htokens
    have htake : (taken ++ [token] ++ rest).take taken.length = taken := by
      rw [List.append_assoc, List.take_left]
    have htake' : (taken ++ [token] ++ rest).take (taken.length + 1) = taken ++ [token] :=
      List.take_left' (by simp)
    refine ⟨⟨token, by simp, rfl, rfl⟩, ⟨_, haccepted, ?_⟩, ?_⟩
    · rw [htake]
      exact List.prefix_append taken ending
    · rintro accepted hothers ⟨tail, rfl⟩
      rw [htake'] at hothers
      exact not_accepted_of_parse_error h hrest hothers

/-- The tokens of an assignment with a stray parenthesis after it. -/
def strayParenthesis : List Token :=
  [⟨.openBrace, "\x7b", 1⟩, ⟨.identifier, "a", 1⟩, ⟨.equal, "=", 1⟩, ⟨.number, "7", 1⟩,
    ⟨.closeParen, ")", 2⟩, ⟨.closeBrace, "\x7d", 2⟩]

theorem parse_strayParenthesis :
    (parse strayParenthesis).result = .error (.unexpectedToken ")" 2 (.token .closeBrace)) ∧
      (ParseError.unexpectedToken ")" 2 (.token .closeBrace)).EarliestAt strayParenthesis 4 := by
  have hnum : NumeralsRead strayParenthesis := by
    unfold NumeralsRead
    decide
  have hresult : (parse strayParenthesis).result =
      .error (.unexpectedToken ")" 2 (.token .closeBrace)) := by
    have herror : (parse strayParenthesis).result.map (fun _ => ()) =
        .error (.unexpectedToken ")" 2 (.token .closeBrace)) := by
      decide +kernel
    cases hparse : (parse strayParenthesis).result with
    | ok p =>
      rw [hparse] at herror
      cases herror
    | error e =>
      rw [hparse] at herror
      exact congrArg Except.error (Except.error.inj herror)
  have hposition : (parse strayParenthesis).position = 4 := by
    decide +kernel
  have hearliest := parse_error_earliest hnum hresult
  rw [hposition] at hearliest
  exact ⟨hresult, hearliest⟩

end DLang
