import DLang.Text.Numeral
import DLang.Token.Basic

/-!
# Reading from a list of tokens

A reader takes the tokens that are left and gives a `Reading`: a value or an error, together with
the tokens that are then left.  An error too has a place, the tokens that were left when it was
found, so reading can go on after a failure from exactly there.

The tokens left are always a suffix of the tokens given.  `Reading` carries that fact, and the
readers of the grammar are defined by recursion on the number of tokens left.
-/

namespace DLang

/-- What a reader looks for. -/
inductive Expected where
  /-- A token of this kind. -/
  | token (kind : Kind)
  | declaration
  | statement
  | relation
  | expression
  | endOfInput
  deriving DecidableEq, Repr

/-- The phrase by which a message names what was expected. -/
def Expected.describe : Expected → String
  | token kind => kind.describe
  | declaration => "declaration or '\x7b'"
  | statement => "statement"
  | relation => "relational operator"
  | expression => "expression"
  | endOfInput => "end of input"

/-- Why tokens cannot be read. -/
inductive ParseError where
  /-- A token stands where something else is expected. -/
  | unexpectedToken (found : String) (line : Nat) (expected : Expected)
  /-- The tokens end where something is expected. -/
  | unexpectedEnd (expected : Expected)
  /-- The text of a number token is not a numeral of 32 bits. -/
  | outOfRange (literal : String) (line : Nat)
  deriving DecidableEq, Repr

/-- The message of a parse error. -/
def ParseError.message : ParseError → String
  | unexpectedToken found line expected =>
    "line " ++ toString line ++ ": unexpected token " ++ Text.quoted found ++ ", expected " ++
      expected.describe
  | unexpectedEnd expected => "unexpected end of input, expected " ++ expected.describe
  | outOfRange literal line =>
    "line " ++ toString line ++ ": integer literal " ++ literal ++ " does not fit in i32"

/-- The outcome of reading from `tokens`: a value or an error, and the tokens left after it. -/
structure Reading (α : Type) (tokens : List Token) where
  result : Except ParseError α
  rest : List Token
  suffix : rest <:+ tokens

namespace Reading

variable {α β : Type} {tokens : List Token}

/-- A value for which no token was needed. -/
def done (value : α) (tokens : List Token) : Reading α tokens :=
  ⟨.ok value, tokens, List.suffix_refl tokens⟩

/-- The error for whatever stands at the head of `tokens`. -/
def unexpected (expected : Expected) (tokens : List Token) : Reading α tokens :=
  match tokens with
  | [] => ⟨.error (.unexpectedEnd expected), [], List.suffix_refl []⟩
  | token :: rest =>
    ⟨.error (.unexpectedToken token.text token.line expected), token :: rest,
      List.suffix_refl (token :: rest)⟩

/-- A reading from the tokens after the first is a reading from all of them. -/
def after (token : Token) (reading : Reading α tokens) : Reading α (token :: tokens) :=
  ⟨reading.result, reading.rest, reading.suffix.trans (List.suffix_cons token tokens)⟩

/-- Goes on reading from where a reading stopped, unless it failed. -/
def andThen (reading : Reading α tokens)
    (next : α → (rest : List Token) → rest <:+ tokens → Reading β rest) : Reading β tokens :=
  match reading with
  | ⟨.ok value, rest, suffix⟩ =>
    let following := next value rest suffix
    ⟨following.result, following.rest, following.suffix.trans suffix⟩
  | ⟨.error error, rest, suffix⟩ => ⟨.error error, rest, suffix⟩

/-- Changes the value of a reading. -/
def map (f : α → β) (reading : Reading α tokens) : Reading β tokens :=
  ⟨reading.result.map f, reading.rest, reading.suffix⟩

variable {next : α → (rest : List Token) → rest <:+ tokens → Reading β rest}

/-- After a value the next reader decides, from the tokens that the value left. -/
theorem andThen_of_ok {reading : Reading α tokens} {value : α} (h : reading.result = .ok value) :
    (reading.andThen next).result = (next value reading.rest reading.suffix).result ∧
      (reading.andThen next).rest = (next value reading.rest reading.suffix).rest := by
  obtain ⟨result, rest, suffix⟩ := reading
  subst h
  exact ⟨rfl, rfl⟩

/-- An error ends a reading where it was found. -/
theorem andThen_of_error {reading : Reading α tokens} {error : ParseError}
    (h : reading.result = .error error) :
    (reading.andThen next).result = .error error ∧
      (reading.andThen next).rest = reading.rest := by
  obtain ⟨result, rest, suffix⟩ := reading
  subst h
  exact ⟨rfl, rfl⟩

/-- A value after two readers comes from a value of the first. -/
theorem exists_of_andThen_ok {reading : Reading α tokens} {value : β}
    (h : (reading.andThen next).result = .ok value) :
    ∃ first, reading.result = .ok first ∧
      (next first reading.rest reading.suffix).result = .ok value := by
  cases hfirst : reading.result with
  | ok first => exact ⟨first, rfl, (andThen_of_ok hfirst).1 ▸ h⟩
  | error error =>
    rw [(andThen_of_error hfirst).1] at h
    cases h

end Reading

/-! ## Single tokens -/

/-- The kind of the token at the head. -/
def headKind (tokens : List Token) : Option Kind :=
  tokens.head?.map Token.kind

/-- Reads one token of a given kind. -/
def readKind (kind : Kind) (tokens : List Token) : Reading Token tokens :=
  match tokens with
  | [] => .unexpected (.token kind) []
  | token :: rest =>
    if token.kind = kind then .after token (.done token rest)
    else .unexpected (.token kind) (token :: rest)

/-- Reads an identifier. -/
def readName (tokens : List Token) : Reading String tokens :=
  (readKind .identifier tokens).map Token.text

/-- Reads an integer literal.  A literal out of range is found only after its token was read. -/
def readInteger (tokens : List Token) : Reading Int32 tokens :=
  (readKind .number tokens).andThen fun token rest _ =>
    match Text.readInt32 token.text with
    | some value => .done value rest
    | none => ⟨.error (.outOfRange token.text token.line), rest, List.suffix_refl rest⟩

end DLang
