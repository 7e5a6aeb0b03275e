import DLang.Parsing.Reading
import DLang.Tree.Basic

/-!
# Reading expressions

```text
comparison = expression ("==" | "!=" | "<" | "<=" | ">" | ">=") expression
expression = term (("+" | "-") term)*
term       = factor (("*" | "/") factor)*
factor     = number | name | name "[" expression "]"
           | name "(" (expression ("," expression)*)? ")" | "(" expression ")"
```

The operators of one level associate to the left: a reader for the first operand is followed by one
that extends the operand built so far, as long as an operator of the level follows.
-/

namespace DLang

/-- The operator of the weaker level that a kind of token stands for. -/
def sumOp? : Kind → Option ArithOp
  | .plus => some .add
  | .minus => some .sub
  | _ => none

/-- The operator of the stronger level that a kind of token stands for. -/
def productOp? : Kind → Option ArithOp
  | .star => some .mul
  | .slash => some .div
  | _ => none

/-- The comparison that a kind of token stands for. -/
def relOp? : Kind → Option RelOp
  | .doubleEqual => some .equal
  | .notEqual => some .notEqual
  | .less => some .less
  | .lessEqual => some .lessEqual
  | .greater => some .greater
  | .greaterEqual => some .greaterEqual
  | _ => none

mutual

/-- Reads an expression. -/
def readExpr (tokens : List Token) : Reading Expr tokens :=
  (readTerm tokens).andThen fun left rest _suffix => readSum left rest
termination_by 4 * tokens.length + 2
decreasing_by
  · omega
  · have := _suffix.length_le
    omega

/-- Extends `left` by the operators of the weaker level that follow. -/
def readSum (left : Expr) (tokens : List Token) : Reading Expr tokens :=
  match tokens with
  | [] => .done left []
  | token :: rest =>
    match sumOp? token.kind with
    | some op =>
      .after token <| (readTerm rest).andThen fun right rest' _suffix =>
        readSum (.arith op left right none) rest'
    | none => .done left (token :: rest)
termination_by 4 * tokens.length
decreasing_by
  · simp only [List.length_cons]
    omega
  · have := _suffix.length_le
    simp only [List.length_cons]
    omega

/-- Reads a term. -/
def readTerm (tokens : List Token) : Reading Expr tokens :=
  (readFactor tokens).andThen fun left rest _suffix => readProduct left rest
termination_by 4 * tokens.length + 1
decreasing_by
  · omega
  · have := _suffix.length_le
    omega

/-- Extends `left` by the operators of the stronger level that follow. -/
def readProduct (left : Expr) (tokens : List Token) : Reading Expr tokens :=
  match tokens with
  | [] => .done left []
  | token :: rest =>
    match productOp? token.kind with
    | some op =>
      .after token <| (readFactor rest).andThen fun right rest' _suffix =>
        readProduct (.arith op left right none) rest'
    | none => .done left (token :: rest)
termination_by 4 * tokens.length
decreasing_by
  · simp only [List.length_cons]
    omega
  · have := _suffix.length_le
    simp only [List.length_cons]
    omega

/-- Reads a factor. -/
def readFactor (tokens : List Token) : Reading Expr tokens :=
  match tokens with
  | [] => .unexpected .expression []
  | token :: rest =>
    match token.kind with
    | .openParen =>
      .after token <| (readExpr rest).andThen fun e rest' _ =>
        (readKind .closeParen rest').map fun _ => e
    | .number => (readInteger (token :: rest)).map fun value => .integer value none
    | .identifier => .after token (readNamed token.text rest)
    | _ => .unexpected .expression (token :: rest)
termination_by 4 * tokens.length
decreasing_by
  all_goals
    simp only [List.length_cons]
    omega

/-- Reads what may follow a name in an expression: an index, arguments, or nothing. -/
def readNamed (name : String) (tokens : List Token) : Reading Expr tokens :=
  match tokens with
  | [] => .done (.var name none none) []
  | token :: rest =>
    match token.kind with
    | .openBracket =>
      .after token <| (readExpr rest).andThen fun index rest' _ =>
        (readKind .closeBracket rest').map fun _ => .element name index none none
    | .openParen => .after token <| (readArgs rest).map fun args => .call name args none
    | _ => .done (.var name none none) (token :: rest)
termination_by 4 * tokens.length
decreasing_by
  all_goals
    simp only [List.length_cons]
    omega

/-- Reads the arguments of a call up to the closing parenthesis.  There is no list if the
parenthesis follows at once. -/
def readArgs (tokens : List Token) : Reading (Option (List Expr)) tokens :=
  if headKind tokens = some .closeParen then (readKind .closeParen tokens).map fun _ => none
  else
    (readExpr tokens).andThen fun e rest _suffix =>
      (readMoreArgs rest).map fun more => some (e :: more)
termination_by 4 * tokens.length + 3
decreasing_by
  · omega
  · have := _suffix.length_le
    omega

/-- Reads the arguments after the first, and the closing parenthesis. -/
def readMoreArgs (tokens : List Token) : Reading (List Expr) tokens :=
  match tokens with
  | [] => (readKind .closeParen []).map fun _ => []
  | token :: rest =>
    if token.kind = .comma then
      .after token <| (readExpr rest).andThen fun e rest' _suffix =>
        (readMoreArgs rest').map fun more => e :: more
    else (readKind .closeParen (token :: rest)).map fun _ => []
termination_by 4 * tokens.length
decreasing_by
  · simp only [List.length_cons]
    omega
  · have := _suffix.length_le
    simp only [List.length_cons]
    omega

end

/-- Reads a comparison of two expressions. -/
def readComparison (tokens : List Token) : Reading Expr tokens :=
  (readExpr tokens).andThen fun left rest _ =>
    match rest with
    | [] => .unexpected .relation []
    | token :: rest' =>
      match relOp? token.kind with
      | some op => .after token <| (readExpr rest').map fun right => .compare op left right none
      | none => .unexpected .relation (token :: rest')

end DLang
