import DLang.Parsing.Expr

/-!
# Reading statements

```text
block      = "{" statement (";" statement)* "}"
statement  = assignment | block | "print" "(" expression ")" | "read" "(" name ")"
           | "if" "(" comparison ")" block ("else" block)?
           | "while" "(" comparison ")" block | "return" expression | nothing
assignment = name ("[" expression "]")? "=" expression
```

A semicolon separates statements and the empty statement leaves no trace in the tree, so stray
semicolons are harmless.  The empty statement is recognised by what follows it: a semicolon or the
end of the block.
-/

namespace DLang

/-- Reads the target of an assignment. -/
def readTarget (tokens : List Token) : Reading Target tokens :=
  (readName tokens).andThen fun name rest _ =>
    match rest with
    | [] => .done (.var name none) []
    | token :: rest' =>
      if token.kind = .openBracket then
        .after token <| (readExpr rest').andThen fun index rest'' _ =>
          (readKind .closeBracket rest'').map fun _ => .element name index none
      else .done (.var name none) (token :: rest')

/-- Reads an assignment. -/
def readAssignment (tokens : List Token) : Reading Stmt tokens :=
  (readTarget tokens).andThen fun target rest _ =>
    (readKind .equal rest).andThen fun _ rest' _ =>
      (readExpr rest').map fun value => .assign target value none none

/-- Reads between parentheses. -/
def readParenthesised {α : Type} (read : (tokens : List Token) → Reading α tokens)
    (tokens : List Token) : Reading α tokens :=
  (readKind .openParen tokens).andThen fun _ rest _ =>
    (read rest).andThen fun value rest' _ => (readKind .closeParen rest').map fun _ => value

mutual

/-- Reads a statement; there is none if the statement is empty. -/
def readStmt (tokens : List Token) : Reading (Option Stmt) tokens :=
  match tokens with
  | [] => .unexpected .statement []
  | token :: rest =>
    match token.kind with
    | .semicolon | .closeBrace => .done none (token :: rest)
    | .identifier => (readAssignment (token :: rest)).map some
    | .ifWord =>
      .after token <| (readParenthesised readComparison rest).andThen fun condition rest' _suffix =>
        (readBlock rest').andThen fun yes rest'' _suffix' =>
          (readElse rest'').map fun no => some (.branch condition yes no)
    | .whileWord =>
      .after token <| (readParenthesised readComparison rest).andThen fun condition rest' _suffix =>
        (readBlock rest').map fun body => some (.loop condition body)
    | .openBrace => (readBlock (token :: rest)).map fun body => some (.block body)
    | .printWord =>
      .after token <| (readParenthesised readExpr rest).map fun value => some (.print value)
    | .readWord =>
      .after token <| (readParenthesised readName rest).map fun name => some (.read name none)
    | .returnWord => .after token <| (readExpr rest).map fun value => some (.ret value)
    | _ => .unexpected .statement (token :: rest)
termination_by 3 * tokens.length + 1
decreasing_by
  · have := _suffix.length_le
    simp only [List.length_cons]
    omega
  · have := _suffix.length_le
    have := _suffix'.length_le
    simp only [List.length_cons]
    omega
  · have := _suffix.length_le
    simp only [List.length_cons]
    omega
  · omega

/-- Reads the block after `else`, if that word follows. -/
def readElse (tokens : List Token) : Reading (Option (List Stmt)) tokens :=
  match tokens with
  | [] => .done none []
  | token :: rest =>
    if token.kind = .elseWord then .after token <| (readBlock rest).map some
    else .done none (token :: rest)
termination_by 3 * tokens.length
decreasing_by
  simp only [List.length_cons]
  omega

/-- Reads a block. -/
def readBlock (tokens : List Token) : Reading (List Stmt) tokens :=
  match tokens with
  | [] => .unexpected (.token .openBrace) []
  | token :: rest =>
    if token.kind = .openBrace then
      .after token <| (readStmts rest).andThen fun body rest' _ =>
        (readKind .closeBrace rest').map fun _ => body
    else .unexpected (.token .openBrace) (token :: rest)
termination_by 3 * tokens.length
decreasing_by
  simp only [List.length_cons]
  omega

/-- Reads statements as long as a semicolon follows, and drops the empty ones. -/
def readStmts (tokens : List Token) : Reading (List Stmt) tokens :=
  (readStmt tokens).andThen fun stmt rest _suffix =>
    match rest with
    | [] => .done stmt.toList []
    | token :: rest' =>
      if token.kind = .semicolon then
        .after token <| (readStmts rest').map fun more => stmt.toList ++ more
      else .done stmt.toList (token :: rest')
termination_by 3 * tokens.length + 2
decreasing_by
  · omega
  · have := _suffix.length_le
    simp only [List.length_cons] at this
    omega

end

end DLang
