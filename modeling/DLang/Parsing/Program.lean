import DLang.Parsing.Stmt

/-!
# Reading programs

```text
program     = declaration* block
declaration = variables | function
variables   = "int" definition ("," definition)* ";"
definition  = name | name "[" number "]"
function    = name "(" (name ("," name)*)? ")" ";" variables? block
```

`parse` reads a program that takes up all tokens.
-/

namespace DLang

/-- Reads the definition of a variable or an array. -/
def readVarDef (tokens : List Token) : Reading VarDef tokens :=
  (readName tokens).andThen fun name rest _ =>
    match rest with
    | [] => .done (.scalar name) []
    | token :: rest' =>
      if token.kind = .openBracket then
        .after token <| (readInteger rest').andThen fun size rest'' _ =>
          (readKind .closeBracket rest'').map fun _ => .array name (Text.lengthOf size)
      else .done (.scalar name) (token :: rest')

/-- Reads the definitions of a variable group after the first, and the semicolon that ends it. -/
def readMoreVarDefs (tokens : List Token) : Reading (List VarDef) tokens :=
  match tokens with
  | [] => (readKind .semicolon []).map fun _ => []
  | token :: rest =>
    if token.kind = .comma then
      .after token <| (readVarDef rest).andThen fun definition rest' _suffix =>
        (readMoreVarDefs rest').map fun more => definition :: more
    else (readKind .semicolon (token :: rest)).map fun _ => []
termination_by tokens.length
decreasing_by
  have := _suffix.length_le
  simp only [List.length_cons]
  omega

/-- Reads a variable group after the word that opens it. -/
def readVariables (tokens : List Token) : Reading (List VarDef) tokens :=
  (readVarDef tokens).andThen fun definition rest _ =>
    (readMoreVarDefs rest).map fun more => definition :: more

/-- Reads the parameters after the first, and the closing parenthesis. -/
def readMoreParams (tokens : List Token) : Reading (List String) tokens :=
  match tokens with
  | [] => (readKind .closeParen []).map fun _ => []
  | token :: rest =>
    if token.kind = .comma then
      .after token <| (readName rest).andThen fun name rest' _suffix =>
        (readMoreParams rest').map fun more => name :: more
    else (readKind .closeParen (token :: rest)).map fun _ => []
termination_by tokens.length
decreasing_by
  have := _suffix.length_le
  simp only [List.length_cons]
  omega

/-- Reads the parameters of a function up to the closing parenthesis.  There is no list if the
parenthesis follows at once. -/
def readParams (tokens : List Token) : Reading (Option (List String)) tokens :=
  if headKind tokens = some .closeParen then (readKind .closeParen tokens).map fun _ => none
  else
    (readName tokens).andThen fun name rest _ =>
      (readMoreParams rest).map fun more => some (name :: more)

/-- Reads the variable group of a function, if it has one. -/
def readLocals (tokens : List Token) : Reading (Option (List VarDef)) tokens :=
  match tokens with
  | [] => .done none []
  | token :: rest =>
    if token.kind = .intWord then .after token <| (readVariables rest).map some
    else .done none (token :: rest)

/-- Reads a function declaration after the function's name. -/
def readFunction (name : String) (tokens : List Token) : Reading FunctionDecl tokens :=
  (readKind .openParen tokens).andThen fun _ rest₁ _ =>
    (readParams rest₁).andThen fun params rest₂ _ =>
      (readKind .semicolon rest₂).andThen fun _ rest₃ _ =>
        (readLocals rest₃).andThen fun locals rest₄ _ =>
          (readBlock rest₄).map fun body => { name, params, locals, body }

/-- Reads declarations as long as a token follows that starts one. -/
def readDecls (tokens : List Token) : Reading (List Decl) tokens :=
  match tokens with
  | [] => .done [] []
  | token :: rest =>
    match token.kind with
    | .intWord =>
      .after token <| (readVariables rest).andThen fun group rest' _suffix =>
        (readDecls rest').map fun more => .vars group :: more
    | .identifier =>
      .after token <| (readFunction token.text rest).andThen fun f rest' _suffix =>
        (readDecls rest').map fun more => .function f :: more
    | _ => .done [] (token :: rest)
termination_by tokens.length
decreasing_by
  all_goals
    have := _suffix.length_le
    simp only [List.length_cons]
    omega

/-- Reads the declarations of a program.  There is no list if the program opens with its block;
otherwise there must be a first declaration. -/
def readDeclarations (tokens : List Token) : Reading (Option (List Decl)) tokens :=
  match headKind tokens with
  | some .openBrace => .done none tokens
  | some .intWord | some .identifier => (readDecls tokens).map some
  | _ => .unexpected .declaration tokens

/-- Reads a program. -/
def readProgram (tokens : List Token) : Reading Program tokens :=
  (readDeclarations tokens).andThen fun declarations rest _ =>
    (readBlock rest).map fun body => { declarations, body }

/-- Reads a program that takes up all tokens. -/
def parse (tokens : List Token) : Reading Program tokens :=
  (readProgram tokens).andThen fun program rest _ =>
    match rest with
    | [] => .done program []
    | token :: rest' => .unexpected .endOfInput (token :: rest')

end DLang
