import DLang.Parsing.Program
import Mathlib.Tactic.Common

/-!
# The grammar

The grammar of the language, as derivations of phrases from words of tokens, said without reference
to how tokens are read.

```text
program      = block | declarations block
declarations = declaration | declaration declarations
declaration  = variables | function
variables    = "int" definitions ";"
definitions  = definition | definition "," definitions
definition   = name | name "[" number "]"
function     = name "(" params ")" ";" locals block
params       = nothing | names                      names  = name | name "," names
locals       = nothing | variables
block        = "{" statements "}"
statements   = statement | statement ";" statements
statement    = nothing | assignment | block | "print" "(" expression ")" | "read" "(" name ")"
             | "return" expression | "while" "(" comparison ")" block
             | "if" "(" comparison ")" block alternative
alternative  = nothing | "else" block
assignment   = name "=" expression | name "[" expression "]" "=" expression
comparison   = expression ("==" | "!=" | "<" | "<=" | ">" | ">=") expression
expression   = term | expression ("+" | "-") term
term         = factor | term ("*" | "/") factor
factor       = number | name | name "[" expression "]" | name "(" args ")" | "(" expression ")"
args         = nothing | expressions                expressions = expression
                                                                | expression "," expressions
```

A `Phrase` is a nonterminal together with the tree that a word of it stands for, and `Derives word
phrase` has one rule for each alternative above.  The rules of sums and products recur on the left,
which makes their operators associate to the left, and a product is an operand of a sum, which makes
its operators bind tighter.  The trees carry no annotations.
-/

namespace DLang

/-! ## Operators -/

/-- The tokens of the operators that bind weaker. -/
inductive SumSign : Kind → ArithOp → Prop
  | plus : SumSign .plus .add
  | minus : SumSign .minus .sub

/-- The tokens of the operators that bind tighter. -/
inductive ProductSign : Kind → ArithOp → Prop
  | star : ProductSign .star .mul
  | slash : ProductSign .slash .div

/-- The tokens of the comparisons. -/
inductive RelSign : Kind → RelOp → Prop
  | doubleEqual : RelSign .doubleEqual .equal
  | notEqual : RelSign .notEqual .notEqual
  | less : RelSign .less .less
  | lessEqual : RelSign .lessEqual .lessEqual
  | greater : RelSign .greater .greater
  | greaterEqual : RelSign .greaterEqual .greaterEqual

/-! ## Derivations -/

/-- A nonterminal with the tree of a word that it derives. -/
inductive Phrase where
  | program (p : Program)
  | declarations (list : List Decl)
  | declaration (d : Decl)
  | variables (group : List VarDef)
  | definitions (group : List VarDef)
  | definition (d : VarDef)
  | function (f : FunctionDecl)
  | params (list : Option (List String))
  | names (list : List String)
  | locals (group : Option (List VarDef))
  | block (body : List Stmt)
  | statements (body : List Stmt)
  /-- A statement; the empty one has no tree. -/
  | statement (s : Option Stmt)
  | alternative (no : Option (List Stmt))
  | assignment (s : Stmt)
  | comparison (e : Expr)
  | expression (e : Expr)
  | term (e : Expr)
  | factor (e : Expr)
  | args (list : Option (List Expr))
  | expressions (list : List Expr)

/-- The rules of the grammar: the word of tokens is derived from the nonterminal of the phrase, with
the tree of the phrase. -/
inductive Derives : List Token → Phrase → Prop
  -- Programs.
  | bareProgram {w : List Token} {body : List Stmt} :
      Derives w (.block body) → Derives w (.program { declarations := none, body })
  | program {u v : List Token} {list : List Decl} {body : List Stmt} :
      Derives u (.declarations list) → Derives v (.block body) →
      Derives (u ++ v) (.program { declarations := some list, body })
  | lastDeclaration {w : List Token} {d : Decl} :
      Derives w (.declaration d) → Derives w (.declarations [d])
  | moreDeclarations {u v : List Token} {d : Decl} {list : List Decl} :
      Derives u (.declaration d) → Derives v (.declarations list) →
      Derives (u ++ v) (.declarations (d :: list))
  | variablesDeclaration {w : List Token} {group : List VarDef} :
      Derives w (.variables group) → Derives w (.declaration (.vars group))
  | functionDeclaration {w : List Token} {f : FunctionDecl} :
      Derives w (.function f) → Derives w (.declaration (.function f))
  -- Variables and functions.
  | variableGroup {int semi : Token} {w : List Token} {group : List VarDef} :
      int.kind = .intWord → Derives w (.definitions group) → semi.kind = .semicolon →
      Derives (int :: (w ++ [semi])) (.variables group)
  | lastDefinition {w : List Token} {d : VarDef} :
      Derives w (.definition d) → Derives w (.definitions [d])
  | moreDefinitions {u v : List Token} {comma : Token} {d : VarDef} {group : List VarDef} :
      Derives u (.definition d) → comma.kind = .comma → Derives v (.definitions group) →
      Derives (u ++ comma :: v) (.definitions (d :: group))
  | scalarDefinition {name : Token} :
      name.kind = .identifier → Derives [name] (.definition (.scalar name.text))
  | arrayDefinition {name lbr num rbr : Token} {size : Int32} :
      name.kind = .identifier → lbr.kind = .openBracket → num.kind = .number →
      Text.readInt32 num.text = some size → rbr.kind = .closeBracket →
      Derives [name, lbr, num, rbr] (.definition (.array name.text (Text.lengthOf size)))
  | function {name lpar rpar semi : Token} {u v w : List Token} {params : Option (List String)}
      {locals : Option (List VarDef)} {body : List Stmt} :
      name.kind = .identifier → lpar.kind = .openParen → Derives u (.params params) →
      rpar.kind = .closeParen → semi.kind = .semicolon → Derives v (.locals locals) →
      Derives w (.block body) →
      Derives (name :: lpar :: (u ++ rpar :: semi :: (v ++ w)))
        (.function { name := name.text, params, locals, body })
  | noParams : Derives [] (.params none)
  | params {w : List Token} {list : List String} :
      Derives w (.names list) → Derives w (.params (some list))
  | lastName {name : Token} : name.kind = .identifier → Derives [name] (.names [name.text])
  | moreNames {name comma : Token} {v : List Token} {list : List String} :
      name.kind = .identifier → comma.kind = .comma → Derives v (.names list) →
      Derives (name :: comma :: v) (.names (name.text :: list))
  | noLocals : Derives [] (.locals none)
  | locals {w : List Token} {group : List VarDef} :
      Derives w (.variables group) → Derives w (.locals (some group))
  -- Statements.
  | block {lbrace rbrace : Token} {w : List Token} {body : List Stmt} :
      lbrace.kind = .openBrace → Derives w (.statements body) → rbrace.kind = .closeBrace →
      Derives (lbrace :: (w ++ [rbrace])) (.block body)
  | lastStatement {w : List Token} {s : Option Stmt} :
      Derives w (.statement s) → Derives w (.statements s.toList)
  | moreStatements {u v : List Token} {semi : Token} {s : Option Stmt} {body : List Stmt} :
      Derives u (.statement s) → semi.kind = .semicolon → Derives v (.statements body) →
      Derives (u ++ semi :: v) (.statements (s.toList ++ body))
  | emptyStatement : Derives [] (.statement none)
  | assignmentStatement {w : List Token} {s : Stmt} :
      Derives w (.assignment s) → Derives w (.statement (some s))
  | blockStatement {w : List Token} {body : List Stmt} :
      Derives w (.block body) → Derives w (.statement (some (.block body)))
  | print {word lpar rpar : Token} {w : List Token} {value : Expr} :
      word.kind = .printWord → lpar.kind = .openParen → Derives w (.expression value) →
      rpar.kind = .closeParen →
      Derives (word :: lpar :: (w ++ [rpar])) (.statement (some (.print value)))
  | read {word lpar name rpar : Token} :
      word.kind = .readWord → lpar.kind = .openParen → name.kind = .identifier →
      rpar.kind = .closeParen →
      Derives [word, lpar, name, rpar] (.statement (some (.read name.text none)))
  | ret {word : Token} {w : List Token} {value : Expr} :
      word.kind = .returnWord → Derives w (.expression value) →
      Derives (word :: w) (.statement (some (.ret value)))
  | loop {word lpar rpar : Token} {u v : List Token} {condition : Expr} {body : List Stmt} :
      word.kind = .whileWord → lpar.kind = .openParen → Derives u (.comparison condition) →
      rpar.kind = .closeParen → Derives v (.block body) →
      Derives (word :: lpar :: (u ++ rpar :: v)) (.statement (some (.loop condition body)))
  | branch {word lpar rpar : Token} {u v w : List Token} {condition : Expr} {yes : List Stmt}
      {no : Option (List Stmt)} :
      word.kind = .ifWord → lpar.kind = .openParen → Derives u (.comparison condition) →
      rpar.kind = .closeParen → Derives v (.block yes) → Derives w (.alternative no) →
      Derives (word :: lpar :: (u ++ rpar :: (v ++ w)))
        (.statement (some (.branch condition yes no)))
  | noAlternative : Derives [] (.alternative none)
  | alternative {word : Token} {w : List Token} {no : List Stmt} :
      word.kind = .elseWord → Derives w (.block no) →
      Derives (word :: w) (.alternative (some no))
  | assignVariable {name eq : Token} {w : List Token} {value : Expr} :
      name.kind = .identifier → eq.kind = .equal → Derives w (.expression value) →
      Derives (name :: eq :: w) (.assignment (.assign (.var name.text none) value none none))
  | assignElement {name lbr rbr eq : Token} {u v : List Token} {index value : Expr} :
      name.kind = .identifier → lbr.kind = .openBracket → Derives u (.expression index) →
      rbr.kind = .closeBracket → eq.kind = .equal → Derives v (.expression value) →
      Derives (name :: lbr :: (u ++ rbr :: eq :: v))
        (.assignment (.assign (.element name.text index none) value none none))
  -- Expressions.
  | comparison {u v : List Token} {sign : Token} {op : RelOp} {left right : Expr} :
      Derives u (.expression left) → RelSign sign.kind op → Derives v (.expression right) →
      Derives (u ++ sign :: v) (.comparison (.compare op left right none))
  | firstTerm {w : List Token} {e : Expr} : Derives w (.term e) → Derives w (.expression e)
  | sum {u v : List Token} {sign : Token} {op : ArithOp} {left right : Expr} :
      Derives u (.expression left) → SumSign sign.kind op → Derives v (.term right) →
      Derives (u ++ sign :: v) (.expression (.arith op left right none))
  | firstFactor {w : List Token} {e : Expr} : Derives w (.factor e) → Derives w (.term e)
  | product {u v : List Token} {sign : Token} {op : ArithOp} {left right : Expr} :
      Derives u (.term left) → ProductSign sign.kind op → Derives v (.factor right) →
      Derives (u ++ sign :: v) (.term (.arith op left right none))
  | number {num : Token} {value : Int32} :
      num.kind = .number → Text.readInt32 num.text = some value →
      Derives [num] (.factor (.integer value none))
  | name {name : Token} :
      name.kind = .identifier → Derives [name] (.factor (.var name.text none none))
  | element {name lbr rbr : Token} {w : List Token} {index : Expr} :
      name.kind = .identifier → lbr.kind = .openBracket → Derives w (.expression index) →
      rbr.kind = .closeBracket →
      Derives (name :: lbr :: (w ++ [rbr])) (.factor (.element name.text index none none))
  | call {name lpar rpar : Token} {w : List Token} {args : Option (List Expr)} :
      name.kind = .identifier → lpar.kind = .openParen → Derives w (.args args) →
      rpar.kind = .closeParen →
      Derives (name :: lpar :: (w ++ [rpar])) (.factor (.call name.text args none))
  | parenthesised {lpar rpar : Token} {w : List Token} {e : Expr} :
      lpar.kind = .openParen → Derives w (.expression e) → rpar.kind = .closeParen →
      Derives (lpar :: (w ++ [rpar])) (.factor e)
  | noArgs : Derives [] (.args none)
  | args {w : List Token} {list : List Expr} :
      Derives w (.expressions list) → Derives w (.args (some list))
  | lastExpression {w : List Token} {e : Expr} :
      Derives w (.expression e) → Derives w (.expressions [e])
  | moreExpressions {u v : List Token} {comma : Token} {e : Expr} {list : List Expr} :
      Derives u (.expression e) → comma.kind = .comma → Derives v (.expressions list) →
      Derives (u ++ comma :: v) (.expressions (e :: list))

end DLang
