import DLang.Text.Numeral
import DLang.Tree.Basic

/-!
# The text of a tree

Every node is written as a name with its parts between parentheses, separated by a comma and a
space.  Annotations are not shown.  Absent lists leave no trace, and empty ones do.
-/

namespace DLang

/-- A node: its name, then its parts between parentheses. -/
def nodeText (name : String) (parts : List String) : String :=
  name ++ "(" ++ ", ".intercalate parts ++ ")"

/-- The text of an arithmetic operator. -/
def ArithOp.text : ArithOp → String
  | add => "PLUSOP"
  | sub => "MINUSOP"
  | mul => "MULTIPLYOP"
  | div => "DIVIDEOP"

/-- The text of a comparison operator. -/
def RelOp.text : RelOp → String
  | equal => "EQOP"
  | notEqual => "NEOP"
  | less => "LTOP"
  | lessEqual => "LEOP"
  | greater => "GTOP"
  | greaterEqual => "GEOP"

/-- The text of a variable, wherever one is named. -/
def variableText (name : String) : String :=
  nodeText "Variable" [name]

mutual

/-- The text of an expression. -/
def Expr.text : Expr → String
  | .integer value _ => nodeText "Integer" [Text.decimal value]
  | .var name _ _ => variableText name
  | .element name index _ _ => nodeText "ArrayIndex" [variableText name, index.text]
  | .arith op left right _ => nodeText "BinOp" [op.text, left.text, right.text]
  | .compare op left right _ => nodeText "RelOp" [op.text, left.text, right.text]
  | .call name none _ => nodeText "FunctionCall" [name]
  | .call name (some args) _ => nodeText "FunctionCall" [name, nodeText "Arguments" (texts args)]

/-- The texts of the expressions of a list. -/
def Expr.texts : List Expr → List String
  | [] => []
  | e :: rest => e.text :: texts rest

end

/-- The text of a target. -/
def Target.text : Target → String
  | .var name _ => variableText name
  | .element name index _ => nodeText "ArrayIndex" [variableText name, index.text]

mutual

/-- The text of a statement. -/
def Stmt.text : Stmt → String
  | .assign target value _ _ => nodeText "Assign" [target.text, value.text]
  | .print value => nodeText "Print" [value.text]
  | .read name _ => nodeText "Read" [variableText name]
  | .ret value => nodeText "Return" [value.text]
  | .branch condition yes none => nodeText "If" [condition.text, nodeText "Block" (texts yes)]
  | .branch condition yes (some no) =>
    nodeText "If" [condition.text, nodeText "Block" (texts yes), nodeText "Block" (texts no)]
  | .loop condition body => nodeText "While" [condition.text, nodeText "Block" (texts body)]
  | .block body => nodeText "Block" (texts body)

/-- The texts of the statements of a list. -/
def Stmt.texts : List Stmt → List String
  | [] => []
  | s :: rest => s.text :: texts rest

end

/-- The text of a block of statements. -/
def blockText (body : List Stmt) : String :=
  nodeText "Block" (Stmt.texts body)

/-- The text of the definition of a variable or an array. -/
def VarDef.text : VarDef → String
  | scalar name => variableText name
  | array name size => nodeText "ArrayIndex" [variableText name, nodeText "Integer" [toString size]]

/-- The text of a variable group: the type, which is the same for all, then the definitions.  The
comma after the type stands also before an empty list. -/
def variablesText (group : List VarDef) : String :=
  nodeText "VariableDeclarations" ["INT", ", ".intercalate (group.map VarDef.text)]

/-- The text of a function declaration. -/
def FunctionDecl.text (f : FunctionDecl) : String :=
  nodeText "FunctionDeclaration" <|
    [f.name] ++
    (f.params.map fun params => nodeText "Arguments" (params.map variableText)).toList ++
    (f.locals.map variablesText).toList ++
    [blockText f.body]

/-- The text of a declaration. -/
def Decl.text : Decl → String
  | .vars group => variablesText group
  | .function f => f.text

/-- The text of a program. -/
def Program.text (p : Program) : String :=
  nodeText "Program" <|
    (p.declarations.map fun ds => nodeText "Declarations" (ds.map Decl.text)).toList ++
    [blockText p.body]

end DLang
