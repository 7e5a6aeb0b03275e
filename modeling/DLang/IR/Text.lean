import DLang.IR.Basic
import DLang.Text.Numeral

/-!
# The text of a module

A module is written line by line: two declarations and a constant, which every module has, then
each function after an empty line.  Instructions are indented by two blanks and labels are not.

Pointer types can be spelled in two styles, and the style changes nothing else.  In the typed one a
pointer names what it points to, and the format that is passed to the output and input functions is
computed from its array; in the untyped one every pointer type is `ptr`.
-/

namespace DLang

/-- How pointer types are spelled. -/
inductive PointerStyle where
  | typed
  | untyped
  deriving DecidableEq, Repr

namespace IR

/-- The type of a pointer to `pointee`. -/
def pointer (style : PointerStyle) (pointee : String) : String :=
  match style with
  | .typed => pointee ++ "*"
  | .untyped => "ptr"

/-- The type of an array of integers. -/
def arrayType (size : Nat) : String :=
  "[" ++ toString size ++ " x i32]"

/-- The type of the functions for output and input. -/
def formattedType (style : PointerStyle) : String :=
  "i32 (" ++ pointer style "i8" ++ ", ...)"

/-- The format, as the first argument of the functions for output and input. -/
def formatArgument : PointerStyle → String
  | .typed => "i8* getelementptr([4 x i8], [4 x i8]* @.formatstr, i32 0, i32 0)"
  | .untyped => "ptr @.formatstr"

/-- The text of a register. -/
def Register.text : Register → String
  | named name => "%" ++ name
  | temporary number => "%tmp." ++ toString number

/-- The text of an operand. -/
def Operand.text : Operand → String
  | constant value => Text.decimal value
  | register r => r.text

/-- The text of what a label marks. -/
def Mark.text : Mark → String
  | branchTrue => "if.true"
  | branchFalse => "if.false"
  | branchEnd => "if.end"
  | loopHead => "while.loop"
  | loopBody => "while.body"
  | loopEnd => "while.end"

/-- The text of a label. -/
def Label.text : Label → String
  | entry => "entry.0"
  | numbered mark number => mark.text ++ "." ++ toString number

/-- The text of an operation. -/
def Opcode.text : Opcode → String
  | add => "add"
  | sub => "sub"
  | mul => "mul"
  | udiv => "udiv"

/-- The text of a predicate. -/
def Predicate.text : Predicate → String
  | eq => "eq"
  | ne => "ne"
  | slt => "slt"
  | sle => "sle"
  | sgt => "sgt"
  | sge => "sge"

/-- An instruction with a result. -/
def resultText (into : Nat) (operation : String) : String :=
  (Register.temporary into).text ++ " = " ++ operation

/-- The text of an instruction. -/
def Instr.text (style : PointerStyle) : Instr → String
  | reserve slot => (Register.named slot).text ++ " = alloca i32"
  | reserveArray slot size => (Register.named slot).text ++ " = alloca " ++ arrayType size
  | store value address =>
    "store i32 " ++ value.text ++ ", " ++ pointer style "i32" ++ " " ++ address.text
  | load into address =>
    resultText into ("load i32, " ++ pointer style "i32" ++ " " ++ address.text)
  | elementAddress into size array index =>
    resultText into
      ("getelementptr " ++ arrayType size ++ ", " ++ pointer style (arrayType size) ++ " " ++
        (Register.named array).text ++ ", i32 0, i32 " ++ index.text)
  | arith into op left right =>
    resultText into (op.text ++ " i32 " ++ left.text ++ ", " ++ right.text)
  | compare into predicate ty left right =>
    resultText into
      ("icmp " ++ predicate.text ++ " " ++ ty.machine ++ " " ++ left.text ++ ", " ++ right.text)
  | widen into value => resultText into ("zext i1 " ++ value.text ++ " to i32")
  | call into function args =>
    resultText into
      ("call i32 @" ++ function ++ "(" ++
        ", ".intercalate (args.map fun arg => "i32 " ++ arg.text) ++ ")")
  | print into value =>
    resultText into
      ("call " ++ formattedType style ++ " @printf(" ++ formatArgument style ++ ", i32 " ++
        value.text ++ ")")
  | read into slot =>
    resultText into
      ("call " ++ formattedType style ++ " @scanf(" ++ formatArgument style ++ ", " ++
        pointer style "i32" ++ " " ++ (Register.named slot).text ++ ")")
  | jump label => "br label %" ++ label.text
  | branch condition yes no =>
    "br i1 " ++ condition.text ++ ", label %" ++ yes.text ++ ", label %" ++ no.text
  | ret value => "ret i32 " ++ value.text

/-- The text of a line. -/
def Line.text (style : PointerStyle) : Line → String
  | label l => l.text ++ ":"
  | instr i => "  " ++ i.text style

/-- The text lines of a function, the empty line before it included. -/
def Function.textLines (style : PointerStyle) (f : Function) : List String :=
  ["", "define i32 @" ++ f.name ++ "(" ++
      ", ".intercalate (f.params.map fun param => "i32 " ++ (Register.named param).text) ++
      ") \x7b"] ++
    f.lines.map (Line.text style) ++ ["\x7d"]

/-- The text lines that open every module. -/
def openingLines (style : PointerStyle) : List String :=
  ["declare i32 @printf(" ++ pointer style "i8" ++ ", ...) nounwind",
   "declare i32 @scanf(" ++ pointer style "i8" ++ ", ...)",
   "@.formatstr = internal constant [4 x i8] c\"%d\\0A\\00\""]

/-- The text lines of a module. -/
def Module.textLines (style : PointerStyle) (m : Module) : List String :=
  openingLines style ++ m.functions.flatMap (Function.textLines style)

/-- The text of a module. -/
def Module.text (style : PointerStyle) (m : Module) : String :=
  String.join ((m.textLines style).map fun line => line ++ "\n")

end IR

end DLang
