import DLang.Tree.Basic

/-!
# Modules of the intermediate representation

A module is a list of functions, and a function is a list of lines: labels and instructions.  The
instructions are those forms of LLVM IR that programs need, as data; how they are written, and how
pointer types are spelled, is the business of the module's text.

Every instruction with a result puts it into a fresh temporary, and temporaries are numbered over
the whole module.  The other registers carry the name of a variable, an array or a parameter.
-/

namespace DLang.IR

/-- A register. -/
inductive Register where
  /-- The register of a parameter, a variable or an array. -/
  | named (name : String)
  /-- A temporary, by its number. -/
  | temporary (number : Nat)
  deriving DecidableEq, Repr

/-- A value that an instruction uses. -/
inductive Operand where
  | constant (value : Int32)
  | register (register : Register)
  deriving DecidableEq, Repr

/-- The operand that is a temporary. -/
abbrev Operand.temporary (number : Nat) : Operand :=
  .register (.temporary number)

/-- What a numbered label marks. -/
inductive Mark where
  | branchTrue
  | branchFalse
  | branchEnd
  | loopHead
  | loopBody
  | loopEnd
  deriving DecidableEq, Repr

/-- A label. -/
inductive Label where
  /-- The label at the head of every function. -/
  | entry
  | numbered (mark : Mark) (number : Nat)
  deriving DecidableEq, Repr

/-- An operation on two integers. -/
inductive Opcode where
  | add
  | sub
  | mul
  /-- Division of unsigned numbers. -/
  | udiv
  deriving DecidableEq, Repr

/-- A predicate that compares two operands.  The order is that of signed numbers. -/
inductive Predicate where
  | eq
  | ne
  | slt
  | sle
  | sgt
  | sge
  deriving DecidableEq, Repr

/-- An instruction.  Where there is a result, `into` is the number of its temporary. -/
inductive Instr where
  /-- Reserves a slot for an integer. -/
  | reserve (slot : String)
  /-- Reserves a slot for an array. -/
  | reserveArray (slot : String) (size : Nat)
  | store (value : Operand) (address : Register)
  | load (into : Nat) (address : Register)
  /-- The address of an element of an array of the given size. -/
  | elementAddress (into : Nat) (size : Nat) (array : String) (index : Operand)
  | arith (into : Nat) (op : Opcode) (left right : Operand)
  /-- A comparison of two operands of the given type. -/
  | compare (into : Nat) (predicate : Predicate) (ty : Ty) (left right : Operand)
  /-- Widens a truth value to an integer. -/
  | widen (into : Nat) (value : Operand)
  | call (into : Nat) (function : String) (args : List Operand)
  | print (into : Nat) (value : Operand)
  | read (into : Nat) (slot : String)
  | jump (label : Label)
  | branch (condition : Operand) (yes no : Label)
  | ret (value : Operand)
  deriving DecidableEq, Repr

/-- A line of a function. -/
inductive Line where
  | label (label : Label)
  | instr (instr : Instr)
  deriving DecidableEq, Repr

/-- A function: its name, the names of its parameters, and its lines. -/
structure Function where
  name : String
  params : List String
  lines : List Line
  deriving DecidableEq, Repr

/-- A module. -/
structure Module where
  functions : List Function
  deriving DecidableEq, Repr

end DLang.IR
