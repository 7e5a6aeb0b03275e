import DLang.Symbol.Table
import DLang.Tree.Text

/-!
# Verdicts on trees

Checking a tree does two things at once: it gives a verdict, and it annotates the tree with the
types and symbols it finds.  It stops at the first error, and then the tree is annotated as far as
checking went.  `Checked` holds both, so that nothing about a failed check is lost.
-/

namespace DLang

/-- A type that does not fit its place. -/
inductive TypeMismatch where
  /-- The condition of a branch or a loop is not a truth value. -/
  | condition (found : Ty)
  /-- The target or the value of an assignment to this name is not an integer. -/
  | assignment (target : String)
  /-- An operand of an arithmetic operator is not an integer. -/
  | operand (op : ArithOp)
  /-- An operand of a comparison is of a type whose values cannot be compared. -/
  | comparison (op : RelOp)
  /-- The index into this array is not an integer. -/
  | index (array : String)
  deriving DecidableEq, Repr

/-- The message of a type mismatch. -/
def TypeMismatch.message : TypeMismatch → String
  | condition found => "condition should be 'bool', found '" ++ found.name ++ "'"
  | assignment target => "type of arguments to assignment should be 'int': " ++ target
  | operand op => "type of arguments to binary operator should be 'int': " ++ op.text
  | comparison op =>
    "types of arguments to relational operator should be 'int' or 'bool': " ++ op.text
  | index array => "array index should be 'int': " ++ array

/-- Why a program breaks the rules of scopes and types. -/
inductive SemanticError where
  /-- The innermost scope has no variable, or no array, of this name. -/
  | undeclaredVariable (name : String)
  /-- The name does not stand for a function with this number of arguments. -/
  | undeclaredFunction (name : String) (arguments : Nat)
  | typeMismatch (mismatch : TypeMismatch)
  /-- The name is declared already in its scope, or is kept for the module itself. -/
  | redeclared (name : String)
  deriving DecidableEq, Repr

/-- The message of a semantic error. -/
def SemanticError.message : SemanticError → String
  | undeclaredVariable name => "undeclared variable: " ++ name
  | undeclaredFunction name arguments =>
    "undeclared function: " ++ name ++ " taking " ++ toString arguments ++ " argument(s)"
  | typeMismatch mismatch => "type check error: " ++ mismatch.message
  | redeclared name => "redeclared symbol: " ++ name

/-- A tree as far as it was annotated, and the verdict on it. -/
structure Checked (α β : Type) where
  tree : α
  verdict : Except SemanticError β

namespace Checked

variable {α β γ δ : Type}

/-- Rejects a tree. -/
def reject (tree : α) (error : SemanticError) : Checked α β :=
  ⟨tree, .error error⟩

/-- Accepts a tree with a result. -/
def accept (tree : α) (result : β) : Checked α β :=
  ⟨tree, .ok result⟩

/-- Goes on after the check of a part of a tree.  If the part was rejected, `whole` puts what it has
become back into the tree, and the rest of the tree stays as it is. -/
def andThen (part : Checked α β) (whole : α → γ) (next : α → β → Checked γ δ) : Checked γ δ :=
  match part.verdict with
  | .ok result => next part.tree result
  | .error error => reject (whole part.tree) error

/-- Puts a checked part back into its tree, with the same verdict. -/
def map (whole : α → γ) (part : Checked α β) : Checked γ β :=
  ⟨whole part.tree, part.verdict⟩

variable {part : Checked α β} {whole : α → γ} {next : α → β → Checked γ δ}

/-- After an accepted part the rest of the tree decides. -/
theorem andThen_of_ok {result : β} (h : part.verdict = .ok result) :
    part.andThen whole next = next part.tree result := by
  rw [andThen, h]

/-- A rejected part is the end of the check. -/
theorem andThen_of_error {error : SemanticError} (h : part.verdict = .error error) :
    part.andThen whole next = reject (whole part.tree) error := by
  rw [andThen, h]

/-- A tree is accepted only after its part was. -/
theorem exists_of_andThen_ok {result : δ} (h : (part.andThen whole next).verdict = .ok result) :
    ∃ first, part.verdict = .ok first ∧ (next part.tree first).verdict = .ok result := by
  cases hpart : part.verdict with
  | ok first =>
    rw [andThen_of_ok hpart] at h
    exact ⟨first, rfl, h⟩
  | error error =>
    rw [andThen_of_error hpart] at h
    cases h

end Checked

end DLang
