import DLang.IR.Text
import DLang.Proofs.Lexing.Numerals
import Mathlib.Data.List.Nodup

/-!
# Definitions, uses and jumps

The vocabulary in which the form of a module is described: which register an instruction defines
and at which type, which operands it uses and at which types, which labels it jumps to, and where a
block ends.

Definitions are compared by their texts.  In a function all names written after `%` share one name
space, those of registers and those of labels alike.  The names of temporaries and of labels contain
a dot, so a variable or a parameter whose name has none can never take the name of either; and the
number at the end of a label's text tells it from every label with another number.

The types of operands are those that the texts of instructions write: an operand is written at the
type that `Instr.operands` gives it (`Instr.writes_of_mem_operands`).
-/

namespace DLang.IR

/-! ## Types of values -/

/-- The types of the values that registers hold. -/
inductive ValueType where
  /-- An integer or a truth value. -/
  | scalar (ty : Ty)
  /-- The address of an integer. -/
  | address
  /-- The address of an array of the given size. -/
  | arrayAddress (size : Nat)
  deriving DecidableEq, Repr

/-- The text of the type of a value. -/
def ValueType.text (style : PointerStyle) : ValueType → String
  | scalar ty => ty.machine
  | address => pointer style "i32"
  | arrayAddress size => pointer style (arrayType size)

namespace Instr

/-- The register that an instruction defines, with the type of the value it puts there. -/
def definition? : Instr → Option (Register × ValueType)
  | reserve slot => some (.named slot, .address)
  | reserveArray slot size => some (.named slot, .arrayAddress size)
  | load into _ => some (.temporary into, .scalar .int)
  | elementAddress into _ _ _ => some (.temporary into, .address)
  | arith into _ _ _ => some (.temporary into, .scalar .int)
  | compare into _ _ _ _ => some (.temporary into, .scalar .bool)
  | widen into _ => some (.temporary into, .scalar .int)
  | call into _ _ => some (.temporary into, .scalar .int)
  | print into _ => some (.temporary into, .scalar .int)
  | read into _ => some (.temporary into, .scalar .int)
  | store _ _ | jump _ | branch _ _ _ | ret _ => none

/-- The operands that an instruction uses, each with the type at which its text writes it.  A truth
value is used by a branch, by widening it and by a comparison of truth values, and the address of an
array by the address of one of its elements; everything else uses integers and addresses of them. -/
def operands : Instr → List (Operand × ValueType)
  | reserve _ | reserveArray _ _ | jump _ => []
  | store value address => [(value, .scalar .int), (.register address, .address)]
  | load _ address => [(.register address, .address)]
  | elementAddress _ size array index =>
    [(.register (.named array), .arrayAddress size), (index, .scalar .int)]
  | arith _ _ left right => [(left, .scalar .int), (right, .scalar .int)]
  | compare _ _ ty left right => [(left, .scalar ty), (right, .scalar ty)]
  | widen _ value => [(value, .scalar .bool)]
  | call _ _ args => args.map fun arg => (arg, .scalar .int)
  | print _ value => [(value, .scalar .int)]
  | read _ slot => [(.register (.named slot), .address)]
  | branch condition _ _ => [(condition, .scalar .bool)]
  | ret value => [(value, .scalar .int)]

/-- Whether an instruction reserves a slot. -/
def isReservation : Instr → Bool
  | reserve _ | reserveArray _ _ => true
  | _ => false

/-- Whether an instruction ends its block. -/
def isTerminator : Instr → Bool
  | jump _ | branch _ _ _ | ret _ => true
  | _ => false

/-- The labels that an instruction names as places to go on at. -/
def targets : Instr → List Label
  | jump label => [label]
  | branch _ yes no => [yes, no]
  | _ => []

/-- An instruction with a result does not end its block. -/
lemma isTerminator_of_definition? {i : Instr} {d : Register × ValueType}
    (h : i.definition? = some d) : i.isTerminator = false := by
  cases i with
  | jump _ => cases h
  | branch _ _ _ => cases h
  | ret _ => cases h
  | _ => rfl

/-- Only the end of a block names labels. -/
lemma targets_of_isTerminator {i : Instr} (h : i.isTerminator = false) : i.targets = [] := by
  cases i with
  | jump _ => cases h
  | branch _ _ _ => cases h
  | _ => rfl

end Instr

/-! ## Lines -/

namespace Line

/-- The register that a line defines, with its type. -/
def definition? : Line → Option (Register × ValueType)
  | label _ => none
  | instr i => i.definition?

/-- The label that a line is. -/
def label? : Line → Option Label
  | label l => some l
  | instr _ => none

/-- The labels that a line names as places to go on at. -/
def targets : Line → List Label
  | label _ => []
  | instr i => i.targets

/-- Whether a line starts a block or ends one. -/
def isBoundary : Line → Bool
  | label _ => true
  | instr i => i.isTerminator

end Line

/-- The registers that lines define, in order, with their types. -/
def definitions (lines : List Line) : List (Register × ValueType) :=
  lines.filterMap Line.definition?

/-- The labels among lines, in order. -/
def labels (lines : List Line) : List Label :=
  lines.filterMap Line.label?

/-- The labels that lines name as places to go on at, in order. -/
def targets (lines : List Line) : List Label :=
  lines.flatMap Line.targets

/-- The registers of a function, its parameters first, with their types. -/
def Function.registers (g : Function) : List (Register × ValueType) :=
  g.params.map (fun param => (.named param, .scalar .int)) ++ definitions g.lines

section Lines

variable (lines lines' : List Line) (code : List Instr)

@[simp] lemma definitions_nil : definitions [] = [] := rfl

@[simp] lemma definitions_append :
    definitions (lines ++ lines') = definitions lines ++ definitions lines' :=
  List.filterMap_append

@[simp] lemma definitions_label (l : Label) :
    definitions (.label l :: lines) = definitions lines := rfl

lemma definitions_instr (i : Instr) :
    definitions (.instr i :: lines) = i.definition?.toList ++ definitions lines := by
  rw [definitions, List.filterMap_cons, Line.definition?]
  cases i.definition? <;> rfl

@[simp] lemma labels_nil : labels [] = [] := rfl

@[simp] lemma labels_append : labels (lines ++ lines') = labels lines ++ labels lines' :=
  List.filterMap_append

@[simp] lemma labels_label (l : Label) : labels (.label l :: lines) = l :: labels lines := rfl

@[simp] lemma labels_instr (i : Instr) : labels (.instr i :: lines) = labels lines := rfl

@[simp] lemma labels_map_instr : labels (code.map .instr) = [] := by
  induction code with
  | nil => rfl
  | cons i rest ih => rw [List.map_cons, labels_instr, ih]

@[simp] lemma targets_nil : targets [] = [] := rfl

@[simp] lemma targets_append : targets (lines ++ lines') = targets lines ++ targets lines' :=
  List.flatMap_append

@[simp] lemma targets_label (l : Label) : targets (.label l :: lines) = targets lines := rfl

@[simp] lemma targets_instr (i : Instr) :
    targets (.instr i :: lines) = i.targets ++ targets lines :=
  List.flatMap_cons

end Lines

/-! ## Names -/

/-- The number of a label; that of the entry is zero. -/
def Label.number : Label → Nat
  | entry => 0
  | numbered _ number => number

/-- The name of a label, as a jump to it writes it. -/
def Label.name (l : Label) : String :=
  "%" ++ l.text

/-- The names that a function defines: its registers, then its labels. -/
def Function.names (g : Function) : List String :=
  g.registers.map (fun definition => definition.1.text) ++ (labels g.lines).map Label.name

lemma dot_notMem_toString (n : Nat) : '.' ∉ (toString n).toList := by
  intro h
  rw [Nat.toString_eq_repr, Nat.toList_repr] at h
  have hdigit := Nat.isDigit_of_mem_toDigits (by omega) (by omega) h
  exact absurd hdigit (by decide)

/-- Two texts that end with a dot and a number end with the same number if they are equal. -/
lemma eq_of_append_dot_eq {s s' : String} {m n : Nat}
    (h : s ++ "." ++ toString m = s' ++ "." ++ toString n) : m = n := by
  have hlist : s.toList ++ '.' :: (toString m).toList =
      s'.toList ++ '.' :: (toString n).toList := by
    simpa using congrArg String.toList h
  apply Text.eq_of_toString_eq
  apply String.ext
  -- The two dots stand at the same place, since there is no other dot after either.
  rcases List.append_eq_append_iff.1 hlist with ⟨between, _, heq⟩ | ⟨between, _, heq⟩
  · cases between with
    | nil => simpa using heq
    | cons c rest =>
      obtain ⟨_, htail⟩ := List.cons.inj heq
      exact absurd (htail ▸ by simp) (dot_notMem_toString m)
  · cases between with
    | nil => simpa using heq.symm
    | cons c rest =>
      obtain ⟨_, htail⟩ := List.cons.inj heq
      exact absurd (htail ▸ by simp) (dot_notMem_toString n)

lemma Label.exists_text_eq (l : Label) : ∃ stem, l.text = stem ++ "." ++ toString l.number := by
  cases l with
  | entry => exact ⟨"entry", by decide⟩
  | numbered mark number => exact ⟨mark.text, rfl⟩

/-- Labels with different numbers have different texts. -/
lemma Label.number_eq_of_text_eq {l l' : Label} (h : l.text = l'.text) : l.number = l'.number := by
  obtain ⟨stem, hstem⟩ := l.exists_text_eq
  obtain ⟨stem', hstem'⟩ := l'.exists_text_eq
  rw [hstem, hstem'] at h
  exact eq_of_append_dot_eq h

lemma Register.text_named_inj {name name' : String} :
    (named name).text = (named name').text ↔ name = name' :=
  String.append_right_inj "%"

lemma Register.text_temporary_inj {m n : Nat} :
    (temporary m).text = (temporary n).text ↔ m = n := by
  constructor
  · intro h
    exact Text.eq_of_toString_eq ((String.append_right_inj "%tmp.").1 h)
  · rintro rfl
    rfl

/-- A register that is named without a dot is none of the temporaries. -/
lemma Register.text_named_ne_temporary {name : String} (hname : '.' ∉ name.toList) (n : Nat) :
    (named name).text ≠ (temporary n).text := by
  intro h
  have hlist : name.toList = "tmp.".toList ++ (toString n).toList := by
    simpa [Register.text] using congrArg String.toList h
  apply hname
  simp [hlist]

/-- A register that is named without a dot has the name of no label. -/
lemma Register.text_named_ne_label {name : String} (hname : '.' ∉ name.toList) (l : Label) :
    (named name).text ≠ l.name := by
  intro h
  have hlist : name.toList = l.text.toList := by
    simpa [Register.text, Label.name] using congrArg String.toList h
  obtain ⟨stem, hstem⟩ := l.exists_text_eq
  apply hname
  simp [hlist, hstem]

/-- The text of no label starts as those of temporaries do. -/
lemma Register.text_temporary_ne_label (n : Nat) (l : Label) : (temporary n).text ≠ l.name := by
  intro h
  have hhead : l.text.toList.head? = some 't' := by
    have hlist : "tmp.".toList ++ (toString n).toList = l.text.toList := by
      simpa [Register.text, Label.name] using congrArg String.toList h
    simp [← hlist]
  cases l with
  | entry => exact absurd hhead (by decide)
  | numbered mark number => cases mark <;> simp [Label.text, Mark.text] at hhead

/-! ## The texts of operands -/

/-- The text of an instruction writes an operand right after its type, or after an operand of the
same type and a comma. -/
def Instr.Writes (style : PointerStyle) (i : Instr) (x : Operand) (ty : ValueType) : Prop :=
  ∃ before between after,
    i.text style = before ++ ty.text style ++ " " ++ between ++ x.text ++ after ∧
      (between = "" ∨ ∃ left, (left, ty) ∈ i.operands ∧ between = left.text ++ ", ")

lemma exists_intercalate_eq {separator s : String} {list : List String} (h : s ∈ list) :
    ∃ before after, separator.intercalate list = before ++ s ++ after := by
  induction list with
  | nil => cases h
  | cons first rest ih =>
    rcases List.mem_cons.1 h with rfl | h
    · cases rest with
      | nil => exact ⟨"", "", by simp⟩
      | cons second rest =>
        exact ⟨"", separator ++ separator.intercalate (second :: rest),
          by simp [String.intercalate_cons_cons, String.append_assoc]⟩
    · obtain ⟨before, after, heq⟩ := ih h
      cases rest with
      | nil => cases h
      | cons second rest =>
        refine ⟨first ++ separator ++ before, after, ?_⟩
        rw [String.intercalate_cons_cons, heq]
        simp [String.append_assoc]

/-- Every operand of an instruction is written at the type that `Instr.operands` gives it. -/
lemma Instr.writes_of_mem_operands (style : PointerStyle) {i : Instr} {x : Operand} {ty : ValueType}
    (h : (x, ty) ∈ i.operands) : i.Writes style x ty := by
  unfold Instr.Writes Instr.text
  cases i with
  | reserve slot => cases h
  | reserveArray slot size => cases h
  | jump label => cases h
  | store value address =>
    rcases List.mem_pair.1 h with heq | heq
    · cases heq
      refine ⟨"store ", "", ", " ++ pointer style "i32" ++ " " ++ address.text, ?_, .inl rfl⟩
      exact String.ext (by simp [ValueType.text, Ty.machine])
    · cases heq
      refine ⟨"store i32 " ++ value.text ++ ", ", "", "", ?_, .inl rfl⟩
      simp [ValueType.text, Operand.text]
  | load into address =>
    cases List.mem_singleton.1 h
    refine ⟨(Register.temporary into).text ++ " = load i32, ", "", "", ?_, .inl rfl⟩
    exact String.ext (by simp [resultText, ValueType.text, Operand.text])
  | elementAddress into size array index =>
    rcases List.mem_pair.1 h with heq | heq
    · cases heq
      refine ⟨(Register.temporary into).text ++ " = getelementptr " ++ arrayType size ++ ", ", "",
        ", i32 0, i32 " ++ index.text, ?_, .inl rfl⟩
      exact String.ext (by simp [resultText, ValueType.text, Operand.text])
    · cases heq
      refine ⟨(Register.temporary into).text ++ " = getelementptr " ++ arrayType size ++ ", " ++
        pointer style (arrayType size) ++ " " ++ (Register.named array).text ++ ", i32 0, ", "", "",
        ?_, .inl rfl⟩
      exact String.ext (by simp [resultText, ValueType.text, Ty.machine])
  | arith into op left right =>
    rcases List.mem_pair.1 h with heq | heq
    · cases heq
      refine ⟨(Register.temporary into).text ++ " = " ++ op.text ++ " ", "",
        ", " ++ right.text, ?_, .inl rfl⟩
      exact String.ext (by simp [resultText, ValueType.text, Ty.machine])
    · cases heq
      refine ⟨(Register.temporary into).text ++ " = " ++ op.text ++ " ", left.text ++ ", ",
        "", ?_, .inr ⟨left, List.mem_cons_self, rfl⟩⟩
      exact String.ext (by simp [resultText, ValueType.text, Ty.machine])
  | compare into predicate ty left right =>
    rcases List.mem_pair.1 h with heq | heq
    · cases heq
      refine ⟨(Register.temporary into).text ++ " = icmp " ++ predicate.text ++ " ", "",
        ", " ++ right.text, ?_, .inl rfl⟩
      exact String.ext (by simp [resultText, ValueType.text])
    · cases heq
      refine ⟨(Register.temporary into).text ++ " = icmp " ++ predicate.text ++ " ",
        left.text ++ ", ", "", ?_, .inr ⟨left, List.mem_cons_self, rfl⟩⟩
      exact String.ext (by simp [resultText, ValueType.text])
  | widen into value =>
    cases List.mem_singleton.1 h
    refine ⟨(Register.temporary into).text ++ " = zext ", "", " to i32", ?_, .inl rfl⟩
    exact String.ext (by simp [resultText, ValueType.text, Ty.machine])
  | call into function args =>
    obtain ⟨arg, harg, heq⟩ := List.mem_map.1 h
    cases heq
    obtain ⟨before, after, hargs⟩ : ∃ before after,
        ", ".intercalate (args.map fun arg => "i32 " ++ arg.text) =
          before ++ ("i32 " ++ x.text) ++ after :=
      exists_intercalate_eq (List.mem_map.2 ⟨x, harg, rfl⟩)
    refine ⟨(Register.temporary into).text ++ " = call i32 @" ++ function ++ "(" ++ before, "",
      after ++ ")", ?_, .inl rfl⟩
    dsimp only
    rw [hargs]
    exact String.ext (by simp [resultText, ValueType.text, Ty.machine])
  | print into value =>
    cases List.mem_singleton.1 h
    refine ⟨(Register.temporary into).text ++ " = call " ++ formattedType style ++ " @printf(" ++
      formatArgument style ++ ", ", "", ")", ?_, .inl rfl⟩
    exact String.ext (by simp [resultText, ValueType.text, Ty.machine])
  | read into slot =>
    cases List.mem_singleton.1 h
    refine ⟨(Register.temporary into).text ++ " = call " ++ formattedType style ++ " @scanf(" ++
      formatArgument style ++ ", ", "", ")", ?_, .inl rfl⟩
    exact String.ext (by simp [resultText, ValueType.text, Operand.text])
  | branch condition yes no =>
    cases List.mem_singleton.1 h
    refine ⟨"br ", "", ", label %" ++ yes.text ++ ", label %" ++ no.text, ?_, .inl rfl⟩
    exact String.ext (by simp [ValueType.text, Ty.machine])
  | ret value =>
    cases List.mem_singleton.1 h
    refine ⟨"ret ", "", "", ?_, .inl rfl⟩
    exact String.ext (by simp [ValueType.text, Ty.machine])

end DLang.IR
