import DLang.IR.Text
import Mathlib.Data.List.Forall2

/-!
# The format of a module

What a module says in its text is stated here a second time, as a relation between the two that
spells every word itself: which instruction a line of words is, which operation or predicate a word
stands for, and how numbers, registers, labels and types are written.  It is the part of the grammar
of LLVM that modules need, in both styles of pointers, and it does not use the functions that write
modules.

A line of instructions is two blanks and the words of the instruction with a blank between any two.
A word may end in a comma or a parenthesis, and a call has the name of the function and the type of
its first argument in one word.

A text is in the format of a module just if the module is written as this text
(`Module.hasText_iff`).  So what is said of a module, by the meaning of its instructions or by their
shape, is said of the text.
-/

namespace DLang.IR

/-! ## Words -/

/-- The word of a register. -/
inductive Register.HasWord : Register → String → Prop
  | named (name : String) : HasWord (.named name) ("%" ++ name)
  | temporary (number : Nat) : HasWord (.temporary number) ("%tmp." ++ toString number)

/-- The word of an operand; a constant is written by its decimal numeral. -/
inductive Operand.HasWord : Operand → String → Prop
  | constant (value : Int32) : HasWord (.constant value) (toString value.toInt)
  | register {r : Register} {word : String} (h : r.HasWord word) : HasWord (.register r) word

/-- The word of what a label marks. -/
inductive Mark.HasWord : Mark → String → Prop
  | branchTrue : HasWord .branchTrue "if.true"
  | branchFalse : HasWord .branchFalse "if.false"
  | branchEnd : HasWord .branchEnd "if.end"
  | loopHead : HasWord .loopHead "while.loop"
  | loopBody : HasWord .loopBody "while.body"
  | loopEnd : HasWord .loopEnd "while.end"

/-- The word of a label. -/
inductive Label.HasWord : Label → String → Prop
  | entry : HasWord .entry "entry.0"
  | numbered {mark : Mark} {word : String} (h : mark.HasWord word) (number : Nat) :
    HasWord (.numbered mark number) (word ++ "." ++ toString number)

/-- The word of an operation. -/
inductive Opcode.HasWord : Opcode → String → Prop
  | add : HasWord .add "add"
  | sub : HasWord .sub "sub"
  | mul : HasWord .mul "mul"
  | udiv : HasWord .udiv "udiv"

/-- The word of a predicate. -/
inductive Predicate.HasWord : Predicate → String → Prop
  | eq : HasWord .eq "eq"
  | ne : HasWord .ne "ne"
  | slt : HasWord .slt "slt"
  | sle : HasWord .sle "sle"
  | sgt : HasWord .sgt "sgt"
  | sge : HasWord .sge "sge"

/-- The word of a type. -/
inductive TypeWord : Ty → String → Prop
  | int : TypeWord .int "i32"
  | bool : TypeWord .bool "i1"

/-- The word of the type of a pointer to an integer. -/
inductive IntPointerWord : PointerStyle → String → Prop
  | typed : IntPointerWord .typed "i32*"
  | untyped : IntPointerWord .untyped "ptr"

/-- The words of the type of a pointer to an array. -/
inductive ArrayPointerWords : PointerStyle → Nat → List String → Prop
  | typed (size : Nat) : ArrayPointerWords .typed size ["[" ++ toString size, "x", "i32]*"]
  | untyped (size : Nat) : ArrayPointerWords .untyped size ["ptr"]

/-- The words of the arguments of a call after the type of the first, up to the parenthesis. -/
inductive ArgumentWords : List Operand → List String → Prop
  | last {arg : Operand} {word : String} (h : arg.HasWord word) : ArgumentWords [arg] [word ++ ")"]
  | cons {arg : Operand} {word : String} {args : List Operand} {words : List String}
    (h : arg.HasWord word) (hrest : ArgumentWords args words) :
    ArgumentWords (arg :: args) ((word ++ ",") :: "i32" :: words)

/-- The words of a function and its arguments. -/
inductive CallWords (function : String) : List Operand → List String → Prop
  | empty : CallWords function [] ["@" ++ function ++ "()"]
  | args {args : List Operand} {words : List String} (h : ArgumentWords args words) :
    CallWords function args (("@" ++ function ++ "(i32") :: words)

/-- The words of a call of the function for output or input, up to its first argument, which is the
format. -/
inductive FormattedCallWords (function : String) : PointerStyle → List String → Prop
  | typed : FormattedCallWords function .typed
    ["call", "i32", "(i8*,", "...)", "@" ++ function ++ "(i8*", "getelementptr([4", "x", "i8],",
      "[4", "x", "i8]*", "@.formatstr,", "i32", "0,", "i32", "0),"]
  | untyped : FormattedCallWords function .untyped
    ["call", "i32", "(ptr,", "...)", "@" ++ function ++ "(ptr", "@.formatstr,"]

/-! ## Lines -/

/-- The words of an instruction. -/
inductive Instr.HasWords (style : PointerStyle) : Instr → List String → Prop
  | reserve (slot : String) : HasWords style (.reserve slot) ["%" ++ slot, "=", "alloca", "i32"]
  | reserveArray (slot : String) (size : Nat) :
    HasWords style (.reserveArray slot size)
      ["%" ++ slot, "=", "alloca", "[" ++ toString size, "x", "i32]"]
  | store {value : Operand} {address : Register} {v p a : String} (hvalue : value.HasWord v)
    (hpointer : IntPointerWord style p) (haddress : address.HasWord a) :
    HasWords style (.store value address) ["store", "i32", v ++ ",", p, a]
  | load (into : Nat) {address : Register} {p a : String} (hpointer : IntPointerWord style p)
    (haddress : address.HasWord a) :
    HasWords style (.load into address) ["%tmp." ++ toString into, "=", "load", "i32,", p, a]
  | elementAddress (into size : Nat) (array : String) {index : Operand} {p : List String}
    {i : String} (hpointer : ArrayPointerWords style size p) (hindex : index.HasWord i) :
    HasWords style (.elementAddress into size array index)
      (["%tmp." ++ toString into, "=", "getelementptr", "[" ++ toString size, "x", "i32],"] ++ p ++
        ["%" ++ array ++ ",", "i32", "0,", "i32", i])
  | arith (into : Nat) {op : Opcode} {left right : Operand} {o l r : String} (hop : op.HasWord o)
    (hleft : left.HasWord l) (hright : right.HasWord r) :
    HasWords style (.arith into op left right)
      ["%tmp." ++ toString into, "=", o, "i32", l ++ ",", r]
  | compare (into : Nat) {predicate : Predicate} {ty : Ty} {left right : Operand} {p t l r : String}
    (hpredicate : predicate.HasWord p) (hty : TypeWord ty t) (hleft : left.HasWord l)
    (hright : right.HasWord r) :
    HasWords style (.compare into predicate ty left right)
      ["%tmp." ++ toString into, "=", "icmp", p, t, l ++ ",", r]
  | widen (into : Nat) {value : Operand} {v : String} (hvalue : value.HasWord v) :
    HasWords style (.widen into value)
      ["%tmp." ++ toString into, "=", "zext", "i1", v, "to", "i32"]
  | call (into : Nat) {function : String} {args : List Operand} {c : List String}
    (hcall : CallWords function args c) :
    HasWords style (.call into function args)
      (["%tmp." ++ toString into, "=", "call", "i32"] ++ c)
  | print (into : Nat) {value : Operand} {c : List String} {v : String}
    (hcall : FormattedCallWords "printf" style c) (hvalue : value.HasWord v) :
    HasWords style (.print into value)
      (["%tmp." ++ toString into, "="] ++ c ++ ["i32", v ++ ")"])
  | read (into : Nat) (slot : String) {c : List String} {p : String}
    (hcall : FormattedCallWords "scanf" style c) (hpointer : IntPointerWord style p) :
    HasWords style (.read into slot)
      (["%tmp." ++ toString into, "="] ++ c ++ [p, "%" ++ slot ++ ")"])
  | jump {label : Label} {l : String} (hlabel : label.HasWord l) :
    HasWords style (.jump label) ["br", "label", "%" ++ l]
  | branch {condition : Operand} {yes no : Label} {c y n : String}
    (hcondition : condition.HasWord c) (hyes : yes.HasWord y) (hno : no.HasWord n) :
    HasWords style (.branch condition yes no)
      ["br", "i1", c ++ ",", "label", "%" ++ y ++ ",", "label", "%" ++ n]
  | ret {value : Operand} {v : String} (hvalue : value.HasWord v) :
    HasWords style (.ret value) ["ret", "i32", v]

/-- The text of a line. -/
inductive Line.HasText (style : PointerStyle) : Line → String → Prop
  | label {l : Label} {word : String} (h : l.HasWord word) : HasText style (.label l) (word ++ ":")
  | instr {i : Instr} {words : List String} (h : i.HasWords style words) :
    HasText style (.instr i) ("  " ++ " ".intercalate words)

/-! ## Functions and modules -/

/-- The lines of a function, the empty line before it included.  Its head has the parameters as a
call of the function would. -/
inductive Function.HasLines (style : PointerStyle) : Function → List String → Prop
  | mk {name : String} {params : List String} {lines : List Line} {head body : List String}
    (hhead : CallWords name (params.map fun param => .register (.named param)) head)
    (hbody : List.Forall₂ (Line.HasText style) lines body) :
    HasLines style ⟨name, params, lines⟩
      (["", " ".intercalate (["define", "i32"] ++ head ++ ["\x7b"])] ++ body ++ ["\x7d"])

/-- The lines that every module starts with. -/
inductive OpeningLines : PointerStyle → List String → Prop
  | typed : OpeningLines .typed
    ["declare i32 @printf(i8*, ...) nounwind", "declare i32 @scanf(i8*, ...)",
      "@.formatstr = internal constant [4 x i8] c\"%d\\0A\\00\""]
  | untyped : OpeningLines .untyped
    ["declare i32 @printf(ptr, ...) nounwind", "declare i32 @scanf(ptr, ...)",
      "@.formatstr = internal constant [4 x i8] c\"%d\\0A\\00\""]

/-- The text of a module. -/
inductive Module.HasText (style : PointerStyle) : Module → String → Prop
  | mk {functions : List Function} {opening : List String} {groups : List (List String)}
    (hopening : OpeningLines style opening)
    (h : List.Forall₂ (Function.HasLines style) functions groups) :
    HasText style ⟨functions⟩
      (String.join ((opening ++ groups.flatten).map fun line => line ++ "\n"))

/-! ## What is in the format is the text -/

lemma Register.HasWord.eq_text {r : Register} {word : String} (h : r.HasWord word) :
    word = r.text := by
  cases h <;> rfl

lemma Operand.HasWord.eq_text {x : Operand} {word : String} (h : x.HasWord word) :
    word = x.text := by
  cases h with
  | constant value => rfl
  | register h => exact h.eq_text

lemma Label.HasWord.eq_text {l : Label} {word : String} (h : l.HasWord word) : word = l.text := by
  cases h with
  | entry => rfl
  | numbered h number => cases h <;> rfl

lemma Opcode.HasWord.eq_text {op : Opcode} {word : String} (h : op.HasWord word) :
    word = op.text := by
  cases h <;> rfl

lemma Predicate.HasWord.eq_text {predicate : Predicate} {word : String}
    (h : predicate.HasWord word) : word = predicate.text := by
  cases h <;> rfl

lemma TypeWord.eq_machine {ty : Ty} {word : String} (h : TypeWord ty word) : word = ty.machine := by
  cases h <;> rfl

lemma IntPointerWord.eq_pointer {style : PointerStyle} {word : String}
    (h : IntPointerWord style word) : word = pointer style "i32" := by
  cases h with
  | typed => rfl
  | untyped => rfl

lemma ArgumentWords.text_eq {args : List Operand} {words : List String}
    (h : ArgumentWords args words) :
    " ".intercalate ("i32" :: words) =
      ", ".intercalate (args.map fun arg => "i32 " ++ arg.text) ++ ")" := by
  induction h with
  | last h =>
    rw [h.eq_text]
    exact String.ext (by simp)
  | @cons arg word args words h hrest ih =>
    have hargs : args.map (fun arg => "i32 " ++ arg.text) ≠ [] := by
      cases hrest <;> simp
    rw [h.eq_text, String.intercalate_cons_cons, String.intercalate_cons_cons, ih, List.map_cons,
      String.intercalate_cons_of_ne_nil hargs]
    exact String.ext (by simp)

lemma CallWords.ne_nil {function : String} {args : List Operand} {words : List String}
    (h : CallWords function args words) : words ≠ [] := by
  cases h <;> simp

lemma CallWords.text_eq {function : String} {args : List Operand} {words : List String}
    (h : CallWords function args words) :
    " ".intercalate words = "@" ++ function ++ "(" ++
      ", ".intercalate (args.map fun arg => "i32 " ++ arg.text) ++ ")" := by
  cases h with
  | empty => exact String.ext (by simp)
  | args h =>
    have hfunction : "@" ++ function ++ "(i32" = "@" ++ function ++ "(" ++ "i32" :=
      String.ext (by simp)
    rw [hfunction, String.intercalate_cons_append, h.text_eq, ← String.append_assoc]

lemma FormattedCallWords.ne_nil {function : String} {style : PointerStyle} {words : List String}
    (h : FormattedCallWords function style words) : words ≠ [] := by
  cases h <;> simp

lemma FormattedCallWords.text_eq {function : String} {style : PointerStyle} {words : List String}
    (h : FormattedCallWords function style words) :
    " ".intercalate words = "call " ++ formattedType style ++ " @" ++ function ++ "(" ++
      formatArgument style ++ "," := by
  cases h with
  | typed =>
    simp only [String.intercalate_cons_cons, String.intercalate_singleton, formattedType,
      formatArgument, pointer, String.append_assoc, String.reduceAppend]
    simp only [← String.append_assoc, String.reduceAppend]
  | untyped =>
    simp only [String.intercalate_cons_cons, String.intercalate_singleton, formattedType,
      formatArgument, pointer, String.append_assoc, String.reduceAppend]
    simp only [← String.append_assoc, String.reduceAppend]

/-- The words of an instruction are those of its text. -/
lemma Instr.HasWords.text_eq {style : PointerStyle} {i : Instr} {words : List String}
    (h : i.HasWords style words) : " ".intercalate words = i.text style := by
  apply String.ext
  unfold Instr.text
  cases h with
  | reserve slot => simp [Register.text]
  | reserveArray slot size => simp [Register.text, arrayType]
  | store hvalue hpointer haddress =>
    simp [hvalue.eq_text, hpointer.eq_pointer, haddress.eq_text]
  | load into hpointer haddress =>
    simp [resultText, Register.text, hpointer.eq_pointer, haddress.eq_text]
  | elementAddress into size array hpointer hindex =>
    cases hpointer <;>
      simp [resultText, Register.text, arrayType, pointer, hindex.eq_text]
  | arith into hop hleft hright =>
    simp [resultText, Register.text, hop.eq_text, hleft.eq_text, hright.eq_text]
  | compare into hpredicate hty hleft hright =>
    simp [resultText, Register.text, hpredicate.eq_text, hty.eq_machine, hleft.eq_text,
      hright.eq_text]
  | widen into hvalue => simp [resultText, Register.text, hvalue.eq_text]
  | call into hcall =>
    rw [String.intercalate_append_of_ne_nil (by simp) hcall.ne_nil, hcall.text_eq]
    simp [resultText, Register.text]
  | print into hcall hvalue =>
    rw [String.intercalate_append_of_ne_nil (by simp) (by simp),
      String.intercalate_append_of_ne_nil (by simp) hcall.ne_nil, hcall.text_eq]
    simp [resultText, Register.text, hvalue.eq_text]
  | read into slot hcall hpointer =>
    rw [String.intercalate_append_of_ne_nil (by simp) (by simp),
      String.intercalate_append_of_ne_nil (by simp) hcall.ne_nil, hcall.text_eq]
    simp [resultText, Register.text, hpointer.eq_pointer]
  | jump hlabel => simp [hlabel.eq_text]
  | branch hcondition hyes hno =>
    simp [hcondition.eq_text, hyes.eq_text, hno.eq_text]
  | ret hvalue => simp [hvalue.eq_text]

lemma Line.HasText.eq_text {style : PointerStyle} {line : Line} {text : String}
    (h : line.HasText style text) : text = line.text style := by
  cases h with
  | label h => rw [h.eq_text, Line.text]
  | instr h => rw [h.text_eq, Line.text]

/-- The head of a function. -/
lemma CallWords.headText_eq {name : String} {params : List String} {words : List String}
    (h : CallWords name (params.map fun param => .register (.named param)) words) :
    " ".intercalate (["define", "i32"] ++ words ++ ["\x7b"]) = "define i32 @" ++ name ++ "(" ++
      ", ".intercalate (params.map fun param => "i32 " ++ (Register.named param).text) ++
      ") \x7b" := by
  rw [String.intercalate_append_of_ne_nil (by simp) (by simp),
    String.intercalate_append_of_ne_nil (by simp) h.ne_nil, h.text_eq, List.map_map]
  exact String.ext (by simp [Function.comp_def, Operand.text])

lemma Function.HasLines.eq_textLines {style : PointerStyle} {g : Function} {lines : List String}
    (h : g.HasLines style lines) : lines = g.textLines style := by
  cases h with
  | @mk name params body head texts hhead hbody =>
    have htexts : texts = body.map (Line.text style) := by
      induction hbody with
      | nil => rfl
      | cons h _ ih => rw [h.eq_text, ih, List.map_cons]
    rw [htexts, hhead.headText_eq]
    rfl

lemma Module.HasText.eq_text {style : PointerStyle} {m : Module} {text : String}
    (h : m.HasText style text) : text = m.text style := by
  cases h with
  | @mk functions opening groups hopening hfunctions =>
    have hgroups : groups.flatten = functions.flatMap (Function.textLines style) := by
      induction hfunctions with
      | nil => rfl
      | cons h _ ih => rw [h.eq_textLines, List.flatten_cons, ih, List.flatMap_cons]
    have hlines : opening = openingLines style := by
      cases hopening with
      | typed => rfl
      | untyped => rfl
    rw [hgroups, hlines]
    rfl

/-! ## Every module has a text in the format -/

lemma Register.hasWord_text (r : Register) : r.HasWord r.text := by
  cases r with
  | named name => exact .named name
  | temporary number => exact .temporary number

lemma Operand.hasWord_text (x : Operand) : x.HasWord x.text := by
  cases x with
  | constant value => exact .constant value
  | register r => exact .register r.hasWord_text

lemma Label.hasWord_text (l : Label) : l.HasWord l.text := by
  cases l with
  | entry => exact .entry
  | numbered mark number =>
    have hmark : mark.HasWord mark.text := by cases mark <;> constructor
    exact .numbered hmark number

lemma Opcode.hasWord_text (op : Opcode) : op.HasWord op.text := by
  cases op <;> constructor

lemma Predicate.hasWord_text (predicate : Predicate) : predicate.HasWord predicate.text := by
  cases predicate <;> constructor

lemma typeWord_machine (ty : Ty) : TypeWord ty ty.machine := by
  cases ty <;> constructor

lemma intPointerWord_pointer (style : PointerStyle) :
    IntPointerWord style (pointer style "i32") := by
  cases style with
  | typed => exact .typed
  | untyped => exact .untyped

lemma exists_arrayPointerWords (style : PointerStyle) (size : Nat) :
    ∃ words, ArrayPointerWords style size words := by
  cases style with
  | typed => exact ⟨_, .typed size⟩
  | untyped => exact ⟨_, .untyped size⟩

lemma exists_formattedCallWords (function : String) (style : PointerStyle) :
    ∃ words, FormattedCallWords function style words := by
  cases style with
  | typed => exact ⟨_, .typed⟩
  | untyped => exact ⟨_, .untyped⟩

lemma exists_argumentWords (arg : Operand) (args : List Operand) :
    ∃ words, ArgumentWords (arg :: args) words := by
  induction args generalizing arg with
  | nil => exact ⟨_, .last arg.hasWord_text⟩
  | cons next rest ih =>
    obtain ⟨words, hwords⟩ := ih next
    exact ⟨_, .cons arg.hasWord_text hwords⟩

lemma exists_callWords (function : String) (args : List Operand) :
    ∃ words, CallWords function args words := by
  cases args with
  | nil => exact ⟨_, .empty⟩
  | cons arg rest =>
    obtain ⟨words, hwords⟩ := exists_argumentWords arg rest
    exact ⟨_, .args hwords⟩

lemma Instr.exists_hasWords (style : PointerStyle) (i : Instr) :
    ∃ words, i.HasWords style words := by
  have hpointer := intPointerWord_pointer style
  cases i with
  | reserve slot => exact ⟨_, .reserve slot⟩
  | reserveArray slot size => exact ⟨_, .reserveArray slot size⟩
  | store value address => exact ⟨_, .store value.hasWord_text hpointer address.hasWord_text⟩
  | load into address => exact ⟨_, .load into hpointer address.hasWord_text⟩
  | elementAddress into size array index =>
    obtain ⟨_, harray⟩ := exists_arrayPointerWords style size
    exact ⟨_, .elementAddress into size array harray index.hasWord_text⟩
  | arith into op left right =>
    exact ⟨_, .arith into op.hasWord_text left.hasWord_text right.hasWord_text⟩
  | compare into predicate ty left right =>
    exact ⟨_, .compare into predicate.hasWord_text (typeWord_machine ty) left.hasWord_text
      right.hasWord_text⟩
  | widen into value => exact ⟨_, .widen into value.hasWord_text⟩
  | call into function args =>
    obtain ⟨_, hcall⟩ := exists_callWords function args
    exact ⟨_, .call into hcall⟩
  | print into value =>
    obtain ⟨_, hcall⟩ := exists_formattedCallWords "printf" style
    exact ⟨_, .print into hcall value.hasWord_text⟩
  | read into slot =>
    obtain ⟨_, hcall⟩ := exists_formattedCallWords "scanf" style
    exact ⟨_, .read into slot hcall hpointer⟩
  | jump label => exact ⟨_, .jump label.hasWord_text⟩
  | branch condition yes no =>
    exact ⟨_, .branch condition.hasWord_text yes.hasWord_text no.hasWord_text⟩
  | ret value => exact ⟨_, .ret value.hasWord_text⟩

lemma Line.hasText_text (style : PointerStyle) (line : Line) :
    line.HasText style (line.text style) := by
  cases line with
  | label l => exact .label l.hasWord_text
  | instr i =>
    obtain ⟨words, hwords⟩ := i.exists_hasWords style
    rw [Line.text, ← hwords.text_eq]
    exact .instr hwords

lemma Function.hasLines_textLines (style : PointerStyle) (g : Function) :
    g.HasLines style (g.textLines style) := by
  obtain ⟨head, hhead⟩ :=
    exists_callWords g.name (g.params.map fun param => .register (.named param))
  have hbody : List.Forall₂ (Line.HasText style) g.lines (g.lines.map (Line.text style)) :=
    List.forall₂_map_right_iff.2 (List.forall₂_same.2 fun line _ => line.hasText_text style)
  have hlines : g.HasLines style _ := .mk hhead hbody
  rwa [hlines.eq_textLines] at hlines

lemma openingLines_inFormat (style : PointerStyle) : OpeningLines style (openingLines style) := by
  cases style with
  | typed => exact .typed
  | untyped => exact .untyped

/-- A text is in the format of a module just if it is the text that the module is written as. -/
lemma Module.hasText_iff {style : PointerStyle} {m : Module} {text : String} :
    m.HasText style text ↔ text = m.text style := by
  constructor
  · exact Module.HasText.eq_text
  · rintro rfl
    have hfunctions : List.Forall₂ (Function.HasLines style) m.functions
        (m.functions.map (Function.textLines style)) :=
      List.forall₂_map_right_iff.2 (List.forall₂_same.2 fun g _ => g.hasLines_textLines style)
    rw [Module.text, Module.textLines, List.flatMap_def]
    exact .mk (openingLines_inFormat style) hfunctions

end DLang.IR
