import DLang.Proofs.Grammar.Names
import DLang.Proofs.Lexing.Numerals
import DLang.Proofs.Lowering.Mentions
import DLang.Proofs.Module.Spelling

/-!
# Names in the text of a module

In the text of a module a name stands after a percent sign or an at sign.  There are names of the
program, which are identifiers and have no dot; and there are names that lowering makes up, those of
temporaries and labels, which have one.

A respelling writes some of these names anew (`IR.Respelling`): it says what becomes of each name
of the program, of each temporary and of each label, and also what becomes of the word that the name
is written as.  `replaceNames` replaces such words in a text and knows nothing of modules.
`Replaces u u'` says that it turns `u` into `u'` in front of anything that does not go on with a
name, so that the texts of instructions can be put together from those of their parts.  To respell
an instruction is to replace the names in its text (`IR.Instr.replaces`).
-/

namespace DLang

/-! ## Replacing names in a text -/

/-- Whether a character can stand in a name. -/
def isNameChar (c : Char) : Bool :=
  Segment.isWordChar c || c == '.'

/-- Replaces each name after a percent sign or an at sign.  `skip` characters belong to a name
replaced before. -/
def replaceNames (word : List Char → List Char) : Nat → List Char → List Char
  | _, [] => []
  | skip + 1, _ :: rest => replaceNames word skip rest
  | 0, c :: rest =>
    if c = '%' ∨ c = '@' then
      let name := rest.takeWhile isNameChar
      c :: (word name ++ replaceNames word name.length rest)
    else c :: replaceNames word 0 rest

/-- Replaces the names in a line.  A name with a dot may also stand at its head, for a label. -/
def replaceLine (word : List Char → List Char) (line : String) : String :=
  let head := line.toList.takeWhile isNameChar
  String.ofList ((if '.' ∈ head then word head else head) ++
    replaceNames word 0 (line.toList.dropWhile isNameChar))

namespace IR

variable {word : List Char → List Char} {u u' v v' w t : List Char}

/-- No name goes on into these characters. -/
def Apart (t : List Char) : Prop :=
  t.head?.all (fun c => !isNameChar c) = true

/-- No name begins in these characters. -/
def Nameless (u : List Char) : Prop :=
  u.all (fun c => c != '%' && c != '@') = true

/-- The names in `u` are replaced to give `u'`, whatever comes after and does not go on with a
name. -/
def Replaces (word : List Char → List Char) (u u' : List Char) : Prop :=
  ∀ t, Apart t → replaceNames word 0 (u ++ t) = u' ++ replaceNames word 0 t

lemma Apart.append (hu : Apart u) (hv : Apart v) : Apart (u ++ v) := by
  cases u with
  | nil => exact hv
  | cons c u => exact hu

/-- A maximal run of characters of names. -/
lemma takeWhile_isNameChar (hw : ∀ d ∈ w, isNameChar d = true) (ht : Apart t) :
    (w ++ t).takeWhile isNameChar = w := by
  refine Segment.takeWhile_of_run hw fun d hd => ?_
  rw [Apart, hd] at ht
  simpa using ht

lemma nameless_append : Nameless (u ++ v) ↔ Nameless u ∧ Nameless v := by
  unfold Nameless
  rw [List.all_append, Bool.and_eq_true]

lemma replaceNames_skip (word : List Char → List Char) (w t : List Char) :
    replaceNames word w.length (w ++ t) = replaceNames word 0 t := by
  induction w with
  | nil => rfl
  | cons c w ih => exact ih

lemma replaceNames_of_nameless (hu : Nameless u) (t : List Char) :
    replaceNames word 0 (u ++ t) = u ++ replaceNames word 0 t := by
  induction u with
  | nil => rfl
  | cons c u ih =>
    unfold Nameless at hu
    rw [List.all_cons, Bool.and_eq_true, Bool.and_eq_true, bne_iff_ne, bne_iff_ne] at hu
    rw [List.cons_append, replaceNames, if_neg (not_or.2 hu.1), ih hu.2, List.cons_append]

namespace Replaces

lemma of_nameless (hu : Nameless u) : Replaces word u u :=
  fun t _ => replaceNames_of_nameless hu t

/-- Characters without names go before anything. -/
lemma prepend (hu : Nameless u) (hv : Replaces word v v') :
    Replaces word (u ++ v) (u ++ v') := by
  intro t ht
  rw [List.append_assoc, replaceNames_of_nameless hu, hv t ht, List.append_assoc]

/-- Characters with names go before what does not go on with a name. -/
lemma append (hu : Replaces word u u') (hv : Replaces word v v') (hapart : Apart v) :
    Replaces word (u ++ v) (u' ++ v') := by
  intro t ht
  rw [List.append_assoc, hu _ (hapart.append ht), hv t ht, List.append_assoc]

/-- A name after its sign. -/
lemma name {c : Char} (hc : c = '%' ∨ c = '@') (hw : ∀ d ∈ w, isNameChar d = true) :
    Replaces word (c :: w) (c :: word w) := by
  intro t ht
  rw [List.cons_append, replaceNames, if_pos hc, takeWhile_isNameChar hw ht]
  show c :: (word w ++ replaceNames word w.length (w ++ t)) = _
  rw [replaceNames_skip]
  rfl

/-- A whole line. -/
lemma replaceNames_eq (h : Replaces word u u') : replaceNames word 0 u = u' := by
  have hline := h [] rfl
  rwa [List.append_nil, replaceNames, List.append_nil] at hline

end Replaces

/-! ## Characters of names -/

lemma isNameChar_of_isIdentifier {name : String} (h : isIdentifier name = true) :
    ∀ c ∈ name.toList, isNameChar c = true := by
  intro c hc
  rw [isNameChar, isWordChar_of_isIdentifier h c hc, Bool.true_or]

lemma isNameChar_of_mem_toString {n : Nat} : ∀ c ∈ (toString n).toList, isNameChar c = true := by
  intro c hc
  have hdigit := Text.isDigit_of_mem_toString hc
  rw [isNameChar, Segment.isWordChar_iff.2 (.inr hdigit), Bool.true_or]

lemma isNameChar_of_mem_temporary {n : Nat} :
    ∀ c ∈ ("tmp." ++ toString n).toList, isNameChar c = true := by
  rw [String.toList_append]
  exact List.forall_mem_append.2 ⟨List.all_eq_true.1 rfl, isNameChar_of_mem_toString⟩

lemma isNameChar_of_mem_label (l : Label) : ∀ c ∈ l.text.toList, isNameChar c = true := by
  cases l with
  | entry => exact List.all_eq_true.1 rfl
  | numbered mark number =>
    rw [Label.text, String.toList_append, String.toList_append]
    refine List.forall_mem_append.2 ⟨?_, isNameChar_of_mem_toString⟩
    cases mark <;> exact List.all_eq_true.1 rfl

lemma dot_mem_label (l : Label) : '.' ∈ l.text.toList := by
  cases l with
  | entry => decide
  | numbered mark number =>
    rw [Label.text, String.toList_append, String.toList_append]
    refine List.mem_append_left _ (List.mem_append_right _ ?_)
    decide

lemma nameless_of_isNameChar {w : List Char} (h : ∀ c ∈ w, isNameChar c = true) :
    Nameless w := by
  refine List.all_eq_true.2 fun c hc => ?_
  have hne : ∀ d : Char, isNameChar d = false → c ≠ d := by
    rintro d hd rfl
    exact absurd (h c hc) (by simp [hd])
  rw [Bool.and_eq_true, bne_iff_ne, bne_iff_ne]
  exact ⟨hne '%' (by decide), hne '@' (by decide)⟩

lemma nameless_toString (n : Nat) : Nameless (toString n).toList :=
  nameless_of_isNameChar isNameChar_of_mem_toString

lemma nameless_decimal (value : Int32) : Nameless (Text.decimal value).toList := by
  unfold Text.decimal
  cases value.toInt with
  | ofNat n => exact nameless_toString n
  | negSucc n =>
    show Nameless ("-" ++ toString (n + 1)).toList
    rw [String.toList_append]
    exact nameless_append.2 ⟨rfl, nameless_toString (n + 1)⟩

lemma nameless_arrayType (size : Nat) : Nameless (arrayType size).toList := by
  rw [arrayType, String.toList_append, String.toList_append]
  exact nameless_append.2 ⟨nameless_append.2 ⟨rfl, nameless_toString size⟩, rfl⟩

lemma nameless_pointer (style : PointerStyle) {pointee : String} (h : Nameless pointee.toList) :
    Nameless (pointer style pointee).toList := by
  cases style with
  | typed =>
    rw [pointer, String.toList_append]
    exact nameless_append.2 ⟨h, rfl⟩
  | untyped => exact (rfl : Nameless "ptr".toList)

lemma nameless_formattedType (style : PointerStyle) : Nameless (formattedType style).toList := by
  cases style <;> rfl

lemma Opcode.nameless_text (op : Opcode) : Nameless op.text.toList := by
  cases op <;> rfl

lemma Predicate.nameless_text (predicate : Predicate) : Nameless predicate.text.toList := by
  cases predicate <;> rfl

lemma nameless_machine (ty : Ty) : Nameless ty.machine.toList := by
  cases ty <;> rfl

/-! ## Respellings -/

/-- A substitution, and what it does to the words that names are written as.  The names that every
module has stay. -/
structure Respelling extends Substitution where
  word : List Char → List Char
  word_name : ∀ name, isIdentifier name = true → word name.toList = (onName name).toList
  word_temporary : ∀ n,
    word ("tmp." ++ toString n).toList = ("tmp." ++ toString (onTemporary n)).toList
  word_label : ∀ l, word l.text.toList = (onLabel l).text.toList
  word_format : word ".formatstr".toList = ".formatstr".toList
  onName_reserved : ∀ name ∈ reservedNames, onName name = name

variable (σ : Respelling)

/-! ## Parts of instructions -/

lemma Register.replaces_named {name : String} (h : isIdentifier name = true) :
    Replaces σ.word (Register.named name).text.toList
      (Register.named (σ.onName name)).text.toList := by
  rw [Register.text, Register.text, String.toList_append, String.toList_append,
    ← σ.word_name name h]
  exact Replaces.name (.inl rfl) (isNameChar_of_isIdentifier h)

lemma Register.replaces_temporary (number : Nat) :
    Replaces σ.word (Register.temporary number).text.toList
      (Register.temporary (σ.onTemporary number)).text.toList := by
  have htext (n : Nat) :
      (Register.temporary n).text.toList = '%' :: ("tmp." ++ toString n).toList := by
    rw [Register.text, String.toList_append, String.toList_append]
    rfl
  rw [htext, htext, ← σ.word_temporary]
  exact Replaces.name (.inl rfl) isNameChar_of_mem_temporary

lemma Register.replaces {reg : Register} (h : ∀ name ∈ reg.mentioned, isIdentifier name = true) :
    Replaces σ.word reg.text.toList (reg.subst σ.toSubstitution).text.toList := by
  cases reg with
  | named name => exact Register.replaces_named σ (h name List.mem_cons_self)
  | temporary number => exact Register.replaces_temporary σ number

lemma Operand.replaces {x : Operand} (h : ∀ name ∈ x.mentioned, isIdentifier name = true) :
    Replaces σ.word x.text.toList (x.subst σ.toSubstitution).text.toList := by
  cases x with
  | constant value => exact .of_nameless (nameless_decimal value)
  | register reg => exact Register.replaces σ h

/-- The target of a jump. -/
lemma Label.replaces (l : Label) :
    Replaces σ.word ('%' :: l.text.toList) ('%' :: (σ.onLabel l).text.toList) := by
  rw [← σ.word_label]
  exact Replaces.name (.inl rfl) (isNameChar_of_mem_label l)

lemma replaces_formatArgument (style : PointerStyle) :
    Replaces σ.word (formatArgument style).toList (formatArgument style).toList := by
  have hname : Replaces σ.word ('@' :: ".formatstr".toList) ('@' :: σ.word ".formatstr".toList) :=
    .name (.inr rfl) (List.all_eq_true.1 rfl)
  rw [σ.word_format] at hname
  cases style with
  | typed =>
    have htext : (formatArgument .typed).toList = "i8* getelementptr([4 x i8], [4 x i8]* ".toList ++
        (('@' :: ".formatstr".toList) ++ ", i32 0, i32 0)".toList) := by
      decide +kernel
    rw [htext]
    exact .prepend rfl (hname.append (.of_nameless rfl) rfl)
  | untyped =>
    have htext : (formatArgument .untyped).toList =
        "ptr ".toList ++ '@' :: ".formatstr".toList := by
      decide +kernel
    rw [htext]
    exact .prepend rfl hname

lemma Replaces.resultText {into : Nat} {operation operation' : String}
    (h : Replaces σ.word operation.toList operation'.toList) :
    Replaces σ.word (resultText into operation).toList
      (resultText (σ.onTemporary into) operation').toList := by
  simp only [IR.resultText, String.toList_append, List.append_assoc]
  exact (Register.replaces_temporary σ into).append (.prepend rfl h) rfl

/-- The name of a function after its sign. -/
lemma replaces_function {name : String} (h : isIdentifier name = true) :
    Replaces σ.word ('@' :: name.toList) ('@' :: (σ.onName name).toList) := by
  rw [← σ.word_name name h]
  exact Replaces.name (.inr rfl) (isNameChar_of_isIdentifier h)

/-- The functions for output and input keep their names. -/
lemma replaces_reserved {name : String} (h : isIdentifier name = true)
    (hreserved : name ∈ reservedNames) :
    Replaces σ.word ('@' :: name.toList) ('@' :: name.toList) := by
  have hname := replaces_function σ h
  rwa [σ.onName_reserved name hreserved] at hname

/-- Operands or parameters, separated by commas. -/
lemma replaces_intercalate {α : Type} (text text' : α → String) {list : List α}
    (h : ∀ x ∈ list, Replaces word (text x).toList (text' x).toList) :
    Replaces word (", ".intercalate (list.map fun x => "i32 " ++ text x)).toList
      (", ".intercalate (list.map fun x => "i32 " ++ text' x)).toList := by
  induction list with
  | nil => exact .of_nameless rfl
  | cons first rest ih =>
    obtain ⟨hfirst, hrest⟩ := List.forall_mem_cons.1 h
    cases rest with
    | nil =>
      simp only [List.map_cons, List.map_nil, String.intercalate_singleton, String.toList_append]
      exact .prepend rfl hfirst
    | cons second rest =>
      have hmore := ih hrest
      simp only [List.map_cons, String.intercalate_cons_cons, String.toList_append,
        List.append_assoc] at hmore ⊢
      exact .prepend rfl (hfirst.append (.prepend rfl hmore) rfl)

/-! ## Instructions -/

/-- The names in the text of an instruction are those of the instruction. -/
lemma Instr.replaces {i : Instr} (h : ∀ name ∈ i.mentioned, isIdentifier name = true)
    (style : PointerStyle) :
    Replaces σ.word (i.text style).toList ((i.subst σ.toSubstitution).text style).toList := by
  have hi32 : Nameless (pointer style "i32").toList := nameless_pointer style rfl
  unfold Instr.text
  cases i with
  | reserve slot =>
    have hslot := Register.replaces_named σ (h slot List.mem_cons_self)
    simp only [Instr.subst, String.toList_append]
    exact hslot.append (.of_nameless rfl) rfl
  | reserveArray slot size =>
    have hslot := Register.replaces_named σ (h slot List.mem_cons_self)
    simp only [Instr.subst, String.toList_append, List.append_assoc]
    exact hslot.append (.prepend rfl (.of_nameless (nameless_arrayType size))) rfl
  | store value address =>
    obtain ⟨hvalue, haddress⟩ := List.forall_mem_append.1 h
    simp only [Instr.subst, String.toList_append, List.append_assoc]
    refine .prepend rfl ((Operand.replaces σ hvalue).append ?_ rfl)
    exact .prepend rfl (.prepend hi32 (.prepend rfl (Register.replaces σ haddress)))
  | load into address =>
    refine .resultText σ ?_
    simp only [String.toList_append, List.append_assoc]
    exact .prepend rfl (.prepend hi32 (.prepend rfl (Register.replaces σ h)))
  | elementAddress into size array index =>
    obtain ⟨harray, hindex⟩ := List.forall_mem_cons.1 h
    refine .resultText σ ?_
    simp only [String.toList_append, List.append_assoc]
    refine .prepend rfl (.prepend (nameless_arrayType size) (.prepend rfl ?_))
    refine .prepend (nameless_pointer style (nameless_arrayType size)) (.prepend rfl ?_)
    exact (Register.replaces_named σ harray).append (.prepend rfl (Operand.replaces σ hindex)) rfl
  | arith into op left right =>
    obtain ⟨hleft, hright⟩ := List.forall_mem_append.1 h
    refine .resultText σ ?_
    simp only [String.toList_append, List.append_assoc]
    refine .prepend op.nameless_text (.prepend rfl ?_)
    exact (Operand.replaces σ hleft).append (.prepend rfl (Operand.replaces σ hright)) rfl
  | compare into predicate ty left right =>
    obtain ⟨hleft, hright⟩ := List.forall_mem_append.1 h
    refine .resultText σ ?_
    simp only [String.toList_append, List.append_assoc]
    refine .prepend rfl (.prepend predicate.nameless_text (.prepend rfl ?_))
    refine .prepend (nameless_machine ty) (.prepend rfl ?_)
    exact (Operand.replaces σ hleft).append (.prepend rfl (Operand.replaces σ hright)) rfl
  | widen into value =>
    refine .resultText σ ?_
    simp only [String.toList_append, List.append_assoc]
    exact .prepend rfl ((Operand.replaces σ h).append (.of_nameless rfl) rfl)
  | call into function args =>
    obtain ⟨hfunction, hargs⟩ := List.forall_mem_cons.1 h
    have hlist := replaces_intercalate Operand.text (fun arg => (arg.subst σ.toSubstitution).text)
      fun arg harg => Operand.replaces σ fun name hname =>
        hargs name (List.mem_flatMap.2 ⟨arg, harg, hname⟩)
    have hcall : "call i32 @".toList = "call i32 ".toList ++ ['@'] := rfl
    refine .resultText σ ?_
    simp only [String.toList_append, List.append_assoc, hcall, List.map_map]
    refine .prepend rfl ((replaces_function σ hfunction).append (.prepend rfl ?_) rfl)
    exact hlist.append (.of_nameless rfl) rfl
  | print into value =>
    have hprint : " @printf(".toList = " ".toList ++ ('@' :: "printf".toList ++ "(".toList) := rfl
    have hprintf := replaces_reserved σ (rfl : isIdentifier "printf" = true) (by decide)
    have hvalue : Replaces σ.word (value.text.toList ++ ")".toList)
        ((value.subst σ.toSubstitution).text.toList ++ ")".toList) :=
      (Operand.replaces σ h).append (.of_nameless rfl) rfl
    refine .resultText σ ?_
    simp only [String.toList_append, List.append_assoc, hprint]
    refine .prepend rfl (.prepend (nameless_formattedType style) (.prepend rfl ?_))
    refine hprintf.append (.prepend rfl ?_) rfl
    exact (replaces_formatArgument σ style).append (.prepend rfl hvalue) rfl
  | read into slot =>
    have hread : " @scanf(".toList = " ".toList ++ ('@' :: "scanf".toList ++ "(".toList) := rfl
    have hscanf := replaces_reserved σ (rfl : isIdentifier "scanf" = true) (by decide)
    have hslot : Replaces σ.word ((Register.named slot).text.toList ++ ")".toList)
        ((Register.named (σ.onName slot)).text.toList ++ ")".toList) :=
      (Register.replaces_named σ (h slot List.mem_cons_self)).append (.of_nameless rfl) rfl
    refine .resultText σ ?_
    simp only [String.toList_append, List.append_assoc, hread]
    refine .prepend rfl (.prepend (nameless_formattedType style) (.prepend rfl ?_))
    refine hscanf.append (.prepend rfl ?_) rfl
    exact (replaces_formatArgument σ style).append
      (.prepend rfl (.prepend hi32 (.prepend rfl hslot))) rfl
  | jump label =>
    have hjump : "br label %".toList = "br label ".toList ++ ['%'] := rfl
    simp only [Instr.subst, String.toList_append, List.append_assoc, hjump]
    exact .prepend rfl (label.replaces σ)
  | branch condition yes no =>
    have hlabel : ", label %".toList = ", label ".toList ++ ['%'] := rfl
    simp only [Instr.subst, String.toList_append, List.append_assoc, hlabel]
    refine .prepend rfl ((Operand.replaces σ h).append (.prepend rfl ?_) rfl)
    exact (yes.replaces σ).append (.prepend rfl (no.replaces σ)) rfl
  | ret value =>
    simp only [Instr.subst, String.toList_append]
    exact .prepend rfl (Operand.replaces σ h)

/-! ## Lines -/

/-- The names in a line are those after signs if there is no label at its head. -/
lemma replaceLine_of_replaces {line line' : String}
    (hhead : '.' ∉ line.toList.takeWhile isNameChar)
    (h : Replaces word line.toList line'.toList) : replaceLine word line = line' := by
  have hnameless : Nameless (line.toList.takeWhile isNameChar) :=
    nameless_of_isNameChar (List.all_eq_true.1 List.all_takeWhile)
  rw [replaceLine, if_neg hhead, ← replaceNames_of_nameless hnameless,
    List.takeWhile_append_dropWhile, h.replaceNames_eq, String.ofList_toList]

/-- A label at the head of a line is a name. -/
lemma Label.replaceLine_text (l : Label) :
    replaceLine σ.word (l.text ++ ":") = (σ.onLabel l).text ++ ":" := by
  have hhead := takeWhile_isNameChar (isNameChar_of_mem_label l) (rfl : Apart ":".toList)
  have hrest : (l.text.toList ++ ":".toList).dropWhile isNameChar = ":".toList := by
    rw [List.dropWhile_append_of_pos (isNameChar_of_mem_label l)]
    rfl
  rw [replaceLine, String.toList_append, hhead, hrest, if_pos (dot_mem_label l), σ.word_label]
  apply String.ext
  rw [String.toList_ofList, String.toList_append]
  rfl

lemma Line.replaceLine_text {line : Line} (h : ∀ name ∈ line.mentioned, isIdentifier name = true)
    (style : PointerStyle) :
    replaceLine σ.word (line.text style) = (line.subst σ.toSubstitution).text style := by
  cases line with
  | label l => exact l.replaceLine_text σ
  | instr i =>
    have hinstr := (Instr.replaces σ h style).prepend (rfl : Nameless "  ".toList)
    simp only [← String.toList_append] at hinstr
    refine replaceLine_of_replaces ?_ hinstr
    rw [Line.text, String.toList_append]
    exact List.not_mem_nil

/-- The line that opens a function. -/
lemma replaceLine_define {name : String} {params : List String} (hname : isIdentifier name = true)
    (hparams : ∀ param ∈ params, isIdentifier param = true) :
    replaceLine σ.word ("define i32 @" ++ name ++ "(" ++
        ", ".intercalate (params.map fun param => "i32 " ++ (Register.named param).text) ++
        ") \x7b") =
      "define i32 @" ++ σ.onName name ++ "(" ++
        ", ".intercalate ((params.map σ.onName).map fun param =>
          "i32 " ++ (Register.named param).text) ++ ") \x7b" := by
  have hlist := replaces_intercalate (fun param => (Register.named param).text)
    (fun param => (Register.named (σ.onName param)).text) fun param hparam =>
      Register.replaces_named σ (hparams param hparam)
  have hdefine : "define i32 @".toList = "define i32 ".toList ++ ['@'] := rfl
  apply replaceLine_of_replaces
  · simp only [String.toList_append, List.append_assoc]
    exact (by decide : '.' ∉ "define".toList)
  · simp only [String.toList_append, List.append_assoc, hdefine, List.map_map]
    refine .prepend rfl ((replaces_function σ hname).append (.prepend rfl ?_) rfl)
    exact hlist.append (.of_nameless rfl) rfl

/-- The names in the text of a function are those of the function. -/
lemma Function.map_replaceLine {g : Function}
    (h : ∀ name ∈ g.mentioned, isIdentifier name = true) (style : PointerStyle) :
    (g.textLines style).map (replaceLine σ.word) =
      (g.subst σ.toSubstitution).textLines style := by
  obtain ⟨hname, hinner⟩ := List.forall_mem_cons.1 h
  obtain ⟨hparams, hlines⟩ := List.forall_mem_append.1 hinner
  have hbody : (g.lines.map (Line.text style)).map (replaceLine σ.word) =
      (g.lines.map (Line.subst σ.toSubstitution)).map (Line.text style) := by
    rw [List.map_map, List.map_map]
    refine List.map_congr_left fun line hline => ?_
    exact Line.replaceLine_text σ (fun name hname => hlines name (List.mem_flatMap.2
      ⟨line, hline, hname⟩)) style
  have hempty : replaceLine σ.word "" = "" := rfl
  have hend : replaceLine σ.word "\x7d" = "\x7d" :=
    replaceLine_of_replaces List.not_mem_nil (.of_nameless rfl)
  rw [Function.textLines, Function.textLines, List.map_append, List.map_append, hbody]
  simp only [List.map_cons, List.map_nil, hempty, hend, replaceLine_define σ hname hparams]
  rfl

end IR

end DLang
