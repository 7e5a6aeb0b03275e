import DLang.Proofs.Lowering.Mentions
import Mathlib.Data.List.Forall2

/-!
# How the lines of a module are spelled

A line of a module has a star only where it spells a typed pointer, and that happens in three ways:
in the type of the functions for output and input, at an address that an instruction uses, and in
the format that output and input are given.  `Respelled` says so.  It relates a line with typed
pointers to the same line with untyped ones, through the line in which only the format has changed.

Everything else in a line is without stars and stays within the line, provided that the names in it
are identifiers (`Starless`).  So the lines of a module are those of its text
(`Module.lines_text`).
-/

namespace DLang

/-- The lines of a text.  A text that ends with the end of a line has an empty line after it. -/
def Text.lines (text : String) : List String :=
  (text.toList.splitOn '\n').map String.ofList

lemma Text.toList_join_lines (lines : List String) :
    (String.join (lines.map fun line => line ++ "\n")).toList =
      ['\n'].intercalate ((lines ++ [""]).map String.toList) := by
  rw [String.toList_join, List.flatMap_map]
  induction lines with
  | nil => rfl
  | cons line rest ih =>
    have hrest : (rest ++ [""]).map String.toList ≠ [] := by simp
    rw [List.flatMap_cons, ih, List.cons_append, List.map_cons,
      List.intercalate_cons_of_ne_nil hrest, String.toList_append]
    rfl

/-- The lines of a text are those it was joined from. -/
lemma Text.lines_join {lines : List String} (h : ∀ line ∈ lines, '\n' ∉ line.toList) :
    Text.lines (String.join (lines.map fun line => line ++ "\n")) = lines ++ [""] := by
  have hlines : ∀ line ∈ (lines ++ [""]).map String.toList, '\n' ∉ line := by
    intro chars hchars
    obtain ⟨line, hline, rfl⟩ := List.mem_map.1 hchars
    rcases List.mem_append.1 hline with hline | hline
    · exact h line hline
    · rw [List.mem_singleton.1 hline]
      exact List.not_mem_nil
  rw [Text.lines, Text.toList_join_lines, List.splitOn_intercalate '\n' hlines (by simp),
    List.map_map]
  simp

namespace IR

/-! ## Texts without stars -/

/-- Whether a character is neither a star nor the end of a line. -/
def isStarless (c : Char) : Bool :=
  c != '*' && c != '\n'

/-- Some characters of one line, none of them a star. -/
def Starless (text : List Char) : Prop :=
  text.all isStarless = true

lemma starless_append {u v : List Char} : Starless (u ++ v) ↔ Starless u ∧ Starless v := by
  unfold Starless
  rw [List.all_append, Bool.and_eq_true]

lemma Starless.append {u v : List Char} (hu : Starless u) (hv : Starless v) : Starless (u ++ v) :=
  starless_append.2 ⟨hu, hv⟩

lemma Starless.star_notMem {text : List Char} (h : Starless text) : '*' ∉ text :=
  fun hmem => absurd (List.all_eq_true.1 h '*' hmem) (by decide)

lemma Starless.newline_notMem {text : List Char} (h : Starless text) : '\n' ∉ text :=
  fun hmem => absurd (List.all_eq_true.1 h '\n' hmem) (by decide)

lemma Starless.of_suffix {u v : List Char} (hv : Starless v) (h : u <:+ v) : Starless u := by
  obtain ⟨front, rfl⟩ := h
  exact (starless_append.1 hv).2

lemma starless_of_isAlphanum {text : List Char} (h : ∀ c ∈ text, c.isAlphanum = true) :
    Starless text := by
  refine List.all_eq_true.2 fun c hc => ?_
  have hne : ∀ d : Char, d.isAlphanum = false → c ≠ d := by
    rintro d hd rfl
    exact absurd (h c hc) (by simp [hd])
  simp only [isStarless, Bool.and_eq_true, bne_iff_ne]
  exact ⟨hne '*' (by decide), hne '\n' (by decide)⟩

lemma starless_toString (n : Nat) : Starless (toString n).toList := by
  apply starless_of_isAlphanum
  intro c hc
  rw [Nat.toString_eq_repr, Nat.toList_repr] at hc
  have hdigit := Nat.isDigit_of_mem_toDigits (by omega) (by omega) hc
  simp [Char.isAlphanum, hdigit]

lemma starless_decimal (value : Int32) : Starless (Text.decimal value).toList := by
  unfold Text.decimal
  cases value.toInt with
  | ofNat n => exact starless_toString n
  | negSucc n =>
    show Starless ("-" ++ toString (n + 1)).toList
    rw [String.toList_append]
    exact Starless.append rfl (starless_toString (n + 1))

lemma starless_of_isIdentifier {name : String} (h : isIdentifier name = true) :
    Starless name.toList := by
  apply starless_of_isAlphanum
  intro c hc
  rcases Segment.isWordChar_iff.1 (isWordChar_of_isIdentifier h c hc) with hlower | hdigit
  · show ((c.isUpper || c.isLower) || c.isDigit) = true
    rw [hlower, Bool.or_true, Bool.true_or]
  · simp [Char.isAlphanum, hdigit]

lemma starless_intercalate {texts : List String} (h : ∀ text ∈ texts, Starless text.toList) :
    Starless (", ".intercalate texts).toList := by
  induction texts with
  | nil => rfl
  | cons first rest ih =>
    have hfirst := h first List.mem_cons_self
    have hrest := ih fun text htext => h text (List.mem_cons_of_mem first htext)
    cases rest with
    | nil => simpa using hfirst
    | cons second rest =>
      rw [String.intercalate_cons_cons, String.toList_append, String.toList_append]
      exact starless_append.2 ⟨starless_append.2 ⟨hfirst, rfl⟩, hrest⟩

/-! ## Parts of instructions -/

lemma Register.starless {r : Register} (h : ∀ name ∈ r.mentioned, isIdentifier name = true) :
    Starless r.text.toList := by
  cases r with
  | named name =>
    rw [Register.text, String.toList_append]
    exact Starless.append rfl (starless_of_isIdentifier (h name List.mem_cons_self))
  | temporary number =>
    rw [Register.text, String.toList_append]
    exact Starless.append rfl (starless_toString number)

lemma Operand.starless {x : Operand} (h : ∀ name ∈ x.mentioned, isIdentifier name = true) :
    Starless x.text.toList := by
  cases x with
  | constant value => exact starless_decimal value
  | register r => exact r.starless h

lemma Label.starless (l : Label) : Starless l.text.toList := by
  cases l with
  | entry => rfl
  | numbered mark number =>
    rw [Label.text, String.toList_append]
    refine Starless.append ?_ (starless_toString number)
    cases mark <;> rfl

lemma starless_arrayType (size : Nat) : Starless (arrayType size).toList := by
  rw [arrayType, String.toList_append, String.toList_append]
  exact starless_append.2 ⟨starless_append.2 ⟨rfl, starless_toString size⟩, rfl⟩

lemma Opcode.starless_text (op : Opcode) : Starless op.text.toList := by
  cases op <;> rfl

lemma Predicate.starless_text (predicate : Predicate) : Starless predicate.text.toList := by
  cases predicate <;> rfl

lemma starless_machine (ty : Ty) : Starless ty.machine.toList := by
  cases ty <;> rfl

/-! ## The pointer types of a line -/

/-- What the address that an instruction uses points to. -/
inductive AddressType : List Char → Prop
  | integer : AddressType "i32".toList
  | array (size : Nat) : AddressType (arrayType size).toList

lemma AddressType.starless {pointee : List Char} (h : AddressType pointee) : Starless pointee := by
  cases h with
  | integer => rfl
  | array size => exact starless_arrayType size

/-- A line with typed pointers, the line in which its format is untyped, and the line in which all
its pointers are. -/
inductive Respelled : List Char → List Char → List Char → Prop
  | plain {u : List Char} : Starless u → Respelled u u u
  /-- The format among the parameters of a function. -/
  | parameter {u t m t' : List Char} : Starless u → Respelled t m t' →
      Respelled (u ++ "(i8*".toList ++ ", ".toList ++ t) (u ++ "(i8*".toList ++ ", ".toList ++ m)
        (u ++ "(ptr".toList ++ ", ".toList ++ t')
  /-- An address. -/
  | address {u pointee t m t' : List Char} : Starless u → AddressType pointee → Respelled t m t' →
      Respelled (u ++ ", ".toList ++ pointee ++ "*".toList ++ " ".toList ++ t)
        (u ++ ", ".toList ++ pointee ++ "*".toList ++ " ".toList ++ m)
        (u ++ ", ".toList ++ "ptr".toList ++ " ".toList ++ t')
  /-- The format as an argument. -/
  | argument {u t m t' : List Char} : Starless u → Respelled t m t' →
      Respelled (u ++ "(".toList ++ (formatArgument .typed).toList ++ t)
        (u ++ "(".toList ++ (formatArgument .untyped).toList ++ m)
        (u ++ "(".toList ++ (formatArgument .untyped).toList ++ t')

lemma Respelled.prepend {u t m t' : List Char} (hu : Starless u) (h : Respelled t m t') :
    Respelled (u ++ t) (u ++ m) (u ++ t') := by
  cases h with
  | plain ht => exact .plain (hu.append ht)
  | parameter hv h => simpa only [List.append_assoc] using Respelled.parameter (hu.append hv) h
  | address hv hpointee h =>
    simpa only [List.append_assoc] using Respelled.address (hu.append hv) hpointee h
  | argument hv h => simpa only [List.append_assoc] using Respelled.argument (hu.append hv) h

/-- Neither spelling of a line has the end of a line in it. -/
lemma Respelled.newline_notMem {t m t' : List Char} (h : Respelled t m t') :
    '\n' ∉ t ∧ '\n' ∉ t' := by
  have hletters : ∀ w : List Char, w.all (· != '\n') = true → '\n' ∉ w := by
    intro w hw hmem
    exact absurd (List.all_eq_true.1 hw '\n' hmem) (by decide)
  induction h with
  | plain hu => exact ⟨hu.newline_notMem, hu.newline_notMem⟩
  | parameter hu _ ih =>
    simp only [List.mem_append, not_or]
    exact ⟨⟨⟨⟨hu.newline_notMem, hletters _ rfl⟩, hletters _ rfl⟩, ih.1⟩,
      ⟨⟨hu.newline_notMem, hletters _ rfl⟩, hletters _ rfl⟩, ih.2⟩
  | address hu hpointee _ ih =>
    simp only [List.mem_append, not_or]
    exact ⟨⟨⟨⟨⟨⟨hu.newline_notMem, hletters _ rfl⟩, hpointee.starless.newline_notMem⟩,
        hletters _ rfl⟩, hletters _ rfl⟩, ih.1⟩,
      ⟨⟨⟨hu.newline_notMem, hletters _ rfl⟩, hletters _ rfl⟩, hletters _ rfl⟩, ih.2⟩
  | argument hu _ ih =>
    simp only [List.mem_append, not_or]
    exact ⟨⟨⟨⟨hu.newline_notMem, hletters _ rfl⟩, hletters _ rfl⟩, ih.1⟩,
      ⟨⟨hu.newline_notMem, hletters _ rfl⟩, hletters _ rfl⟩, ih.2⟩

/-! ## Instructions -/

section Instructions

variable {into : Nat} {operation operation' : String} {t m t' : List Char}

/-- An operation that is the same in both styles. -/
lemma Respelled.plainResult (h : Starless operation.toList) :
    ∃ m, Respelled (resultText into operation).toList m (resultText into operation).toList := by
  refine ⟨_, .plain ?_⟩
  simp only [resultText, String.toList_append, starless_append]
  exact ⟨⟨Register.starless fun name hname => (nomatch hname), rfl⟩, h⟩

lemma Respelled.resultText (h : ∃ m, Respelled operation.toList m operation'.toList) :
    ∃ m, Respelled (resultText into operation).toList m (resultText into operation').toList := by
  obtain ⟨m, h⟩ := h
  simp only [IR.resultText, String.toList_append]
  refine ⟨_, h.prepend (starless_append.2 ⟨?_, rfl⟩)⟩
  exact Register.starless fun name hname => (nomatch hname)

/-- A call for output or input, up to the format. -/
lemma Respelled.call {function : List Char} (hfunction : Starless function)
    (h : Respelled t m t') :
    ∃ m', Respelled
      ("call ".toList ++ (formattedType .typed).toList ++ function ++ "(".toList ++
        (formatArgument .typed).toList ++ t) m'
      ("call ".toList ++ (formattedType .untyped).toList ++ function ++ "(".toList ++
        (formatArgument .untyped).toList ++ t') := by
  have htyped : "call ".toList ++ (formattedType .typed).toList =
      "call i32 ".toList ++ "(i8*".toList ++ ", ".toList ++ "...)".toList := rfl
  have huntyped : "call ".toList ++ (formattedType .untyped).toList =
      "call i32 ".toList ++ "(ptr".toList ++ ", ".toList ++ "...)".toList := rfl
  have hformat := Respelled.argument (starless_append.2 ⟨(rfl : Starless "...)".toList),
    hfunction⟩) h
  have hcall := Respelled.parameter (rfl : Starless "call i32 ".toList) hformat
  rw [htyped, huntyped]
  simp only [List.append_assoc] at hcall ⊢
  exact ⟨_, hcall⟩

end Instructions

/-- The two texts of an instruction differ in the spelling of pointers. -/
lemma Instr.respelled {i : Instr} (h : ∀ name ∈ i.mentioned, isIdentifier name = true) :
    ∃ m, Respelled (i.text .typed).toList m (i.text .untyped).toList := by
  cases i with
  | reserve slot =>
    refine ⟨_, .plain ?_⟩
    unfold Instr.text
    simp only [String.toList_append, starless_append]
    exact ⟨Register.starless h, rfl⟩
  | reserveArray slot size =>
    refine ⟨_, .plain ?_⟩
    unfold Instr.text
    simp only [String.toList_append, starless_append]
    exact ⟨⟨Register.starless h, rfl⟩, starless_arrayType size⟩
  | store value address =>
    obtain ⟨hvalue, haddress⟩ := List.forall_mem_append.1 h
    have hstore : Starless ("store i32 ".toList ++ value.text.toList) :=
      starless_append.2 ⟨rfl, Operand.starless hvalue⟩
    have hpointer := Respelled.address hstore .integer (.plain (Register.starless haddress))
    unfold Instr.text
    simp only [pointer, String.toList_append, List.append_assoc] at hpointer ⊢
    exact ⟨_, hpointer⟩
  | load into address =>
    apply Respelled.resultText
    have hload : "load i32, ".toList = "load i32".toList ++ ", ".toList := rfl
    have hpointer := Respelled.address (rfl : Starless "load i32".toList) .integer
      (.plain (Register.starless h))
    simp only [pointer, String.toList_append, hload, List.append_assoc] at hpointer ⊢
    exact ⟨_, hpointer⟩
  | elementAddress into size array index =>
    obtain ⟨harray, hindex⟩ := List.forall_mem_cons.1 h
    have helement : Starless ("getelementptr ".toList ++ (arrayType size).toList) :=
      starless_append.2 ⟨rfl, starless_arrayType size⟩
    have hrest : Starless ((Register.named array).text.toList ++
        (", i32 0, i32 ".toList ++ index.text.toList)) := by
      refine starless_append.2 ⟨Register.starless ?_, starless_append.2 ⟨rfl, ?_⟩⟩
      · exact List.forall_mem_singleton.2 harray
      · exact Operand.starless hindex
    have hpointer := Respelled.address helement (.array size) (.plain hrest)
    apply Respelled.resultText
    simp only [pointer, String.toList_append, List.append_assoc] at hpointer ⊢
    exact ⟨_, hpointer⟩
  | arith into op left right =>
    obtain ⟨hleft, hright⟩ := List.forall_mem_append.1 h
    apply Respelled.plainResult
    simp only [String.toList_append, starless_append]
    exact ⟨⟨⟨⟨op.starless_text, rfl⟩, Operand.starless hleft⟩, rfl⟩,
      Operand.starless hright⟩
  | compare into predicate ty left right =>
    obtain ⟨hleft, hright⟩ := List.forall_mem_append.1 h
    apply Respelled.plainResult
    simp only [String.toList_append, starless_append]
    exact ⟨⟨⟨⟨⟨⟨⟨rfl, predicate.starless_text⟩, rfl⟩, starless_machine ty⟩, rfl⟩,
      Operand.starless hleft⟩, rfl⟩, Operand.starless hright⟩
  | widen into value =>
    apply Respelled.plainResult
    simp only [String.toList_append, starless_append]
    exact ⟨⟨rfl, Operand.starless h⟩, rfl⟩
  | call into function args =>
    obtain ⟨hfunction, hargs⟩ := List.forall_mem_cons.1 h
    apply Respelled.plainResult
    simp only [String.toList_append, starless_append]
    refine ⟨⟨⟨⟨rfl, starless_of_isIdentifier hfunction⟩, rfl⟩, starless_intercalate ?_⟩, rfl⟩
    intro text htext
    obtain ⟨arg, harg, rfl⟩ := List.mem_map.1 htext
    rw [String.toList_append]
    refine starless_append.2 ⟨rfl, Operand.starless fun name hname => ?_⟩
    exact hargs name (List.mem_flatMap.2 ⟨arg, harg, hname⟩)
  | print into value =>
    have hrest : Starless (", i32 ".toList ++ (value.text.toList ++ ")".toList)) :=
      starless_append.2 ⟨rfl, starless_append.2 ⟨Operand.starless h, rfl⟩⟩
    have hprint : " @printf(".toList = " @printf".toList ++ "(".toList := rfl
    apply Respelled.resultText
    obtain ⟨m, hcall⟩ := Respelled.call (rfl : Starless " @printf".toList) (.plain hrest)
    simp only [String.toList_append, hprint, List.append_assoc] at hcall ⊢
    exact ⟨m, hcall⟩
  | read into slot =>
    have hrest : Starless ((Register.named slot).text.toList ++ ")".toList) :=
      starless_append.2 ⟨Register.starless h, rfl⟩
    have hread : " @scanf(".toList = " @scanf".toList ++ "(".toList := rfl
    apply Respelled.resultText
    obtain ⟨m, hcall⟩ := Respelled.call (rfl : Starless " @scanf".toList)
      (.address (rfl : Starless []) .integer (.plain hrest))
    simp only [pointer, String.toList_append, hread, List.append_assoc, List.nil_append] at hcall ⊢
    exact ⟨m, hcall⟩
  | jump label =>
    refine ⟨_, .plain ?_⟩
    unfold Instr.text
    simp only [String.toList_append, starless_append]
    exact ⟨rfl, label.starless⟩
  | branch condition yes no =>
    refine ⟨_, .plain ?_⟩
    unfold Instr.text
    simp only [String.toList_append, starless_append]
    exact ⟨⟨⟨⟨⟨rfl, Operand.starless h⟩, rfl⟩, yes.starless⟩, rfl⟩, no.starless⟩
  | ret value =>
    refine ⟨_, .plain ?_⟩
    unfold Instr.text
    simp only [String.toList_append, starless_append]
    exact ⟨rfl, Operand.starless h⟩

/-! ## Lines -/

lemma Line.respelled {line : Line} (h : ∀ name ∈ line.mentioned, isIdentifier name = true) :
    ∃ m, Respelled (line.text .typed).toList m (line.text .untyped).toList := by
  cases line with
  | label l =>
    refine ⟨_, .plain ?_⟩
    simp only [Line.text, String.toList_append, starless_append]
    exact ⟨l.starless, rfl⟩
  | instr i =>
    obtain ⟨m, hi⟩ := Instr.respelled h
    simp only [Line.text, String.toList_append]
    exact ⟨_, hi.prepend rfl⟩

/-- The head of a function spells no pointer. -/
lemma Function.starless_head {g : Function}
    (h : ∀ name ∈ g.mentioned, isIdentifier name = true) :
    Starless ("define i32 @" ++ g.name ++ "(" ++
      ", ".intercalate (g.params.map fun param => "i32 " ++ (Register.named param).text) ++
      ") \x7b").toList := by
  obtain ⟨hname, hinner⟩ := List.forall_mem_cons.1 h
  obtain ⟨hparams, _⟩ := List.forall_mem_append.1 hinner
  simp only [String.toList_append, starless_append]
  refine ⟨⟨⟨⟨rfl, starless_of_isIdentifier hname⟩, rfl⟩, starless_intercalate ?_⟩, rfl⟩
  intro text htext
  obtain ⟨param, hparam, rfl⟩ := List.mem_map.1 htext
  rw [String.toList_append]
  refine starless_append.2 ⟨rfl, Register.starless ?_⟩
  exact List.forall_mem_singleton.2 (hparams param hparam)

/-- Two lists of lines that differ in the spelling of pointers. -/
def RespelledAll (typed untyped : List String) : Prop :=
  List.Forall₂ (fun line line' => ∃ m, Respelled line.toList m line'.toList) typed untyped

lemma RespelledAll.newline_notMem {typed untyped : List String} (h : RespelledAll typed untyped) :
    (∀ line ∈ typed, '\n' ∉ line.toList) ∧ ∀ line ∈ untyped, '\n' ∉ line.toList := by
  induction h with
  | nil => exact ⟨fun line hline => (nomatch hline), fun line hline => (nomatch hline)⟩
  | cons hline _ ih =>
    obtain ⟨_, hspelled⟩ := hline
    exact ⟨List.forall_mem_cons.2 ⟨hspelled.newline_notMem.1, ih.1⟩,
      List.forall_mem_cons.2 ⟨hspelled.newline_notMem.2, ih.2⟩⟩

lemma Function.respelledAll {g : Function}
    (h : ∀ name ∈ g.mentioned, isIdentifier name = true) :
    RespelledAll (g.textLines .typed) (g.textLines .untyped) := by
  have hlines : ∀ line ∈ g.lines, ∀ name ∈ line.mentioned, isIdentifier name = true := by
    intro line hline name hname
    apply h name
    apply List.mem_cons_of_mem
    exact List.mem_append_right _ (List.mem_flatMap.2 ⟨line, hline, hname⟩)
  unfold Function.textLines
  refine List.rel_append (List.rel_append ?_ ?_) ?_
  · exact .cons ⟨_, .plain rfl⟩ (.cons ⟨_, .plain (Function.starless_head h)⟩ .nil)
  · rw [List.forall₂_map_left_iff, List.forall₂_map_right_iff, List.forall₂_same]
    exact fun line hline => Line.respelled (hlines line hline)
  · exact .cons ⟨_, .plain rfl⟩ .nil

lemma respelledAll_openingLines : RespelledAll (openingLines .typed) (openingLines .untyped) := by
  have hprint := Respelled.parameter (rfl : Starless "declare i32 @printf".toList)
    (.plain (rfl : Starless "...) nounwind".toList))
  have hread := Respelled.parameter (rfl : Starless "declare i32 @scanf".toList)
    (.plain (rfl : Starless "...)".toList))
  exact .cons ⟨_, hprint⟩ (.cons ⟨_, hread⟩ (.cons ⟨_, .plain rfl⟩ .nil))

/-- No line of a function is the brace that closes it. -/
lemma Line.text_ne_brace (style : PointerStyle) (line : Line) : line.text style ≠ "\x7d" := by
  intro h
  cases line with
  | label l =>
    have hmem : ':' ∈ "\x7d".toList := by
      rw [← h]
      simp [Line.text]
    exact absurd hmem (by decide)
  | instr i =>
    have hmem : ' ' ∈ "\x7d".toList := by
      rw [← h]
      simp [Line.text]
    exact absurd hmem (by decide)

lemma brace_notMem_map_text (style : PointerStyle) (lines : List Line) :
    "\x7d" ∉ lines.map (Line.text style) := by
  intro h
  obtain ⟨line, _, htext⟩ := List.mem_map.1 h
  exact Line.text_ne_brace style line htext

section Modules

variable {m : Module} (h : ∀ g ∈ m.functions, ∀ name ∈ g.mentioned, isIdentifier name = true)

include h

/-- The two spellings of a module have the same lines, up to the spelling of pointers. -/
lemma Module.respelledAll : RespelledAll (m.textLines .typed) (m.textLines .untyped) := by
  obtain ⟨functions⟩ := m
  refine List.rel_append respelledAll_openingLines ?_
  show RespelledAll (functions.flatMap _) (functions.flatMap _)
  induction functions with
  | nil => exact .nil
  | cons g rest ih =>
    obtain ⟨hg, hrest⟩ := List.forall_mem_cons.1 h
    exact List.rel_append (Function.respelledAll hg) (ih hrest)

lemma Module.newline_notMem (style : PointerStyle) :
    ∀ line ∈ m.textLines style, '\n' ∉ line.toList := by
  cases style with
  | typed => exact (Module.respelledAll h).newline_notMem.1
  | untyped => exact (Module.respelledAll h).newline_notMem.2

/-- The lines of the text of a module are the lines it was written from. -/
lemma Module.lines_text (style : PointerStyle) :
    Text.lines (m.text style) = m.textLines style ++ [""] :=
  Text.lines_join (Module.newline_notMem h style)

end Modules

end IR

end DLang
