import DLang.Proofs.Lowering.Shift
import DLang.Proofs.Module.Names
import DLang.Proofs.Module.Registers
import Mathlib.Data.List.DropRight

/-!
# Numbers in the text of a module

The name of a temporary or of a label is a stem with a number after it.  `renumberLine` adds to
these numbers in a line of text, and so does to the text what a shift does to the module
(`IR.Function.map_renumberLine`).

How far lowering counts can also be read off the text: a function takes as many temporaries as it
has lines that define one, and as many labels as it has lines that are one, the first label of all
apart (`FunctionDecl.countP_of_lower`).
-/

namespace DLang

open IR (definitions labels)

/-! ## Stems -/

/-- What stands before the number of a name. -/
def stem (name : List Char) : List Char :=
  name.rdropWhile Char.isDigit

/-- What stands before the number of a temporary. -/
def temporaryStem : List Char :=
  "tmp.".toList

/-- What stands before the numbers of labels.  The label that every function begins with is not
counted. -/
def labelStems : List (List Char) :=
  ["if.true.", "if.false.", "if.end.", "while.loop.", "while.body.", "while.end."].map String.toList

/-- A name, with `n` added to the number of a temporary and `k` to that of a label. -/
def renumberWord (n k : Nat) (name : List Char) : List Char :=
  let number := Text.decimalValue (name.rtakeWhile Char.isDigit)
  if stem name = temporaryStem then stem name ++ (toString (number + n)).toList
  else if stem name ∈ labelStems then stem name ++ (toString (number + k)).toList
  else name

/-- A line, with `n` added to the numbers of temporaries and `k` to those of labels. -/
def renumberLine (n k : Nat) (line : String) : String :=
  replaceLine (renumberWord n k) line

/-- Whether a line defines a temporary. -/
def definesTemporary (line : String) : Bool :=
  "  %".toList.isPrefixOf line.toList &&
    decide (stem ((line.toList.drop 3).takeWhile isNameChar) = temporaryStem)

/-- Whether a line is a label that is counted. -/
def marksBlock (line : String) : Bool :=
  decide (stem (line.toList.takeWhile isNameChar) ∈ labelStems)

variable {name : String} {s : List Char}

/-- A number goes back to the dot before it. -/
lemma stem_append_number (s : List Char) (number : Nat) :
    stem (s ++ '.' :: (toString number).toList) = s ++ ['.'] := by
  have hdigits : ∀ d ∈ (toString number).toList.reverse, d.isDigit = true :=
    fun d hd => Text.isDigit_of_mem_toString (List.mem_reverse.1 hd)
  rw [stem, List.rdropWhile, List.reverse_append, List.reverse_cons, List.append_assoc,
    List.dropWhile_append_of_pos hdigits, List.singleton_append,
    List.dropWhile_cons_of_neg (by decide), List.reverse_cons, List.reverse_reverse]

lemma rtakeWhile_append_number (s : List Char) (number : Nat) :
    (s ++ '.' :: (toString number).toList).rtakeWhile Char.isDigit = (toString number).toList := by
  have hparts := List.rdropWhile_append_rtakeWhile (p := Char.isDigit)
    (l := s ++ '.' :: (toString number).toList)
  have hstem := stem_append_number s number
  rw [stem] at hstem
  rw [hstem, List.append_assoc, List.singleton_append] at hparts
  exact (List.cons.inj (List.append_cancel_left hparts)).2

lemma temporary_toList (number : Nat) :
    ("tmp." ++ toString number).toList = "tmp".toList ++ '.' :: (toString number).toList := by
  rw [String.toList_append]
  rfl

lemma stem_temporary (number : Nat) : stem ("tmp." ++ toString number).toList = temporaryStem := by
  rw [temporary_toList, stem_append_number]
  rfl

lemma label_toList (mark : IR.Mark) (number : Nat) :
    (IR.Label.numbered mark number).text.toList =
      mark.text.toList ++ '.' :: (toString number).toList := by
  rw [IR.Label.text, String.toList_append, String.toList_append, List.append_assoc]
  rfl

lemma append_dot_mem_labelStems (mark : IR.Mark) : mark.text.toList ++ ['.'] ∈ labelStems := by
  cases mark <;> decide

lemma stem_label_mem_iff (l : IR.Label) : stem l.text.toList ∈ labelStems ↔ l ≠ .entry := by
  cases l with
  | entry => exact ⟨fun h => absurd h (by decide), fun h => absurd rfl h⟩
  | numbered mark number =>
    rw [label_toList, stem_append_number]
    exact ⟨fun _ => IR.Label.noConfusion, fun _ => append_dot_mem_labelStems mark⟩

lemma append_dot_ne_temporaryStem (mark : IR.Mark) :
    mark.text.toList ++ ['.'] ≠ temporaryStem := by
  cases mark <;> decide

/-- What has no dot has no stem that is counted. -/
lemma stem_of_dot_notMem (h : '.' ∉ s) : stem s ≠ temporaryStem ∧ stem s ∉ labelStems := by
  have hstem : '.' ∉ stem s := fun hmem => h ((List.rdropWhile_prefix _ s).subset hmem)
  have hstems : ∀ t ∈ labelStems, '.' ∈ t := by decide
  constructor
  · intro heq
    rw [heq] at hstem
    exact hstem (by decide)
  · exact fun hmem => hstem (hstems _ hmem)

lemma renumberWord_of_notMem {n k : Nat} (h : stem s ≠ temporaryStem ∧ stem s ∉ labelStems) :
    renumberWord n k s = s := by
  rw [renumberWord, if_neg h.1, if_neg h.2]

/-! ## Shifts as respellings -/

namespace IR

/-- A shift keeps the names of the program, and adds to the numbers in all others. -/
def Respelling.shift (n k : Nat) : Respelling where
  toSubstitution := .shift n k
  word := renumberWord n k
  word_name _ h := renumberWord_of_notMem (stem_of_dot_notMem (dot_notMem_of_isIdentifier h))
  word_temporary number := by
    rw [renumberWord, if_pos (stem_temporary number), stem_temporary, temporary_toList,
      rtakeWhile_append_number, Text.decimalValue_toString]
    exact (String.toList_append ..).symm
  word_label l := by
    cases l with
    | entry => exact renumberWord_of_notMem (by decide)
    | numbered mark number =>
      rw [renumberWord, label_toList, stem_append_number, rtakeWhile_append_number,
        Text.decimalValue_toString, if_neg (append_dot_ne_temporaryStem mark),
        if_pos (append_dot_mem_labelStems mark), List.append_assoc]
      exact (label_toList mark (number + k)).symm
  word_format := renumberWord_of_notMem (by decide)
  onName_reserved _ _ := rfl

/-- The text of a function with higher numbers is its text with higher numbers. -/
lemma Function.map_renumberLine {g : Function} (n k : Nat)
    (h : ∀ name ∈ g.mentioned, isIdentifier name = true) (style : PointerStyle) :
    (g.textLines style).map (renumberLine n k) = (g.subst (.shift n k)).textLines style :=
  Function.map_replaceLine (.shift n k) h style

/-! ## Counting lines -/

/-- Whether a register is a temporary. -/
def Register.isTemporary : Register → Bool
  | named _ => false
  | temporary _ => true

lemma definesTemporary_named (h : isIdentifier name = true) {rest : String}
    (hrest : Apart rest.toList) :
    definesTemporary ("  " ++ ((Register.named name).text ++ rest)) = false := by
  have hword := takeWhile_isNameChar (isNameChar_of_isIdentifier h) hrest
  have hstem := (stem_of_dot_notMem (dot_notMem_of_isIdentifier h)).1
  rw [definesTemporary, Register.text, String.toList_append, String.toList_append,
    String.toList_append, Bool.and_eq_false_iff]
  refine .inr (decide_eq_false ?_)
  show stem ((name.toList ++ rest.toList).takeWhile isNameChar) ≠ temporaryStem
  rwa [hword]

lemma definesTemporary_resultText (into : Nat) (operation : String) :
    definesTemporary ("  " ++ resultText into operation) = true := by
  have hword := takeWhile_isNameChar (isNameChar_of_mem_temporary (n := into))
    (t := " = ".toList ++ operation.toList) rfl
  have hchars : ("  " ++ resultText into operation).toList =
      "  %".toList ++ (("tmp." ++ toString into).toList ++ (" = ".toList ++ operation.toList)) := by
    simp only [resultText, Register.text, String.toList_append, List.append_assoc]
    rfl
  rw [definesTemporary, hchars, Bool.and_eq_true, decide_eq_true_iff, List.isPrefixOf_iff_prefix]
  refine ⟨List.prefix_append _ _, ?_⟩
  show stem ((("tmp." ++ toString into).toList ++ _).takeWhile isNameChar) = temporaryStem
  rw [hword, stem_temporary]

/-- An instruction that defines nothing begins with its operation. -/
lemma Line.definesTemporary_text {line : Line}
    (h : ∀ name ∈ line.mentioned, isIdentifier name = true) (style : PointerStyle) :
    definesTemporary (line.text style) = line.definition?.any fun d => d.1.isTemporary := by
  cases line with
  | label l =>
    rw [Line.text, definesTemporary, String.toList_append]
    cases l with
    | entry => rfl
    | numbered mark number =>
      rw [label_toList]
      cases mark <;> rfl
  | instr i =>
    cases i with
    | reserve slot => exact definesTemporary_named (h slot List.mem_cons_self) rfl
    | reserveArray slot size =>
      unfold Line.text Instr.text
      dsimp only
      rw [String.append_assoc]
      refine definesTemporary_named (h slot List.mem_cons_self) ?_
      rw [String.toList_append]
      rfl
    | store value address =>
      unfold Line.text Instr.text definesTemporary
      dsimp only
      simp only [String.toList_append, List.append_assoc]
      rfl
    | jump label =>
      unfold Line.text Instr.text definesTemporary
      dsimp only
      rw [String.toList_append, String.toList_append]
      rfl
    | branch condition yes no =>
      unfold Line.text Instr.text definesTemporary
      dsimp only
      simp only [String.toList_append, List.append_assoc]
      rfl
    | ret value =>
      unfold Line.text Instr.text definesTemporary
      dsimp only
      rw [String.toList_append, String.toList_append]
      rfl
    | _ => exact definesTemporary_resultText _ _

lemma Line.marksBlock_text (line : Line) (style : PointerStyle) :
    marksBlock (line.text style) = line.label?.any fun l => l ≠ .entry := by
  cases line with
  | label l =>
    have hword := takeWhile_isNameChar (isNameChar_of_mem_label l) (rfl : Apart ":".toList)
    rw [Line.text, marksBlock, String.toList_append, hword]
    exact decide_eq_decide.2 (stem_label_mem_iff l)
  | instr i =>
    rw [Line.text, marksBlock, String.toList_append]
    rfl

/-- Lines are counted by what they have. -/
lemma countP_map_text {α : Type} {part : Line → Option α} {isCounted : α → Bool}
    {test : String → Bool} {style : PointerStyle} {lines : List Line}
    (h : ∀ line ∈ lines, test (line.text style) = (part line).any isCounted) :
    (lines.map (Line.text style)).countP test = (lines.filterMap part).countP isCounted := by
  induction lines with
  | nil => rfl
  | cons line rest ih =>
    obtain ⟨hline, hrest⟩ := List.forall_mem_cons.1 h
    rw [List.map_cons, List.countP_cons, ih hrest, hline]
    cases hpart : part line with
    | none => rw [List.filterMap_cons_none hpart]; rfl
    | some a => rw [List.filterMap_cons_some hpart, List.countP_cons]; rfl

/-- The lines around the body of a function are not counted. -/
lemma Function.countP_textLines (g : Function) {test : String → Bool} (style : PointerStyle)
    (hempty : test "" = false) (hend : test "\x7d" = false)
    (hdefine : ∀ rest, test ("define i32 @" ++ rest) = false) :
    (g.textLines style).countP test = (g.lines.map (Line.text style)).countP test := by
  rw [Function.textLines, List.countP_append, List.countP_append, String.append_assoc,
    String.append_assoc, String.append_assoc]
  simp [hempty, hend, hdefine]

end IR

/-- The temporaries of a function are defined in its lines. -/
lemma IR.Function.countP_isTemporary (g : IR.Function) :
    (g.registers.map Prod.fst).countP IR.Register.isTemporary =
      (definitions g.lines).countP fun d => d.1.isTemporary := by
  have hparams : (g.params.map fun param =>
      (IR.Register.named param, IR.ValueType.scalar .int)).countP (fun d => d.1.isTemporary) = 0 :=
    List.countP_eq_zero.2 (List.forall_mem_map.2 fun _ _ => Bool.false_ne_true)
  rw [List.countP_map, IR.Function.registers, List.countP_append]
  exact (congrArg (· + _) hparams).trans (Nat.zero_add _)

/-- A function that is lowered first takes as many temporaries and labels as its text has lines that
define or mark one. -/
lemma FunctionDecl.countP_of_lower {f : FunctionDecl} {finalReturn : Bool} {c : Counters}
    {g : IR.Function} (h : f.lower finalReturn { temporaries := 0, labels := 0 } = .ok (g, c))
    (hnames : ∀ name ∈ g.mentioned, isIdentifier name = true) (style : PointerStyle) :
    (g.textLines style).countP definesTemporary = c.temporaries ∧
      (g.textLines style).countP marksBlock = c.labels := by
  have hlines := (List.forall_mem_append.1 (List.forall_mem_cons.1 hnames).2).2
  constructor
  · have hdefine (rest : String) : definesTemporary ("define i32 @" ++ rest) = false := by
      rw [definesTemporary, String.toList_append]
      rfl
    obtain ⟨count, hcount, hregisters⟩ := FunctionDecl.registers_of_lower h
    have htext : (g.lines.map (IR.Line.text style)).countP definesTemporary =
        (definitions g.lines).countP fun d => d.1.isTemporary :=
      IR.countP_map_text fun line hline => IR.Line.definesTemporary_text
        (fun name hname => hlines name (List.mem_flatMap.2 ⟨line, hline, hname⟩)) style
    rw [g.countP_textLines style rfl rfl hdefine, htext, ← g.countP_isTemporary, hregisters, hcount,
      List.countP_append, List.countP_map, List.countP_map]
    simp [Function.comp_def, IR.Register.isTemporary]
  · have hdefine (rest : String) : marksBlock ("define i32 @" ++ rest) = false := by
      rw [marksBlock, String.toList_append]
      rfl
    obtain ⟨hcount, hnumbers⟩ := FunctionDecl.labelNumbers_of_lower h
    have htext : (g.lines.map (IR.Line.text style)).countP marksBlock =
        (labels g.lines).countP fun l => l ≠ .entry :=
      IR.countP_map_text fun line _ => line.marksBlock_text style
    have hlength := hnumbers.length_eq
    rw [labelNumbers, List.flatMap_singleton, List.length_map, ← List.countP_eq_length_filter,
      List.length_range'] at hlength
    rw [g.countP_textLines style rfl rfl hdefine, htext, hlength, hcount, Nat.zero_add]

/-! ## A function in front of a program -/

lemma isIdentifier_of_shift {functions : List IR.Function}
    (h : ∀ g ∈ functions, ∀ name ∈ g.mentioned, isIdentifier name = true) (n k : Nat) :
    ∀ g ∈ functions.map (IR.Function.subst (.shift n k)),
      ∀ name ∈ g.mentioned, isIdentifier name = true := by
  refine List.forall_mem_map.2 fun g hg => ?_
  rw [IR.Function.mentioned_subst]
  exact List.forall_mem_map.2 (h g hg)

lemma map_renumberLine_functions {functions : List IR.Function}
    (h : ∀ g ∈ functions, ∀ name ∈ g.mentioned, isIdentifier name = true) (n k : Nat)
    (style : PointerStyle) :
    (functions.flatMap (IR.Function.textLines style)).map (renumberLine n k) =
      (functions.map (IR.Function.subst (.shift n k))).flatMap (IR.Function.textLines style) := by
  rw [List.map_flatMap, List.flatMap_map]
  exact List.flatMap_congr fun g hg => IR.Function.map_renumberLine n k (h g hg) style

/-- The lines of the body of a program that does nothing. -/
def emptyMainLines : List String :=
  ["", "define i32 @main() \x7b", "entry.0:", "  ret i32 0", "\x7d"]

lemma textLines_emptyMain (style : PointerStyle) :
    IR.Function.textLines style
      { name := "main", params := [], lines := functionLines [] [] true } = emptyMainLines := by
  cases style <;> decide +kernel

/-- A function that compiles alone, and whose name the program does not declare, can be put in front
of all its declarations.  The text then has the lines of the function first, and after them the
lines that it had, in which every number of a temporary has become higher by how many temporaries
the function defines, and every number of a label by how many labels it has. -/
theorem Program.compile_withFunction {p : Program} {g : FunctionDecl} {options : Options}
    {text alone : String} (hp : ∀ name ∈ p.identifiers, isIdentifier name = true)
    (hg : ∀ name ∈ g.alone.identifiers, isIdentifier name = true)
    (hcompile : p.compile options = .ok text) (halone : g.alone.compile options = .ok alone)
    (hfree : g.name ∉ p.declarationList.flatMap Decl.names) :
    ∃ own rest whole,
      Text.lines alone = IR.openingLines options.pointers ++ own ++ emptyMainLines ++ [""] ∧
      Text.lines text = IR.openingLines options.pointers ++ rest ∧
      (p.withFunction g).compile options = .ok whole ∧
      Text.lines whole = IR.openingLines options.pointers ++ own ++
        rest.map (renumberLine (own.countP definesTemporary) (own.countP marksBlock)) := by
  obtain ⟨p', m, c, hanalyze, hlower, rfl⟩ := Program.exists_of_compile hcompile
  obtain ⟨q, mg, d, hanalyzeg, hlowerg, rfl⟩ := Program.exists_of_compile halone
  obtain ⟨g', annotated, rfl, hwhole, hgenerate⟩ :=
    Program.generate_withFunction hanalyze hanalyzeg hfree
  obtain ⟨own, hown, hfunctions⟩ := FunctionDecl.lower_alone hlowerg
  have hm := Program.isIdentifier_of_annotated hp (Analyzer.of_result_eq_ok hanalyze).1 hlower
  have hmg := Program.isIdentifier_of_annotated hg (Analyzer.of_result_eq_ok hanalyzeg).1 hlowerg
  have hownNames : ∀ name ∈ own.mentioned, isIdentifier name = true := by
    rw [hfunctions] at hmg
    exact hmg own List.mem_cons_self
  obtain ⟨htemporaries, hlabels⟩ :=
    FunctionDecl.countP_of_lower hown hownNames options.pointers
  have hshifted := Program.lower_withFunction hown hlower
  have hrest := map_renumberLine_functions hm d.temporaries d.labels options.pointers
  have hnames := List.forall_mem_cons.2
    ⟨hownNames, isIdentifier_of_shift hm d.temporaries d.labels⟩
  refine ⟨own.textLines options.pointers,
    m.functions.flatMap (IR.Function.textLines options.pointers) ++ [""], _, ?_, ?_, ?_,
    (IR.Module.lines_text hnames options.pointers).trans ?_⟩
  · rw [IR.Module.lines_text hmg, IR.Module.textLines, hfunctions, List.flatMap_cons,
      List.flatMap_singleton, textLines_emptyMain]
    simp only [List.append_assoc]
  · rw [IR.Module.lines_text hm, IR.Module.textLines, List.append_assoc]
  · rw [Program.compile, hwhole]
    show (annotated.generate options).result.mapError CompileError.lowering = _
    rw [hgenerate, Program.result_generate, hshifted]
    rfl
  · rw [htemporaries, hlabels, List.map_append, hrest, IR.Module.textLines, List.flatMap_cons]
    simp only [List.append_assoc]
    rfl

/-- The factorial, under a name like that of a temporary. -/
def factorialDecl : FunctionDecl where
  name := "tmp1"
  params := some ["n"]
  locals := none
  body :=
    [.branch (.compare .equal (.var "n" none none) (.integer 0 none) none)
      [.ret (.integer 1 none)] none,
     .ret (.arith .mul (.var "n" none none)
      (.call "tmp1" (some [.arith .sub (.var "n" none none) (.integer 1 none) none]) none) none)]

/-- A loop that calls a function, with a parameter of the other function's name. -/
def doublingLoop : Program where
  declarations := some
    [.vars [.scalar "x"],
     .function
      { name := "twice"
        params := some ["tmp1"]
        locals := none
        body := [.ret (.arith .add (.var "tmp1" none none) (.var "tmp1" none none) none)] }]
  body :=
    [.read "x" none,
     .loop (.compare .greater (.var "x" none none) (.integer 0 none) none)
      [.print (.call "twice" (some [.var "x" none none]) none),
       .assign (.var "x" none) (.arith .sub (.var "x" none none) (.integer 1 none) none) none none]]

theorem Program.compile_withFunction_factorial :
    ∃ text alone own rest whole, doublingLoop.compile {} = .ok text ∧
      factorialDecl.alone.compile {} = .ok alone ∧
      Text.lines alone = IR.openingLines .typed ++ own ++ emptyMainLines ++ [""] ∧
      Text.lines text = IR.openingLines .typed ++ rest ∧
      (doublingLoop.withFunction factorialDecl).compile {} = .ok whole ∧
      Text.lines whole = IR.openingLines .typed ++ own ++
        rest.map (renumberLine (own.countP definesTemporary) (own.countP marksBlock)) := by
  have hcompiles : (doublingLoop.compile {}).toOption.isSome := by decide +kernel
  have hcompilesAlone : (factorialDecl.alone.compile {}).toOption.isSome := by decide +kernel
  obtain ⟨text, hsome⟩ := Option.isSome_iff_exists.1 hcompiles
  obtain ⟨alone, hsomeAlone⟩ := Option.isSome_iff_exists.1 hcompilesAlone
  have htext := eq_ok_of_toOption_eq_some hsome
  have halone := eq_ok_of_toOption_eq_some hsomeAlone
  obtain ⟨own, rest, whole, hlines⟩ :=
    Program.compile_withFunction (by decide) (by decide) htext halone (by decide)
  exact ⟨text, alone, own, rest, whole, htext, halone, hlines⟩

end DLang
