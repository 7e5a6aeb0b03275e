import DLang.Proofs.Module.FinalReturn
import DLang.Proofs.Module.Literals
import DLang.Proofs.Module.Reading

/-!
# The numbers of a text

The numbers of a source text are found again in the lines of the text that it is compiled to.  They
are read there from the words of the lines: a word that starts with a digit or a sign is the numeral
of an operand, except in an address, whose other indices are zeros.  The lines that reserve an array
or take the address of an element are told by the word of what they do, and are spelled out in full,
since the length of the array stands in them between other words.

So what lowering does with the numbers of a function is said of the lines of the function in the
text (`WrittenFunction.Shows`).  The result is `numerals_exact`: a number has one value on its way
from the source text through the tree to the text of the module, or it is reported.
-/

namespace DLang

/-! ## Reading a line -/

namespace Text

/-- Whether a numeral can have the character in it. -/
def isNumeralChar (c : Char) : Bool :=
  c.isDigit || c == '-'

/-- The numeral that a word starts with, if it starts with one. -/
def numeral (word : String) : List String :=
  let characters := word.toList.takeWhile isNumeralChar
  if characters = [] then [] else [String.ofList characters]

/-- The words of the instruction in a line, which is indented by two blanks. -/
def instructionWords (line : String) : List String :=
  (words line).drop 2

/-- The words of an instruction among which its operands are.  Where the address of an element or of
the format is taken, that is the last word; the numerals before it are parts of the address. -/
def operandWords (words : List String) : List String :=
  if IR.operationOf words = some "getelementptr" ∨
      IR.operationOf words = some "call" ∧
        (words[4]? = some "(i8*," ∨ words[4]? = some "(ptr,") then
    words.getLast?.toList
  else words

/-- The numerals that stand as operands in a line. -/
def numerals (line : String) : List String :=
  (operandWords (instructionWords line)).flatMap numeral

/-- Whether a line reserves an array. -/
def reservesArray (line : String) : Bool :=
  IR.operationOf (instructionWords line) = some "alloca" ∧ (instructionWords line)[4]? = some "x"

/-- Whether the address of an element is taken in a line. -/
def takesElement (line : String) : Bool :=
  IR.operationOf (instructionWords line) = some "getelementptr"

lemma numeral_eq_nil {word : String}
    (h : (word.toList.head?.all fun c => !isNumeralChar c) = true) : numeral word = [] := by
  have hrun : word.toList.takeWhile isNumeralChar = [] := by
    cases hword : word.toList with
    | nil => rfl
    | cons c rest =>
      rw [hword] at h
      exact List.takeWhile_cons_of_neg (by simpa using h)
  unfold numeral
  rw [hrun, if_pos rfl]

/-- A word that starts with a decimal numeral, ended by another character. -/
lemma numeral_decimal (value : Int32) (back : String)
    (hback : (back.toList.head?.all fun c => !isNumeralChar c) = true) :
    numeral (decimal value ++ back) = [decimal value] := by
  have hrun : (decimal value ++ back).toList.takeWhile isNumeralChar = (decimal value).toList := by
    rw [String.toList_append]
    refine Segment.takeWhile_of_run (fun d hd => ?_) fun d hd => ?_
    · rcases isDigit_or_eq_minus_of_mem_decimal hd with hdigit | rfl
      · simp [isNumeralChar, hdigit]
      · rfl
    · rw [Option.mem_def.1 hd] at hback
      simpa using hback
  unfold numeral
  rw [hrun, if_neg (toList_decimal_ne_nil value), String.ofList_toList]

/-- Where no address is taken and no function is called, all words are looked at. -/
lemma operandWords_eq_self {words : List String} {operation : String}
    (h : IR.operationOf words = some operation)
    (hne : operation ≠ "getelementptr" ∧ operation ≠ "call") : operandWords words = words := by
  unfold operandWords
  rw [h, if_neg (by simp [hne])]

end Text

/-! ## Operands -/

/-- The numerals of the integers among figures. -/
def Figure.spelled (figures : List Figure) : List String :=
  (figures.filterMap Figure.number?).map toString

/-- The array of an element. -/
def Figure.array? : Figure → Option String
  | literal _ => none
  | element array => some array

@[simp] lemma Figure.spelled_nil : Figure.spelled [] = [] :=
  rfl

@[simp] lemma Figure.spelled_append (figures figures' : List Figure) :
    Figure.spelled (figures ++ figures') = Figure.spelled figures ++ Figure.spelled figures' := by
  simp [Figure.spelled]

@[simp] lemma Figure.spelled_element (array : String) (figures : List Figure) :
    Figure.spelled (.element array :: figures) = Figure.spelled figures :=
  rfl

lemma Figure.spelled_flatMap {α : Type} (list : List α) (figures : α → List Figure) :
    Figure.spelled (list.flatMap figures) = list.flatMap fun a => Figure.spelled (figures a) := by
  simp [Figure.spelled, List.filterMap_flatMap, List.map_flatMap]

namespace IR

lemma Register.HasWord.numeral_eq_nil {r : Register} {word : String} (h : r.HasWord word)
    (back : String) : Text.numeral (word ++ back) = [] := by
  cases h <;> exact Text.numeral_eq_nil (by simp [Text.isNumeralChar])

/-- The word of an operand, with what may come after it. -/
lemma Operand.HasWord.numeral_eq {x : Operand} {word : String} (h : x.HasWord word)
    (back : String) (hback : (back.toList.head?.all fun c => !Text.isNumeralChar c) = true) :
    Text.numeral (word ++ back) = Figure.spelled x.figures := by
  cases h with
  | constant value => exact Text.numeral_decimal value back hback
  | register h => exact h.numeral_eq_nil back

lemma Operand.HasWord.numeral_eq_self {x : Operand} {word : String} (h : x.HasWord word) :
    Text.numeral word = Figure.spelled x.figures := by
  simpa using h.numeral_eq "" rfl

lemma ArgumentWords.numerals_eq {args : List Operand} {words : List String}
    (h : ArgumentWords args words) :
    words.flatMap Text.numeral = Figure.spelled (args.flatMap Operand.figures) := by
  induction h with
  | last h => simp [h.numeral_eq ")" rfl]
  | cons h hrest ih =>
    simp [h.numeral_eq "," rfl, Text.numeral_eq_nil, Text.isNumeralChar, ih]

lemma CallWords.numerals_eq {function : String} {args : List Operand} {words : List String}
    (h : CallWords function args words) :
    words.flatMap Text.numeral = Figure.spelled (args.flatMap Operand.figures) := by
  cases h with
  | empty => simp [Text.numeral_eq_nil, Text.isNumeralChar]
  | args h => simp [Text.numeral_eq_nil, Text.isNumeralChar, h.numerals_eq]

/-- The numerals that stand as operands in an instruction are those of the integers that it spells
out. -/
lemma Instr.HasWords.numerals_eq {style : PointerStyle} {i : Instr} {words : List String}
    (h : i.HasWords style words) :
    (Text.operandWords words).flatMap Text.numeral = Figure.spelled i.figures := by
  have hop := h.operationOf_eq
  have hself := Text.operandWords_eq_self hop
  cases h with
  | reserve slot =>
    rw [hself (by simp [Instr.operation])]
    simp [Text.numeral_eq_nil, Text.isNumeralChar, Instr.figures, Instr.operands]
  | reserveArray slot size =>
    rw [hself (by simp [Instr.operation])]
    simp [Text.numeral_eq_nil, Text.isNumeralChar, Instr.figures, Instr.operands]
  | store hvalue hpointer haddress =>
    rw [hself (by simp [Instr.operation])]
    cases hpointer <;> cases haddress <;>
      simp [Text.numeral_eq_nil, Text.isNumeralChar, Instr.figures, Instr.operands,
        Operand.figures, hvalue.numeral_eq "," rfl]
  | load into hpointer haddress =>
    rw [hself (by simp [Instr.operation])]
    cases hpointer <;> cases haddress <;>
      simp [Text.numeral_eq_nil, Text.isNumeralChar, Instr.figures, Instr.operands,
        Operand.figures]
  | elementAddress into size array hpointer hindex =>
    rw [Text.operandWords, hop, if_pos (.inl rfl)]
    cases hpointer <;> simp [Instr.figures, hindex.numeral_eq_self]
  | arith into hopcode hleft hright =>
    rw [hself (by simp [Instr.operation])]
    cases hopcode <;>
      simp [Text.numeral_eq_nil, Text.isNumeralChar, Instr.figures, Instr.operands,
        hleft.numeral_eq "," rfl, hright.numeral_eq_self]
  | compare into hpredicate hty hleft hright =>
    rw [hself (by simp [Instr.operation])]
    cases hpredicate <;> cases hty <;>
      simp [Text.numeral_eq_nil, Text.isNumeralChar, Instr.figures, Instr.operands,
        hleft.numeral_eq "," rfl, hright.numeral_eq_self]
  | widen into hvalue =>
    rw [hself (by simp [Instr.operation])]
    simp [Text.numeral_eq_nil, Text.isNumeralChar, Instr.figures, Instr.operands,
      hvalue.numeral_eq_self]
  | @call into function args c hcall =>
    -- The word after the type is the name of the function, not the type of its arguments.
    have hname : (["%tmp." ++ toString into, "=", "call", "i32"] ++ c)[4]? = c.head? := by
      rw [List.getElem?_append_right (by simp), List.head?_eq_getElem?]
      rfl
    rw [Text.operandWords, hop, hname, if_neg ?_]
    · simp [Instr.figures, hcall.numerals_eq, Instr.operands, List.flatMap_map,
        Text.numeral_eq_nil, Text.isNumeralChar]
    · rintro (heq | ⟨_, htype | htype⟩)
      · simp [Instr.operation] at heq
      · exact absurd (hcall.head_of_mem_head? _ htype) (by decide)
      · exact absurd (hcall.head_of_mem_head? _ htype) (by decide)
  | print into hcall hvalue =>
    rw [Text.operandWords, hop, if_pos ?_]
    · cases hcall <;> simp [Instr.figures, hvalue.numeral_eq ")" rfl, Instr.operands]
    · cases hcall <;> simp [Instr.operation]
  | read into slot hcall hpointer =>
    rw [Text.operandWords, hop, if_pos ?_]
    · cases hcall <;> cases hpointer <;>
        simp [Text.numeral_eq_nil, Text.isNumeralChar, Instr.figures, Instr.operands,
          Operand.figures]
    · cases hcall <;> simp [Instr.operation]
  | jump hlabel =>
    rw [hself (by simp [Instr.operation])]
    simp [Text.numeral_eq_nil, Text.isNumeralChar, Instr.figures, Instr.operands]
  | branch hcondition hyes hno =>
    rw [hself (by simp [Instr.operation])]
    simp [Text.numeral_eq_nil, Text.isNumeralChar, Instr.figures, Instr.operands,
      hcondition.numeral_eq "," rfl]
  | ret hvalue =>
    rw [hself (by simp [Instr.operation])]
    simp [Text.numeral_eq_nil, Text.isNumeralChar, Instr.figures, Instr.operands,
      hvalue.numeral_eq_self]

/-! ## Lines -/

lemma Line.instructionWords_instr {style : PointerStyle} {i : Instr} {words : List String}
    (h : i.HasWords style words) (hi : ∀ name ∈ i.mentioned, isIdentifier name = true) :
    Text.instructionWords ((instr i).text style) = words := by
  have htext : (instr i).text style = " ".intercalate ("" :: "" :: words) := by
    rw [String.intercalate_cons_cons, String.intercalate_cons_of_ne_nil h.ne_nil, h.text_eq]
    exact String.ext (by simp [Line.text])
  rw [Text.instructionWords, htext, Text.words_intercalate (by simp) ?_]
  · rfl
  · simpa using h.blank_notMem hi

lemma Line.instructionWords_label (style : PointerStyle) (l : Label) :
    Text.instructionWords ((label l).text style) = [] := by
  have htext : (label l).text style = " ".intercalate [l.text ++ ":"] := by
    rw [String.intercalate_singleton]
    rfl
  rw [Text.instructionWords, htext, Text.words_intercalate (by simp) ?_]
  · rfl
  · simp [l.hasWord_text.blank_notMem]

/-- The numerals that stand as operands in a line. -/
lemma Line.numerals_text (style : PointerStyle) {line : Line}
    (h : ∀ name ∈ line.mentioned, isIdentifier name = true) :
    Text.numerals (line.text style) = Figure.spelled line.figures := by
  cases line with
  | label l =>
    rw [Text.numerals, Line.instructionWords_label]
    rfl
  | instr i =>
    obtain ⟨words, hwords⟩ := i.exists_hasWords style
    rw [Text.numerals, Line.instructionWords_instr hwords h, hwords.numerals_eq]
    rfl

/-- The zeros of an address are no operands. -/
example : Text.numerals "  %tmp.2 = getelementptr [3 x i32], [3 x i32]* %a, i32 0, i32 70" =
    ["70"] := by
  decide +kernel

end IR

/-- The line that reserves an array. -/
def reservationLine (array : String × Nat) : String :=
  "  %" ++ array.1 ++ " = alloca [" ++ toString array.2 ++ " x i32]"

/-- Where the address of an element is taken: the number of the register for it, the array with its
length, and the index as it is written. -/
structure Access where
  into : Nat
  array : String
  size : Nat
  index : String

/-- The line that takes the address of an element. -/
def Access.line (style : PointerStyle) (a : Access) : String :=
  "  %tmp." ++ toString a.into ++ " = getelementptr [" ++ toString a.size ++ " x i32], " ++
    (match style with
      | .typed => "[" ++ toString a.size ++ " x i32]*"
      | .untyped => "ptr") ++
    " %" ++ a.array ++ ", i32 0, i32 " ++ a.index

namespace IR

/-- The element whose address is taken in a line. -/
def Line.access? : Line → Option Access
  | instr (.elementAddress into size array index) => some ⟨into, array, size, index.text⟩
  | _ => none

lemma Line.reservesArray_text (style : PointerStyle) {line : Line}
    (h : ∀ name ∈ line.mentioned, isIdentifier name = true) :
    Text.reservesArray (line.text style) = line.reserved?.isSome := by
  cases line with
  | label l =>
    rw [Text.reservesArray, Line.instructionWords_label]
    rfl
  | instr i =>
    obtain ⟨words, hwords⟩ := i.exists_hasWords style
    rw [Text.reservesArray, Line.instructionWords_instr hwords h, hwords.operationOf_eq]
    cases hwords <;> simp [Line.reserved?, Instr.operation]

lemma Line.takesElement_text (style : PointerStyle) {line : Line}
    (h : ∀ name ∈ line.mentioned, isIdentifier name = true) :
    Text.takesElement (line.text style) = line.access?.isSome := by
  cases line with
  | label l =>
    rw [Text.takesElement, Line.instructionWords_label]
    rfl
  | instr i =>
    obtain ⟨words, hwords⟩ := i.exists_hasWords style
    rw [Text.takesElement, Line.instructionWords_instr hwords h, hwords.operationOf_eq]
    cases hwords <;> simp [Line.access?, Instr.operation]

lemma Line.text_of_reserved? (style : PointerStyle) {line : Line} {array : String × Nat}
    (h : line.reserved? = some array) : line.text style = reservationLine array := by
  unfold Line.reserved? at h
  split at h
  · cases h
    unfold Line.text Instr.text
    exact String.ext (by simp [reservationLine, Register.text, arrayType])
  · cases h

lemma Line.text_of_access? (style : PointerStyle) {line : Line} {a : Access}
    (h : line.access? = some a) : line.text style = a.line style := by
  unfold Line.access? at h
  split at h
  · cases h
    unfold Access.line Line.text Instr.text
    cases style <;>
      exact String.ext (by simp [resultText, Register.text, arrayType, pointer])
  · cases h

/-- The lines of a text that are selected by their words are those of the lines that were selected
before they were written. -/
lemma filter_map_text {α : Type} {style : PointerStyle} {lines : List Line}
    {selected : String → Bool} {select : Line → Option α} {write : α → String}
    (hselected : ∀ line ∈ lines, selected (line.text style) = (select line).isSome)
    (hwrite : ∀ line a, select line = some a → line.text style = write a) :
    (lines.map (Line.text style)).filter selected = (lines.filterMap select).map write := by
  induction lines with
  | nil => rfl
  | cons line rest ih =>
    obtain ⟨hline, hrest⟩ := List.forall_mem_cons.1 hselected
    rw [List.map_cons]
    cases hselect : select line with
    | none =>
      rw [hselect] at hline
      rw [List.filter_cons_of_neg (by simp [hline]), List.filterMap_cons_none hselect, ih hrest]
    | some a =>
      rw [hselect] at hline
      rw [List.filter_cons_of_pos (by simp [hline]), List.filterMap_cons_some hselect, ih hrest,
        hwrite line a hselect, List.map_cons]

@[simp] lemma Operand.filterMap_array?_figures (x : Operand) :
    x.figures.filterMap Figure.array? = [] := by
  cases x <;> rfl

/-- The addresses that are taken are those of the elements among the figures. -/
lemma map_array_filterMap_access? (lines : List Line) :
    (lines.filterMap Line.access?).map Access.array =
      (lines.flatMap Line.figures).filterMap Figure.array? := by
  rw [List.filterMap_flatMap, List.map_filterMap, List.filterMap_eq_flatMap_toList]
  refine List.flatMap_congr fun line _ => ?_
  cases line with
  | label l => rfl
  | instr i =>
    cases i with
    | elementAddress into size array index =>
      simp [Line.access?, Line.figures, Instr.figures, Figure.array?]
    | _ => simp [Line.access?, Line.figures, Instr.figures, List.filterMap_flatMap]

end IR

/-! ## Functions -/

/-- A function in a text shows the numbers of a function of the program.  Its body here is all that
is between its head and its closing brace, with the final return if there is one. -/
structure WrittenFunction.Shows (style : PointerStyle) (f : FunctionDecl) (finalReturn : Bool)
    (g : WrittenFunction) : Prop where
  head : ("define i32 @" ++ f.name ++ "(").toList <+: g.head.toList
  /-- The brace at its end is the first one. -/
  unclosed : "\x7d" ∉ g.body
  /-- The numerals of its operands are those of the integers of the body, each as often as the body
  has it, and zeros besides. -/
  numerals : (g.body.flatMap Text.numerals).Perm
    (((Stmt.figuresAll f.body).filterMap Figure.number?).map toString ++
      List.replicate (f.zeros finalReturn) "0")
  /-- The lines that reserve an array are those of the declared arrays with their lengths, in
  order. -/
  reserved : g.body.filter Text.reservesArray = f.arrays.map reservationLine
  /-- The address of an element is taken as often as the body has one of the array, and the line has
  the one length that is declared for the array. -/
  accesses : ∃ accesses : List Access,
    g.body.filter Text.takesElement = accesses.map (Access.line style) ∧
    (accesses.map Access.array).Perm ((Stmt.figuresAll f.body).filterMap Figure.array?) ∧
    ∀ a ∈ accesses, ∀ n, (a.array, n) ∈ f.arrays ↔ n = a.size

lemma WrittenFunction.shows_bare_iff {style : PointerStyle} {f : FunctionDecl} {finalReturn : Bool}
    {g : WrittenFunction} : g.Shows style f.bare finalReturn ↔ g.Shows style f finalReturn := by
  have hbody : Stmt.figuresAll f.bare.body = Stmt.figuresAll f.body :=
    Stmt.figuresAll_bareAll f.body
  constructor
  · intro h
    exact ⟨h.head, h.unclosed, hbody ▸ h.numerals, h.reserved, hbody ▸ h.accesses⟩
  · intro h
    exact ⟨h.head, h.unclosed, hbody ▸ h.numerals, h.reserved, hbody ▸ h.accesses⟩

/-- A well-typed function shows the numbers of the one that it is lowered from. -/
lemma FunctionDecl.shows_of_lower {f : FunctionDecl} {finalReturn : Bool} {c c' : Counters}
    {g : IR.Function} {style : PointerStyle} (hg : g.WellTyped style)
    (hnames : ∀ name ∈ g.mentioned, isIdentifier name = true)
    (h : f.lower finalReturn c = .ok (g, c')) : (g.written style).Shows style f finalReturn := by
  have hlines : ∀ line ∈ g.lines, ∀ name ∈ line.mentioned, isIdentifier name = true := by
    intro line hline name hname
    apply hnames name
    apply List.mem_cons_of_mem
    exact List.mem_append_right _ (List.mem_flatMap.2 ⟨line, hline, hname⟩)
  have hfigures := FunctionDecl.figures_of_lower h
  have hreserved := FunctionDecl.reserved_of_lower h
  refine ⟨?_, IR.brace_notMem_map_text style g.lines, ?_, ?_,
    g.lines.filterMap IR.Line.access?, ?_, ?_, ?_⟩
  · rw [← FunctionDecl.name_of_lower h]
    exact g.head_written style
  · have hnumerals : (g.lines.map (IR.Line.text style)).flatMap Text.numerals =
        Figure.spelled (g.lines.flatMap IR.Line.figures) := by
      rw [Figure.spelled_flatMap, List.flatMap_map]
      exact List.flatMap_congr fun line hline => IR.Line.numerals_text style (hlines line hline)
    have hzero : Figure.number? (.literal 0) = some 0 := rfl
    have hspelled := (hfigures.filterMap Figure.number?).map toString
    rw [List.filterMap_append, List.filterMap_replicate_of_some hzero, List.map_append,
      List.map_replicate] at hspelled
    exact hnumerals ▸ hspelled
  · have hselected := fun line hline => IR.Line.reservesArray_text style (hlines line hline)
    rw [← hreserved]
    exact IR.filter_map_text hselected fun line array => IR.Line.text_of_reserved? style
  · have hselected := fun line hline => IR.Line.takesElement_text style (hlines line hline)
    exact IR.filter_map_text hselected fun line a => IR.Line.text_of_access? style
  · have hzero : Figure.array? (.literal 0) = none := rfl
    have harrays := hfigures.filterMap Figure.array?
    rw [List.filterMap_append, List.filterMap_replicate_of_none hzero, List.append_nil] at harrays
    rw [IR.map_array_filterMap_access?]
    exact harrays
  · intro a ha n
    obtain ⟨line, hline, haccess⟩ := List.mem_filterMap.1 ha
    unfold IR.Line.access? at haccess
    split at haccess
    · cases haccess
      have hsize := hg.mem_reserved hline
      rw [← hreserved]
      exact ⟨fun hn => hg.eq_of_mem_reserved hn hsize, fun hn => hn ▸ hsize⟩
    · cases haccess

/-! ## Programs -/

lemma LowersTo.forall₂ {units : List (FunctionDecl × Bool)} {list : List IR.Function}
    {c c' : Counters} {related : FunctionDecl × Bool → IR.Function → Prop}
    (h : LowersTo units c list c')
    (hrelated : ∀ g ∈ list, ∀ f finalReturn c c', f.lower finalReturn c = .ok (g, c') →
      related (f, finalReturn) g) : List.Forall₂ related units list := by
  induction h with
  | nil => exact .nil
  | cons hf _ ih =>
    obtain ⟨hfirst, hrest⟩ := List.forall_mem_cons.1 hrelated
    exact .cons (hfirst _ _ _ _ hf) (ih hrest)

lemma Program.units_bare (p : Program) (finalReturn : Bool) :
    p.bare.units finalReturn = (p.units finalReturn).map fun unit => (unit.1.bare, unit.2) := by
  have hmain : p.bare.mainDecl = p.mainDecl.bare := by
    rw [Program.mainDecl, p.varDefs_bare]
    rfl
  rw [Program.units, Program.units, hmain, p.functions_bare]
  simp

/-- The functions in the text of a module show the numbers of those of the program. -/
lemma Program.shows_of_lower {p annotated : Program} {finalReturn : Bool} {style : PointerStyle}
    {m : IR.Module} {counters : Counters} (hbare : annotated.bare = p.bare)
    (htyped : ∀ g ∈ m.functions, g.WellTyped style)
    (hnames : ∀ g ∈ m.functions, ∀ name ∈ g.mentioned, isIdentifier name = true)
    (h : (annotated.lower finalReturn).result = .ok (m, counters)) :
    List.Forall₂ (fun unit g => WrittenFunction.Shows style unit.1 unit.2 g) (p.units finalReturn)
      (m.functions.map (IR.Function.written style)) := by
  have hannotated : List.Forall₂ (fun unit g => WrittenFunction.Shows style unit.1 unit.2 g)
      (annotated.bare.units finalReturn) (m.functions.map (IR.Function.written style)) := by
    rw [Program.units_bare, List.forall₂_map_left_iff, List.forall₂_map_right_iff]
    exact (Program.lowersTo h).forall₂ fun g hg _ _ _ _ hf => WrittenFunction.shows_bare_iff.2
      (FunctionDecl.shows_of_lower (htyped g hg) (hnames g hg) hf)
  rw [hbare, Program.units_bare, List.forall₂_map_left_iff] at hannotated
  exact hannotated.imp fun _ _ hshows => WrittenFunction.shows_bare_iff.1 hshows

/-- The numbers in a program are those of the functions that a module is lowered from. -/
lemma Program.perm_numerals_units (p : Program) (finalReturn : Bool) :
    ((p.units finalReturn).flatMap fun unit => unit.1.numerals).Perm p.numerals := by
  have hdecl (d : Decl) :
      d.functions.flatMap FunctionDecl.numerals ++ d.varDefs.flatMap VarDef.numerals =
        d.numerals := by
    cases d with
    | vars group => rfl
    | function f => exact (List.append_nil _).trans (List.flatMap_singleton ..)
  have hdecls := List.flatMap_append_perm p.declarationList
    (fun d => d.functions.flatMap FunctionDecl.numerals)
    (fun d => d.varDefs.flatMap VarDef.numerals)
  simp only [hdecl] at hdecls
  rw [Program.units, List.flatMap_append, List.flatMap_map, List.flatMap_singleton,
    Program.numerals, FunctionDecl.numerals, ← List.append_assoc]
  refine List.Perm.append_right _ ?_
  rw [p.functions_eq, List.flatMap_assoc]
  have hlocals : p.mainDecl.localList = p.declarationList.flatMap Decl.varDefs := p.varDefs_eq
  rw [hlocals, List.flatMap_assoc]
  exact hdecls

/-! ## From the source text to the text of the module -/

section Source

variable {source : String} {front tail : List Token} {num : Token}

/-- Digits of any number, with any zeros in front, are one lexeme. -/
lemma scan_digits (hne : source.toList ≠ []) (hdigits : ∀ d ∈ source.toList, d.isDigit = true) :
    (scan source).tokens.map Token.lexeme = [⟨.number, source⟩] := by
  have hlaid : Laid [⟨.number, source⟩] (source.toList ++ []) := .lexeme (by simp) .nil
  rw [List.append_nil] at hlaid
  have hsign : Kind.number ∉ Lexeme.openSigns := by decide
  exact (scan_of_laid hlaid (.cons (.number hne hdigits) hsign .nil)).1

lemma digits_of_mem_scan (hmem : num ∈ (scan source).tokens) (hnum : num.kind = .number) :
    num.text.toList ≠ [] ∧ ∀ d ∈ num.text.toList, d.isDigit = true :=
  digits_of_proper (proper_of_mem_scan hmem) hnum

lemma isSome_readInt32_of_mem_scan (hmem : num ∈ (scan source).tokens) (hnum : num.kind = .number) :
    (Text.readInt32 num.text).isSome = true ↔ num.value ≤ 2147483647 := by
  obtain ⟨hne, hdigits⟩ := digits_of_mem_scan hmem hnum
  exact Text.isSome_readInt32_iff hne hdigits

lemma parseSource_eq_parse_error_iff {e : ParseError} :
    (parseSource source).result = .error (.parse e) ↔
      (parse (scan source).tokens).result = .error e := by
  rw [result_parseSource]
  cases (parse (scan source).tokens).result with
  | ok p => exact ⟨fun h => (by cases h), fun h => (by cases h)⟩
  | error e' =>
    constructor
    · intro h
      cases h
      rfl
    · intro h
      cases h
      rfl

/-- A number that is expected is taken if it is in range, and reported if not. -/
lemma parseSource_of_expectsNumber (hsource : (scan source).tokens = front ++ num :: tail)
    (hnum : num.kind = .number) (hfront : ExpectsNumber front) :
    if num.value ≤ 2147483647 then
      (parse (scan source).tokens).rest <:+ tail ∧
        ∀ line, (parseSource source).result ≠ .error (.parse (.outOfRange num.text line))
    else (parseSource source).result = .error (.parse (.outOfRange num.text num.line)) := by
  have hmem : num ∈ (scan source).tokens := by simp [hsource]
  have hiff := isSome_readInt32_of_mem_scan hmem hnum
  split
  case isTrue hrange =>
    have hread := hiff.2 hrange
    refine ⟨?_, fun line hline => ?_⟩
    · rw [hsource]
      exact hfront.rest_suffix hnum hread tail
    · obtain ⟨_, _, _, _, hunread, htext, _⟩ :=
        exists_of_parse_outOfRange (parseSource_eq_parse_error_iff.1 hline)
      rw [htext, hunread] at hread
      cases hread
  case isFalse hrange =>
    have hread : Text.readInt32 num.text = none :=
      Option.eq_none_iff_forall_ne_some.2 fun value hvalue =>
        hrange (hiff.1 (Option.isSome_of_eq_some hvalue))
    rw [parseSource_eq_parse_error_iff, hsource]
    exact (hfront.parse_eq hnum hread tail).1

/-- Nothing else is reported as out of range. -/
lemma exists_of_parseSource_outOfRange {literal : String} {line : Nat}
    (h : (parseSource source).result = .error (.parse (.outOfRange literal line))) :
    ∃ front num tail, (scan source).tokens = front ++ num :: tail ∧ num.kind = .number ∧
      ExpectsNumber front ∧ 2147483647 < num.value ∧ literal = num.text ∧ line = num.line := by
  obtain ⟨front, num, htokens, hnum, hunread, hliteral, hline, hfront⟩ :=
    exists_of_parse_outOfRange (parseSource_eq_parse_error_iff.1 h)
  have hmem : num ∈ (scan source).tokens := by
    rw [htokens]
    exact List.mem_append_right front List.mem_cons_self
  refine ⟨front, num, _, htokens, hnum, hfront, ?_, hliteral, hline⟩
  refine Nat.lt_of_not_le fun hrange => ?_
  have hread := (isSome_readInt32_of_mem_scan hmem hnum).2 hrange
  rw [hunread] at hread
  cases hread

/-- The numbers of a program that was parsed are in range. -/
lemma value_le_of_parseSource {p : Program} {illegals : List IllegalCharacter}
    (h : (parseSource source).result = .ok (p, illegals)) (hmem : num ∈ (scan source).tokens)
    (hnum : num.kind = .number) : num.value ≤ 2147483647 := by
  have haccepted : Accepted (scan source).tokens := ⟨p, parse_of_derives (derives_of_parseSource h)⟩
  exact (isSome_readInt32_of_mem_scan hmem hnum).1 (haccepted.numeralsRead num hmem hnum)

/-- Their numerals are those of the source text, without the zeros in front. -/
lemma map_toString_numberValues (source : String) :
    (numberValues (scan source).tokens).map toString =
      ((scan source).tokens.filter fun token => token.kind = .number).map
        fun token => Text.canonical token.text.toList := by
  rw [numberValues, List.map_map]
  refine List.map_congr_left fun token htoken => ?_
  obtain ⟨hmem, hkind⟩ := List.mem_filter.1 htoken
  exact Text.toString_decimalValue (digits_of_mem_scan hmem (of_decide_eq_true hkind)).2

end Source

/-- **Numbers are exact up to the limit of 32 bits.**  A number token is a nonempty list of digits,
and every such list is one.  Where a number is expected, it is taken if its value is in range, and
reported with its digits and its line if not; nothing else is reported so.  The numbers in the tree
of a source text, array lengths included, are those of the text, one for one: none of them is
negative or above the limit, and their numerals are the digits of the text without the zeros in
front.  In the lines of the text that the source text is compiled to, function by function, they are
the numerals of the operands, and the lengths of the arrays, which are the same where an array is
reserved and where the address of an element is taken. -/
theorem numerals_exact (source : String) (options : Options) :
    (∀ num ∈ (scan source).tokens, num.kind = .number →
      num.text.toList ≠ [] ∧ ∀ d ∈ num.text.toList, d.isDigit = true) ∧
    (source.toList ≠ [] → (∀ d ∈ source.toList, d.isDigit = true) →
      (scan source).tokens.map Token.lexeme = [⟨.number, source⟩]) ∧
    (∀ front num tail, (scan source).tokens = front ++ num :: tail → num.kind = .number →
      ExpectsNumber front →
      if num.value ≤ 2147483647 then
        (parse (scan source).tokens).rest <:+ tail ∧
          ∀ line, (parseSource source).result ≠ .error (.parse (.outOfRange num.text line))
      else (parseSource source).result = .error (.parse (.outOfRange num.text num.line))) ∧
    (∀ literal line, (parseSource source).result = .error (.parse (.outOfRange literal line)) →
      ∃ front num tail, (scan source).tokens = front ++ num :: tail ∧ num.kind = .number ∧
        ExpectsNumber front ∧ 2147483647 < num.value ∧ literal = num.text ∧ line = num.line) ∧
    (∀ p illegals, (parseSource source).result = .ok (p, illegals) →
      p.numerals = numberValues (scan source).tokens ∧
      (∀ n ∈ p.numerals, 0 ≤ n ∧ n ≤ 2147483647) ∧
      p.numerals.map toString =
        ((scan source).tokens.filter fun token => token.kind = .number).map
          fun token => Text.canonical token.text.toList) ∧
    ∀ text, (compileSource options source).result = .ok text →
      ∃ p illegals opening functions, (parseSource source).result = .ok (p, illegals) ∧
        IR.OpeningLines options.pointers opening ∧
        Text.lines text = opening ++ functions.flatMap (WrittenFunction.lines false) ++ [""] ∧
        ((p.units options.finalReturn).flatMap fun unit => unit.1.numerals).Perm p.numerals ∧
        List.Forall₂ (fun unit g => WrittenFunction.Shows options.pointers unit.1 unit.2 g)
          (p.units options.finalReturn) functions := by
  refine ⟨fun num hmem hnum => digits_of_mem_scan hmem hnum, scan_digits,
    fun front num tail => parseSource_of_expectsNumber,
    fun literal line => exists_of_parseSource_outOfRange, ?_, ?_⟩
  · intro p illegals hparse
    have hnumerals := numerals_of_parseSource hparse
    refine ⟨hnumerals, ?_, ?_⟩
    · intro n hn
      rw [hnumerals] at hn
      obtain ⟨num, hnum, rfl⟩ := List.mem_map.1 hn
      obtain ⟨hmem, hkind⟩ := List.mem_filter.1 hnum
      have hrange := value_le_of_parseSource hparse hmem (of_decide_eq_true hkind)
      omega
    · rw [hnumerals]
      exact map_toString_numberValues source
  · intro text htext
    obtain ⟨p, illegals, annotated, m, counters, hparse, hanalyze, hlower, hmodule⟩ :=
      exists_of_compileSource htext
    obtain ⟨hbare, hwell, hann⟩ := Analyzer.of_result_eq_ok hanalyze
    have hnames :=
      Program.isIdentifier_of_annotated (isIdentifier_of_mem_identifiers hparse) hbare hlower
    have htyped : ∀ g ∈ m.functions, g.WellTyped options.pointers := fun g hg =>
      IR.Function.wellTyped_of_supplied options.pointers
        (Program.nodup_names_of_lower hbare hwell (isIdentifier_of_parseSource hparse) hlower hg)
        (Program.supplied_of_lower hann hlower hg)
    refine ⟨p, illegals, _, _, hparse, IR.openingLines_inFormat options.pointers, ?_,
      p.perm_numerals_units options.finalReturn, Program.shows_of_lower hbare htyped hnames hlower⟩
    rw [hmodule, IR.Module.lines_text hnames, IR.Module.textLines, List.flatMap_map]
    simp only [IR.Function.lines_written]

/-- Prints the first number that is out of range, with zeros in front of it. -/
def overLimit : String :=
  "\x7b\nprint(002147483648)\n\x7d"

/-- Has numbers with zeros in front of them, one of them as the length of an array. -/
def paddedNumbers : String :=
  "int a[003]; \x7b a[02] = 0070; print(a[1 + 1]) \x7d"

/-- The first number out of range is reported, and in the text of the second program the numbers
have no zeros in front and the array has one length. -/
theorem numerals_exact_overLimit_padded :
    (∃ front num tail, (scan overLimit).tokens = front ++ num :: tail ∧ num.kind = .number ∧
      ExpectsNumber front ∧ num.value = 2147483648 ∧
      (parseSource overLimit).result = .error (.parse (.outOfRange "002147483648" 2))) ∧
    ∃ text opening, ∃ main : WrittenFunction, ∃ accesses : List Access,
      (compileSource { pointers := .typed, finalReturn := false } paddedNumbers).result = .ok text ∧
        Text.lines text = opening ++ main.lines false ++ [""] ∧
        (main.body.flatMap Text.numerals).Perm ["2", "70", "1", "1", "0"] ∧
        main.body.filter Text.reservesArray = ["  %a = alloca [3 x i32]"] ∧
        main.body.filter Text.takesElement = accesses.map (Access.line .typed) ∧
        (accesses.map Access.array).Perm ["a", "a"] ∧
        ∀ a ∈ accesses, a.array = "a" ∧ a.size = 3 := by
  constructor
  · let front : List Token := (scan overLimit).tokens.take 3
    let num : Token := ⟨.number, "002147483648", 2⟩
    let tail : List Token := (scan overLimit).tokens.drop 4
    have hsource : (scan overLimit).tokens = front ++ num :: tail := by decide +kernel
    have haccepted : (parse (front ++ ⟨.number, "7", 2⟩ :: tail)).result.toOption.isSome := by
      decide +kernel
    obtain ⟨p, hp⟩ := Option.isSome_iff_exists.1 haccepted
    have hfront : ExpectsNumber front := ⟨_, tail, rfl, p, eq_ok_of_toOption_eq_some hp⟩
    have hvalue : num.value = 2147483648 := by decide +kernel
    have hreported := (numerals_exact overLimit
      { pointers := .untyped, finalReturn := false }).2.2.1 front num tail hsource rfl hfront
    rw [if_neg (by omega)] at hreported
    exact ⟨front, num, tail, hsource, rfl, hfront, hvalue, hreported⟩
  · have hcompiles : (compileSource { pointers := .typed, finalReturn := false }
        paddedNumbers).result.toOption.isSome := by decide +kernel
    have hunits : ((parseSource paddedNumbers).result.toOption.map fun parsed =>
        (parsed.1.units false).map fun unit =>
          (((Stmt.figuresAll unit.1.body).filterMap Figure.number?).map toString ++
              List.replicate (unit.1.zeros unit.2) "0",
            unit.1.arrays, (Stmt.figuresAll unit.1.body).filterMap Figure.array?)) =
        some [(["2", "70", "1", "1", "0"], [("a", 3)], ["a", "a"])] := by decide +kernel
    obtain ⟨text, htext⟩ := Option.isSome_iff_exists.1 hcompiles
    have htext := eq_ok_of_toOption_eq_some htext
    obtain ⟨p, illegals, opening, functions, hparse, _, hlines, _, hshows⟩ :=
      (numerals_exact paddedNumbers { pointers := .typed, finalReturn := false }).2.2.2.2.2
        text htext
    rw [hparse] at hunits
    obtain ⟨unit, hunit, hfacts⟩ := List.map_eq_singleton_iff.1 (Option.some.inj hunits)
    simp only [Prod.mk.injEq] at hfacts
    obtain ⟨hnumerals, harrays, helements⟩ := hfacts
    rw [hunit] at hshows
    cases hshows with
    | @cons _ main _ _ hmain hrest =>
      cases hrest
      obtain ⟨accesses, haccesses, hperm, hsizes⟩ := hmain.accesses
      rw [helements] at hperm
      refine ⟨text, opening, main, accesses, htext, ?_, hnumerals ▸ hmain.numerals, ?_, haccesses,
        hperm, ?_⟩
      · simpa using hlines
      · rw [hmain.reserved, harrays]
        rfl
      · intro a ha
        have harray : a.array = "a" := by
          simpa using hperm.subset (List.mem_map_of_mem ha)
        refine ⟨harray, ((hsizes a ha 3).1 ?_).symm⟩
        rw [harrays, harray]
        exact List.mem_singleton_self _

end DLang
