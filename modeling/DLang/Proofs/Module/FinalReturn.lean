import DLang.Proofs.Lowering.Emission
import DLang.Proofs.Module.Spelling

/-!
# Functions without a final return

Lowering can leave out the return of zero at the end of the functions of a program.  The choice
decides nothing else: not whether lowering succeeds, no number and no line before that return
(`Program.lower_result`).  `main` keeps its return in any case.

A function whose final return is left out ends with the last line of its body, and whether this line
ends a block is told by the last statement alone.  Blocks leave no lines of their own, so what counts
is the last statement once blocks are opened up (`Stmt.flatAll`).  It has to be a return.  A branch
does not do, even if both of its sides return, since the label after it is then the last line
(`Stmt.endsBlock_lowerAll`).

The main result is `Program.generate_finalReturn`.
-/

namespace DLang

/-! ## Statements without blocks -/

mutual

/-- A statement as statements that are no blocks, whatever may be inside them. -/
def Stmt.flat : Stmt → List Stmt
  | .assign target value targetTy ty => [.assign target value targetTy ty]
  | .print value => [.print value]
  | .read name symbol => [.read name symbol]
  | .ret value => [.ret value]
  | .branch condition yes no => [.branch condition yes no]
  | .loop condition body => [.loop condition body]
  | .block body => Stmt.flatAll body

/-- Statements with all blocks among them replaced by their contents. -/
def Stmt.flatAll : List Stmt → List Stmt
  | [] => []
  | s :: rest => s.flat ++ Stmt.flatAll rest

end

/-- Whether a statement is a return. -/
def Stmt.isReturn : Stmt → Bool
  | .ret _ => true
  | _ => false

/-- Whether the body of a function ends with a return once its blocks are opened up. -/
def FunctionDecl.endsInReturn (f : FunctionDecl) : Bool :=
  (Stmt.flatAll f.body).getLast?.any Stmt.isReturn

/-! ## The last line -/

/-- Whether a line is an instruction that ends a block. -/
def IR.Line.isTerminator : IR.Line → Bool
  | label _ => false
  | instr i => i.isTerminator

/-- Whether the last of some lines ends a block. -/
def endsBlock (lines : List IR.Line) : Bool :=
  lines.getLast?.any IR.Line.isTerminator

lemma endsBlock_concat (front lines : List IR.Line) (line : IR.Line) :
    endsBlock (front ++ (lines ++ [line])) = line.isTerminator := by
  unfold endsBlock
  rw [← List.append_assoc, List.getLast?_concat]
  rfl

lemma endsBlock_instrLines_concat (front : List IR.Line) (code : List IR.Instr) (i : IR.Instr) :
    endsBlock (front ++ instrLines (code ++ [i])) = i.isTerminator := by
  rw [instrLines, List.map_append]
  exact endsBlock_concat front _ _

/-- The last line of a branch is a label. -/
lemma endsBlock_branchLines (front : List IR.Line) (k : Nat) (test : LoweredExpr)
    (yes no : List IR.Line) : endsBlock (front ++ branchLines k test yes no) = false := by
  have hlast : branchLines k test yes no =
      instrLines test.code ++
        .instr (.branch test.value (.numbered .branchTrue (k + 1))
          (.numbered .branchFalse (k + 2))) ::
        .label (.numbered .branchTrue (k + 1)) :: (yes ++
        .instr (.jump (.numbered .branchEnd (k + 3))) ::
        .label (.numbered .branchFalse (k + 2)) :: (no ++
        [.instr (.jump (.numbered .branchEnd (k + 3)))])) ++
      [.label (.numbered .branchEnd (k + 3))] := by
    simp [branchLines]
  rw [hlast]
  exact endsBlock_concat front _ _

/-- The last line of a loop is a label. -/
lemma endsBlock_loopLines (front : List IR.Line) (k : Nat) (test : LoweredExpr)
    (body : List IR.Line) : endsBlock (front ++ loopLines k test body) = false := by
  have hlast : loopLines k test body =
      instrLines test.code ++
        .instr (.branch test.value (.numbered .loopBody (k + 2)) (.numbered .loopEnd (k + 3))) ::
        .label (.numbered .loopBody (k + 2)) :: (body ++
        [.instr (.jump (.numbered .loopHead (k + 1)))]) ++
      [.label (.numbered .loopEnd (k + 3))] := by
    simp [loopLines]
  rw [hlast]
  exact endsBlock_concat front _ _

/-- What the last of some statements makes of the end of the lines before them. -/
def endsAfter (before : Bool) (statements : List Stmt) : Bool :=
  match statements.getLast? with
  | some s => s.isReturn
  | none => before

lemma endsAfter_append (before : Bool) (statements statements' : List Stmt) :
    endsAfter before (statements ++ statements') =
      endsAfter (endsAfter before statements) statements' := by
  unfold endsAfter
  rw [List.getLast?_append]
  cases statements'.getLast? <;> rfl

lemma Target.endsBlock_lowerStore {target : Target} {v stored : LoweredExpr}
    (h : target.lowerStore v = .ok stored) (front : List IR.Line) :
    endsBlock (front ++ instrLines stored.code) = false := by
  cases target with
  | var name symbol =>
    obtain ⟨_, rfl⟩ := Target.lowerStore_var_inv h
    exact endsBlock_instrLines_concat front _ _
  | element name index symbol =>
    obtain ⟨size, i, ty, _, _, _, rfl⟩ := Target.lowerStore_element_inv h
    exact endsBlock_instrLines_concat front _ _

lemma Stmt.endsBlock_lowerAll_of {body : List Stmt}
    (h : ∀ s ∈ body, ∀ c l, s.lower c = .ok l → ∀ front,
      endsBlock (front ++ l.code) = endsAfter (endsBlock front) s.flat) :
    ∀ c l, Stmt.lowerAll body c = .ok l → ∀ front,
      endsBlock (front ++ l.code) = endsAfter (endsBlock front) (Stmt.flatAll body) := by
  induction body with
  | nil =>
    intro c l hl front
    rw [Stmt.lowerAll] at hl
    cases hl
    rw [Stmt.flatAll]
    exact congrArg endsBlock (List.append_nil front)
  | cons s rest ih =>
    intro c l hl front
    obtain ⟨first, more, hfirst, hmore, rfl⟩ := Stmt.exists_of_lowerAll_cons hl
    have hs := h s List.mem_cons_self c first hfirst front
    have hrest := ih (fun d hd => h d (List.mem_cons_of_mem s hd)) _ more hmore
    rw [Stmt.flatAll, endsAfter_append, ← hs, ← hrest, List.append_assoc]

/-- Whether the lines of a statement end a block. -/
lemma Stmt.endsBlock_lower (s : Stmt) :
    ∀ c l, s.lower c = .ok l → ∀ front,
      endsBlock (front ++ l.code) = endsAfter (endsBlock front) s.flat := by
  induction s with
  | assign target value targetTy ty =>
    intro c l h front
    obtain ⟨v, stored, _, hstored, rfl⟩ := Stmt.exists_of_lower_assign h
    rw [Stmt.flat]
    exact Target.endsBlock_lowerStore hstored front
  | print value =>
    intro c l h front
    obtain ⟨v, _, rfl⟩ := Stmt.exists_of_lower_print h
    rw [Stmt.flat]
    exact endsBlock_instrLines_concat front _ _
  | read name symbol =>
    intro c l h front
    obtain ⟨slot, _, rfl⟩ := Stmt.exists_of_lower_read h
    rw [Stmt.flat]
    exact endsBlock_instrLines_concat front [] _
  | ret value =>
    intro c l h front
    obtain ⟨v, _, rfl⟩ := Stmt.exists_of_lower_ret h
    rw [Stmt.flat]
    exact endsBlock_instrLines_concat front _ _
  | branch condition yes no _ _ =>
    intro c l h front
    obtain ⟨test, y, n, _, _, _, rfl⟩ := Stmt.exists_of_lower_branch h
    rw [Stmt.flat]
    exact endsBlock_branchLines front ..
  | loop condition body _ =>
    intro c l h front
    obtain ⟨test, b, _, _, rfl⟩ := Stmt.exists_of_lower_loop h
    rw [Stmt.flat]
    have hfront := endsBlock_loopLines (front ++
      [.instr (.jump (.numbered .loopHead (c.labels + 1))),
        .label (.numbered .loopHead (c.labels + 1))]) c.labels test b.code
    rw [List.append_assoc] at hfront
    exact hfront
  | block body ih =>
    intro c l h front
    rw [Stmt.lower] at h
    rw [Stmt.flat]
    exact Stmt.endsBlock_lowerAll_of ih c l h front

/-- Whether the lines of a body end a block is decided by its last statement. -/
lemma Stmt.endsBlock_lowerAll {body : List Stmt} {c : Counters} {l : LoweredStmt}
    (h : Stmt.lowerAll body c = .ok l) (front : List IR.Line) :
    endsBlock (front ++ l.code) = endsAfter (endsBlock front) (Stmt.flatAll body) :=
  Stmt.endsBlock_lowerAll_of (fun s _ => s.endsBlock_lower) c l h front

lemma endsBlock_slots (slots : List VarDef) :
    endsBlock ([.label .entry] ++ instrLines (slots.flatMap VarDef.lower)) = false := by
  unfold endsBlock
  rw [Option.any_eq_false]
  intro line hlast
  rcases List.mem_cons.1 (List.mem_of_getLast? hlast) with rfl | hmem
  · rfl
  · obtain ⟨i, hi, rfl⟩ := List.mem_map.1 hmem
    exact isTerminator_slots hi

/-- A function without a final return ends with the end of a block if its body ends in a return. -/
lemma FunctionDecl.endsBlock_lower {f : FunctionDecl} {c c' : Counters} {g : IR.Function}
    (h : f.lower false c = .ok (g, c')) : endsBlock g.lines = f.endsInReturn := by
  obtain ⟨l, hl, _, rfl⟩ := FunctionDecl.lower_inv h
  have hbody := Stmt.endsBlock_lowerAll hl
    ([.label .entry] ++ instrLines (f.localList.flatMap VarDef.lower))
  rw [endsBlock_slots] at hbody
  unfold functionLines FunctionDecl.endsInReturn
  rw [if_neg Bool.false_ne_true, List.append_nil, hbody]
  unfold endsAfter
  cases (Stmt.flatAll f.body).getLast? <;> rfl

/-! ## Lowering with and without the final return -/

/-- A function with a return of zero after its last line, or as it is. -/
def IR.Function.returning (finalReturn : Bool) (g : IR.Function) : IR.Function :=
  { g with lines := g.lines ++ if finalReturn then [.instr (.ret (.constant 0))] else [] }

lemma FunctionDecl.lower_eq (f : FunctionDecl) (finalReturn : Bool) (c : Counters) :
    f.lower finalReturn c =
      (f.lower false c).map fun lowered => (lowered.1.returning finalReturn, lowered.2) := by
  unfold FunctionDecl.lower
  cases Stmt.lowerAll f.body c with
  | error e => rfl
  | ok body =>
    have hlines : functionLines f.localList body.code finalReturn =
        functionLines f.localList body.code false ++
          if finalReturn then [.instr (.ret (.constant 0))] else [] := by
      unfold functionLines
      rw [if_neg Bool.false_ne_true, List.append_nil]
    show Except.ok _ = Except.ok _
    rw [hlines]
    rfl

lemma lowerFunctions_eq (functions : List FunctionDecl) (finalReturn : Bool) :
    ∀ c, (lowerFunctions finalReturn functions c).result =
      (lowerFunctions false functions c).result.map fun lowered =>
        (lowered.1.map (IR.Function.returning finalReturn), lowered.2) := by
  induction functions with
  | nil => exact fun c => rfl
  | cons f rest ih =>
    intro c
    simp only [lowerFunctions, Logged.result_bind, Logged.ofExcept]
    rw [f.lower_eq finalReturn c]
    cases f.lower false c with
    | error e => rfl
    | ok first =>
      have hrest := ih first.2
      show ((lowerFunctions finalReturn rest first.2).result >>= _) =
        Except.map _ ((lowerFunctions false rest first.2).result >>= _)
      rw [hrest]
      cases (lowerFunctions false rest first.2).result <;> rfl

/-- What lowering gives for either choice: the functions without a final return, each completed, and
the same `main`. -/
lemma Program.lower_result {p : Program} {finalReturn : Bool} {m : IR.Module} {counters : Counters}
    (h : (p.lower finalReturn).result = .ok (m, counters)) :
    ∃ list c main,
      (lowerFunctions false p.functions { temporaries := 0, labels := 0 }).result = .ok (list, c) ∧
      main.name = "main" ∧ main.params = [] ∧
      ∀ b : Bool, (p.lower b).result =
        .ok ({ functions := list.map (IR.Function.returning b) ++ [main] }, counters) := by
  have hboth : ∀ b : Bool, (p.lower b).result =
      ((lowerFunctions false p.functions { temporaries := 0, labels := 0 }).result >>=
        fun lowered => (p.lowerMain lowered.2) >>= fun main =>
          .ok ({ functions := lowered.1.map (IR.Function.returning b) ++ [main.1] }, main.2)) := by
    intro b
    simp only [Program.lower, Logged.result_bind, Logged.ofExcept]
    rw [lowerFunctions_eq]
    cases (lowerFunctions false p.functions { temporaries := 0, labels := 0 }).result <;> rfl
  rw [hboth finalReturn] at h
  obtain ⟨⟨list, c⟩, hlist, h⟩ := exists_of_bind_eq_ok h
  obtain ⟨⟨main, c'⟩, hmain, h⟩ := exists_of_bind_eq_ok h
  obtain ⟨rfl, rfl⟩ := Prod.mk.inj (Except.ok.inj h)
  have hentry : p.mainDecl.lower true c = .ok (main, c') := hmain
  obtain ⟨l, _, _, heq⟩ := FunctionDecl.lower_inv hentry
  refine ⟨list, c, main, hlist, congrArg IR.Function.name heq, congrArg IR.Function.params heq, ?_⟩
  intro b
  rw [hboth b, hlist]
  show (p.lowerMain c >>= _) = _
  rw [hmain]
  rfl

/-! ## The texts -/

/-- Whether a line of a text is an instruction that ends a block: a return or a jump. -/
def isTerminatorLine (line : String) : Bool :=
  "  ret ".toList.isPrefixOf line.toList || "  br ".toList.isPrefixOf line.toList

lemma head_text_label (style : PointerStyle) (l : IR.Label) :
    ∃ c ∈ ['e', 'i', 'w'], ((IR.Line.label l).text style).toList.head? = some c := by
  cases l with
  | entry => simp [IR.Line.text, IR.Label.text]
  | numbered mark number => cases mark <;> simp [IR.Line.text, IR.Label.text, IR.Mark.text]

lemma head_resultText (into : Nat) (operation : String) :
    (IR.resultText into operation).toList.head? = some '%' := by
  simp [IR.resultText, IR.Register.text]

/-- An instruction with a result is written after its register. -/
lemma head_text_of_definition? (style : PointerStyle) {i : IR.Instr}
    {d : IR.Register × IR.ValueType} (h : i.definition? = some d) :
    (i.text style).toList.head? = some '%' := by
  unfold IR.Instr.text
  cases i with
  | store value address => cases h
  | jump label => cases h
  | branch condition yes no => cases h
  | ret value => cases h
  | reserve slot => simp [IR.Register.text]
  | reserveArray slot size => simp [IR.Register.text]
  | _ => exact head_resultText _ _

/-- The text of a line tells whether the line ends a block. -/
lemma isTerminatorLine_text (style : PointerStyle) (line : IR.Line) :
    isTerminatorLine (line.text style) = line.isTerminator := by
  unfold isTerminatorLine
  cases line with
  | label l =>
    obtain ⟨c, hc, hhead⟩ := head_text_label style l
    have hblank : c ≠ ' ' := by
      rintro rfl
      exact absurd hc (by decide)
    obtain ⟨rest, htext⟩ := List.head?_eq_some_iff.1 hhead
    rw [htext]
    simp [List.isPrefixOf, hblank.symm, IR.Line.isTerminator]
  | instr i =>
    rw [IR.Line.text, String.toList_append]
    show _ = i.isTerminator
    cases hdefines : i.definition? with
    | some d =>
      obtain ⟨rest, htext⟩ := List.head?_eq_some_iff.1 (head_text_of_definition? style hdefines)
      rw [htext, IR.Instr.isTerminator_of_definition? hdefines]
      rfl
    | none =>
      unfold IR.Instr.text
      cases i with
      | store value address => simp [List.isPrefixOf, IR.Instr.isTerminator]
      | jump label => simp [List.isPrefixOf, IR.Instr.isTerminator]
      | branch condition yes no => simp [List.isPrefixOf, IR.Instr.isTerminator]
      | ret value => simp [List.isPrefixOf, IR.Instr.isTerminator]
      | _ => cases hdefines

/-- A function in the text of a module: its head, and its lines up to where a final return may
stand. -/
structure WrittenFunction where
  head : String
  body : List String

/-- The lines of a function in a text, from the empty line before it to its closing brace. -/
def WrittenFunction.lines (finalReturn : Bool) (g : WrittenFunction) : List String :=
  ["", g.head] ++ g.body ++ (if finalReturn then ["  ret i32 0"] else []) ++ ["\x7d"]

/-- A function of the module as it is written. -/
def IR.Function.written (style : PointerStyle) (g : IR.Function) : WrittenFunction where
  head := "define i32 @" ++ g.name ++ "(" ++
    ", ".intercalate (g.params.map fun param => "i32 " ++ (IR.Register.named param).text) ++ ") \x7b"
  body := g.lines.map (IR.Line.text style)

lemma IR.Function.lines_written (style : PointerStyle) (g : IR.Function) :
    (g.written style).lines false = g.textLines style := by
  unfold IR.Function.textLines WrittenFunction.lines IR.Function.written
  simp only [Bool.false_eq_true, if_false, List.append_nil]

lemma IR.Function.textLines_returning (style : PointerStyle) (finalReturn : Bool)
    (g : IR.Function) :
    (g.returning finalReturn).textLines style = (g.written style).lines finalReturn := by
  unfold IR.Function.textLines WrittenFunction.lines IR.Function.returning IR.Function.written
  cases finalReturn with
  | false => simp only [Bool.false_eq_true, if_false, List.append_nil]
  | true =>
    have hreturn : (IR.Line.instr (.ret (.constant 0))).text style = "  ret i32 0" := by
      cases style <;> decide
    simp only [if_true, List.map_append, List.map_cons, List.map_nil, hreturn, List.append_assoc]

lemma IR.Function.head_written (style : PointerStyle) (g : IR.Function) :
    ("define i32 @" ++ g.name ++ "(").toList <+: (g.written style).head.toList := by
  unfold IR.Function.written
  simp only [String.toList_append, List.append_assoc]
  rw [List.prefix_append_right_inj, List.prefix_append_right_inj]
  exact List.prefix_append _ _

/-- A function of the program and what is written for it. -/
structure FunctionDecl.WrittenAs (f : FunctionDecl) (g : WrittenFunction) : Prop where
  head : ("define i32 @" ++ f.name ++ "(").toList <+: g.head.toList
  /-- The brace at its end is the first one. -/
  unclosed : "\x7d" ∉ g.body
  /-- Without a final return, the last line before the brace is a return or a jump just if the body
  ends in a return. -/
  terminated : g.body.getLast?.any isTerminatorLine = f.endsInReturn

lemma FunctionDecl.writtenAs_of_lower {f : FunctionDecl} {c c' : Counters} {g : IR.Function}
    (style : PointerStyle) (h : f.lower false c = .ok (g, c')) : f.WrittenAs (g.written style) := by
  have hends := FunctionDecl.endsBlock_lower h
  refine ⟨?_, ?_, ?_⟩
  · rw [← FunctionDecl.name_of_lower h]
    exact g.head_written style
  · exact IR.brace_notMem_map_text style g.lines
  · rw [← hends]
    unfold IR.Function.written endsBlock
    rw [List.getLast?_map, Option.any_map]
    exact congrArg (Option.any · g.lines.getLast?) (funext (isTerminatorLine_text style))

lemma forall₂_writtenAs {functions : List FunctionDecl} {c c' : Counters}
    {list : List IR.Function} (style : PointerStyle)
    (h : LowersTo (functions.map fun f => (f, false)) c list c') :
    List.Forall₂ FunctionDecl.WrittenAs functions (list.map (IR.Function.written style)) := by
  induction functions generalizing c list with
  | nil =>
    cases h
    exact .nil
  | cons f rest ih =>
    cases h with
    | cons hf hrest => exact .cons (FunctionDecl.writtenAs_of_lower style hf) (ih hrest)

/-- **What leaving out the final return does.**  If all names in a program are identifiers and it can
be lowered with some options, then with the same pointer style it can be lowered with the final
return and without it.  The two texts have the same functions with the same lines, except that each
function of the program has one line more in the first, a return of zero just before its closing
brace; `main` is the same in both.  Without that line, the last line before the brace is the end of a
block if and only if the body of the function, with its blocks opened up, ends in a return. -/
theorem Program.generate_finalReturn {p : Program} {options : Options} {text : String}
    (hnames : ∀ name ∈ p.mentioned, isIdentifier name = true)
    (h : (p.generate options).result = .ok text) :
    ∃ functions main,
      (∀ finalReturn : Bool, ∃ text',
        (p.generate { pointers := options.pointers, finalReturn }).result = .ok text' ∧
          Text.lines text' = IR.openingLines options.pointers ++
            functions.flatMap (WrittenFunction.lines finalReturn) ++
            "" :: "define i32 @main() \x7b" :: main) ∧
      List.Forall₂ FunctionDecl.WrittenAs p.functions functions := by
  obtain ⟨m, counters, hlower, _⟩ := Program.exists_of_generate h
  obtain ⟨list, c, main, hlist, hname, hparams, hboth⟩ := Program.lower_result hlower
  refine ⟨list.map (IR.Function.written options.pointers),
    main.lines.map (IR.Line.text options.pointers) ++ ["\x7d", ""], ?_,
    forall₂_writtenAs options.pointers (lowersTo_of_lowerFunctions hlist)⟩
  intro finalReturn
  have hidentifiers := Program.isIdentifier_of_lower hnames (hboth finalReturn)
  refine ⟨_, ?_, IR.Module.lines_text hidentifiers options.pointers |>.trans ?_⟩
  · rw [Program.generate, Logged.result_bind, hboth finalReturn]
    rfl
  · have hmain : main.textLines options.pointers =
        ["", "define i32 @main() \x7b"] ++ main.lines.map (IR.Line.text options.pointers) ++
          ["\x7d"] := by
      unfold IR.Function.textLines
      rw [hname, hparams]
      rfl
    unfold IR.Module.textLines
    rw [List.flatMap_append, List.flatMap_map, List.flatMap_map, List.flatMap_singleton, hmain]
    simp [IR.Function.textLines_returning]

/-- A function that returns on both sides of a branch. -/
def returnsOnBothSides : FunctionDecl :=
  { name := "f", params := some ["n"], locals := none
    body := [.branch (.compare .less (.var "n" (some (.arg "n" .int)) (some .int))
        (.integer 1 (some .int)) (some .bool))
      [.ret (.integer 1 (some .int))] (some [.ret (.integer 2 (some .int))])] }

/-- A function that returns from two blocks, one in the other. -/
def returnsFromBlocks : FunctionDecl :=
  { name := "g", params := none, locals := some [.scalar "x"]
    body := [.block [.print (.integer 3 (some .int)), .block [.ret (.integer 4 (some .int))],
      .block []]] }

/-- A program with both functions. -/
def returningInside : Program where
  declarations := some [.function returnsOnBothSides, .function returnsFromBlocks]
  body := [.print (.call "f" (some [.call "g" none (some .int)]) (some .int))]

/-- Returns inside a branch do not end a function, and returns inside blocks do. -/
theorem Program.generate_finalReturn_inside :
    ∃ text f g main,
      (returningInside.generate { pointers := .typed, finalReturn := false }).result = .ok text ∧
        Text.lines text = IR.openingLines .typed ++
          (WrittenFunction.lines false f ++ WrittenFunction.lines false g) ++
          "" :: "define i32 @main() \x7b" :: main ∧
        f.body.getLast?.any isTerminatorLine = false ∧
        g.body.getLast?.any isTerminatorLine = true := by
  have hgenerates : (returningInside.generate { pointers := .typed
                                                finalReturn := true }).result.toOption.isSome := by
    decide +kernel
  obtain ⟨text, hsome⟩ := Option.isSome_iff_exists.1 hgenerates
  obtain ⟨functions, main, hboth, hwritten⟩ := Program.generate_finalReturn
    (p := returningInside) (by decide) (eq_ok_of_toOption_eq_some hsome)
  have hfunctions : returningInside.functions = [returnsOnBothSides, returnsFromBlocks] := rfl
  rw [hfunctions] at hwritten
  obtain ⟨f, others, hf, hothers, rfl⟩ := List.forall₂_cons_left_iff.1 hwritten
  obtain ⟨g, more, hg, hmore, rfl⟩ := List.forall₂_cons_left_iff.1 hothers
  obtain rfl := List.forall₂_nil_left_iff.1 hmore
  obtain ⟨text', htext', hlines⟩ := hboth false
  rw [List.flatMap_cons, List.flatMap_singleton] at hlines
  exact ⟨text', f, g, main, htext', hlines, hf.terminated, hg.terminated⟩

end DLang
