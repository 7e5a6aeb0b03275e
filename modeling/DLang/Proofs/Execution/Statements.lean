import DLang.Proofs.Execution.Expressions

/-!
# The code of statements

Running the code of a statement does what the statement does, wherever in a function the code
stands (`Stmt.Plain.simulated`).  The jumps inside it are found by searching all lines of the
function for their labels; they lead to the right place because labels are numbered in order.
`Placed` says where in a function some code stands, and which numbers the labels before it can have.

A statement that returns leaves the machine in front of a `ret` instruction, in the middle of the
function's lines; what stands after it is not reached.

A loop is simulated for each number of iterations by induction on that number.  Each iteration ends
with a jump, so a loop that runs out of fuel has kept the machine running for as many steps.
-/

namespace DLang

open IR (Registers Slot State Steps)

/-! ## Code in its place -/

/-- The lines of a function end with `tail`, and the numbers of the labels before it are allowed. -/
def Placed (allowed : Nat → Prop) (tail lines : List IR.Line) : Prop :=
  ∃ before, lines = before ++ tail ∧
    ∀ mark number, IR.Line.label (.numbered mark number) ∈ before → allowed number

namespace Placed

variable {allowed : Nat → Prop} {tail lines : List IR.Line} {mark : IR.Mark} {number : Nat}

lemma mono {allowed' : Nat → Prop} (h : Placed allowed tail lines)
    (hallowed : ∀ n, allowed n → allowed' n) : Placed allowed' tail lines := by
  obtain ⟨before, hlines, hbefore⟩ := h
  exact ⟨before, hlines, fun mark number hmem => hallowed number (hbefore mark number hmem)⟩

/-- What stands after some code, if the labels of the code are allowed too. -/
lemma append {code : List IR.Line} {a b : Nat} (h : Placed allowed (code ++ tail) lines)
    (hcode : LabelsWithin a b code) (hallowed : ∀ n, a < n → n ≤ b → allowed n) :
    Placed allowed tail lines := by
  obtain ⟨before, rfl, hbefore⟩ := h
  refine ⟨before ++ code, by rw [List.append_assoc], ?_⟩
  intro mark number hmem
  rcases List.mem_append.1 hmem with hmem | hmem
  · exact hbefore mark number hmem
  · obtain ⟨_, _, heq, hlower, hupper⟩ := hcode _ hmem
    cases heq
    exact hallowed _ hlower hupper

lemma instrs {code : List IR.Instr} (h : Placed allowed (instrLines code ++ tail) lines) :
    Placed allowed tail lines :=
  h.append (a := 0) (b := 0) (.instrs code) (fun n hlower hupper => by omega)

lemma instr {i : IR.Instr} (h : Placed allowed (.instr i :: tail) lines) :
    Placed allowed tail lines := by
  have hcode : Placed allowed (instrLines [i] ++ tail) lines := h
  exact hcode.instrs

lemma label (h : Placed allowed (.label (.numbered mark number) :: tail) lines)
    (hallowed : allowed number) : Placed allowed tail lines := by
  obtain ⟨before, rfl, hbefore⟩ := h
  refine ⟨before ++ [.label (.numbered mark number)], by simp, ?_⟩
  intro mark' number' hmem
  rcases List.mem_append.1 hmem with hmem | hmem
  · exact hbefore mark' number' hmem
  · cases List.mem_singleton.1 hmem
    exact hallowed

/-- A jump leads to a label that cannot stand before its place. -/
lemma jump (h : Placed allowed (.label (.numbered mark number) :: tail) lines)
    (hnot : ¬ allowed number) : IR.afterLabel? (.numbered mark number) lines = some tail := by
  obtain ⟨before, rfl, hbefore⟩ := h
  exact IR.afterLabel?_append fun hmem => hnot (hbefore mark number hmem)

end Placed

section Jumps

variable {k j j' : Nat} {test : LoweredExpr} {yes no body rest lines : List IR.Line}

/-- The lines after the second block of a branch. -/
def afterNo (k : Nat) (rest : List IR.Line) : List IR.Line :=
  .instr (.jump (.numbered .branchEnd (k + 3))) :: .label (.numbered .branchEnd (k + 3)) :: rest

/-- The lines after the first block of a branch. -/
def afterYes (k : Nat) (no rest : List IR.Line) : List IR.Line :=
  .instr (.jump (.numbered .branchEnd (k + 3))) :: .label (.numbered .branchFalse (k + 2)) ::
    (no ++ afterNo k rest)

lemma branchLines_append :
    branchLines k test yes no ++ rest = instrLines test.code ++
      .instr (.branch test.value (.numbered .branchTrue (k + 1))
        (.numbered .branchFalse (k + 2))) ::
      .label (.numbered .branchTrue (k + 1)) :: (yes ++ afterYes k no rest) := by
  simp [branchLines, afterYes, afterNo]

/-- The jumps of a branch lead to its two blocks and to its end. -/
lemma Placed.branch (h : Placed (· ≤ k) (branchLines k test yes no ++ rest) lines)
    (hle : k + 3 ≤ j) (hle' : j ≤ j') (hyes : LabelsWithin (k + 3) j yes)
    (hno : LabelsWithin j j' no) :
    (IR.afterLabel? (.numbered .branchTrue (k + 1)) lines = some (yes ++ afterYes k no rest) ∧
      Placed (· ≤ k + 3) (yes ++ afterYes k no rest) lines) ∧
    (IR.afterLabel? (.numbered .branchFalse (k + 2)) lines = some (no ++ afterNo k rest) ∧
      Placed (· ≤ j) (no ++ afterNo k rest) lines) ∧
    IR.afterLabel? (.numbered .branchEnd (k + 3)) lines = some rest := by
  rw [branchLines_append] at h
  have hfirst := h.instrs.instr
  have hblock : Placed (· ≤ k + 1) (yes ++ afterYes k no rest) lines :=
    (hfirst.mono fun n hn => by omega).label (Nat.le_refl _)
  -- Before the second label there are the first one and those of the first block.
  have hsecond : Placed (fun n => n ≤ k + 1 ∨ k + 3 < n ∧ n ≤ j)
      (.label (.numbered .branchFalse (k + 2)) :: (no ++ afterNo k rest)) lines :=
    ((hblock.mono fun n hn => .inl hn).append hyes fun n hl hu => .inr ⟨hl, hu⟩).instr
  have hblock' : Placed (fun n => n ≤ k + 2 ∨ k + 3 < n ∧ n ≤ j) (no ++ afterNo k rest) lines :=
    (hsecond.mono fun n hn => by omega).label (.inl (Nat.le_refl _))
  have hthird : Placed (fun n => n ≤ k + 2 ∨ k + 3 < n ∧ n ≤ j')
      (.label (.numbered .branchEnd (k + 3)) :: rest) lines :=
    ((hblock'.mono fun n hn => by omega).append hno fun n hl hu => by omega).instr
  refine ⟨⟨hfirst.jump (by omega), hblock.mono fun n hn => by omega⟩,
    ⟨hsecond.jump (by omega), hblock'.mono fun n hn => by omega⟩, hthird.jump (by omega)⟩

/-- The lines after the body of a loop. -/
def afterBody (k : Nat) (rest : List IR.Line) : List IR.Line :=
  .instr (.jump (.numbered .loopHead (k + 1))) :: .label (.numbered .loopEnd (k + 3)) :: rest

lemma loopLines_append :
    loopLines k test body ++ rest = instrLines test.code ++
      .instr (.branch test.value (.numbered .loopBody (k + 2)) (.numbered .loopEnd (k + 3))) ::
      .label (.numbered .loopBody (k + 2)) :: (body ++ afterBody k rest) := by
  simp [loopLines, afterBody]

/-- The jumps of a loop lead to its test, to its body and to its end. -/
lemma Placed.loop (h : Placed (· ≤ k)
      (.instr (.jump (.numbered .loopHead (k + 1))) :: .label (.numbered .loopHead (k + 1)) ::
        (loopLines k test body ++ rest)) lines)
    (hbody : LabelsWithin (k + 3) j body) :
    IR.afterLabel? (.numbered .loopHead (k + 1)) lines = some (loopLines k test body ++ rest) ∧
    (IR.afterLabel? (.numbered .loopBody (k + 2)) lines = some (body ++ afterBody k rest) ∧
      Placed (· ≤ k + 3) (body ++ afterBody k rest) lines) ∧
    IR.afterLabel? (.numbered .loopEnd (k + 3)) lines = some rest := by
  have hhead := h.instr
  have htest : Placed (· ≤ k + 1) (loopLines k test body ++ rest) lines :=
    (hhead.mono fun n hn => by omega).label (Nat.le_refl _)
  rw [loopLines_append] at htest
  have hsecond := htest.instrs.instr
  have hblock : Placed (· ≤ k + 2) (body ++ afterBody k rest) lines :=
    (hsecond.mono fun n hn => by omega).label (Nat.le_refl _)
  have hthird : Placed (fun n => n ≤ k + 2 ∨ k + 3 < n)
      (.label (.numbered .loopEnd (k + 3)) :: rest) lines :=
    ((hblock.mono fun n hn => .inl hn).append hbody fun n hl _ => .inr hl).instr
  exact ⟨hhead.jump (by omega), ⟨hsecond.jump (by omega), hblock.mono fun n hn => by omega⟩,
    hthird.jump (by omega)⟩

end Jumps

/-! ## Simulated statements -/

/-- The machine is about to return the value. -/
def Returning (lines : List IR.Line) (callers : List (Nat × IR.Frame)) (v : Int32)
    (console : Console) (s : State) : Prop :=
  ∃ value tail registers slots, Registers.int? registers value = some v ∧
    s = .running ⟨lines, .instr (.ret value) :: tail, registers, slots⟩ callers console

/-- Where a statement leaves the machine: at what stands after its code, or about to return. -/
def Arrives (own : Symbol → Prop) (lines rest : List IR.Line) (callers : List (Nat × IR.Frame))
    (flow : Flow) (console : Console) (s : State) : Prop :=
  match flow with
  | .next cells => ∃ registers slots, Represents own cells registers slots ∧
      s = .running ⟨lines, rest, registers, slots⟩ callers console
  | .returned v => Returning lines callers v console s

/-- A jump at the end of a block leads on. -/
lemma Arrives.jump {m : IR.Module} {own : Symbol → Prop} {label : IR.Label}
    {lines tail rest : List IR.Line} {callers : List (Nat × IR.Frame)}
    (hlabel : IR.afterLabel? label lines = some rest) (flow : Flow) (console : Console) (s : State)
    (h : Arrives own lines (.instr (.jump label) :: tail) callers flow console s) :
    ∃ n s', Steps m n s s' ∧ Arrives own lines rest callers flow console s' := by
  cases flow with
  | next cells =>
    obtain ⟨registers, slots, hrep, rfl⟩ := h
    exact ⟨1, _, .single (IR.step_jump hlabel), registers, slots, hrep, rfl⟩
  | returned v => exact ⟨0, s, .refl s, h⟩

section Statements

variable (m : IR.Module) (bound : Nat) (Γ : Env) (lines : List IR.Line)
  (callers : List (Nat × IR.Frame))

/-- Running the code that `lower` gives, in its place, does what `exec` does. -/
def FlowSimulated (exec : Cells → Run Flow) (lower : Counters → Except LoweringError LoweredStmt) :
    Prop :=
  ∀ c l, lower c = .ok l → ∀ rest, Placed (· ≤ c.labels) (l.code ++ rest) lines →
    ∀ cells registers slots console, Represents Γ.own cells registers slots →
      Simulates m bound (.running ⟨lines, l.code ++ rest, registers, slots⟩ callers console)
        (exec cells) console (Arrives Γ.own lines rest callers)

variable {m bound Γ lines callers} {calls : Calls}

/-- Statements in order, up to the first that returns. -/
lemma Stmt.simulated_execAll {body : List Stmt}
    (h : ∀ s ∈ body, FlowSimulated m bound Γ lines callers (s.exec calls bound) s.lower) :
    FlowSimulated m bound Γ lines callers (Stmt.execAll calls bound body)
      (Stmt.lowerAll body) := by
  induction body with
  | nil =>
    intro c l hl rest _ cells registers slots console hrep
    rw [Stmt.lowerAll] at hl
    cases hl
    rw [Stmt.execAll]
    exact .pure ⟨registers, slots, hrep, rfl⟩
  | cons s body ih =>
    intro c l hl rest hplaced cells registers slots console hrep
    obtain ⟨first, more, hfirst, hmore, rfl⟩ := Stmt.exists_of_lowerAll_cons hl
    have hlabels := Stmt.labelsFrom_lower s c first hfirst
    rw [List.append_assoc] at hplaced ⊢
    rw [Stmt.execAll]
    refine (h s List.mem_cons_self c first hfirst _ hplaced cells registers slots console hrep).bind
      ?_
    intro flow console' s' harrives
    cases flow with
    | next cells' =>
      obtain ⟨registers', slots', hrep', rfl⟩ := harrives
      refine ih (fun d hd => h d (List.mem_cons_of_mem s hd)) _ more hmore rest ?_ cells' registers'
        slots' console' hrep'
      refine (hplaced.mono fun n hn => Nat.le_trans hn hlabels.le).append hlabels.within ?_
      exact fun n _ hn => hn
    | returned v => exact .pure harrives

/-- A loop, for any number of iterations up to the bound. -/
lemma simulates_repeatWhile (hcalls : CallsSimulated m bound Γ.callable calls) {condition : Expr}
    {body : List Stmt} (hplain : condition.PlainCondition) (hann : condition.Annotated Γ)
    (hbody : FlowSimulated m bound Γ lines callers (Stmt.execAll calls bound body)
      (Stmt.lowerAll body))
    {c : Counters} {test : LoweredExpr} {b : LoweredStmt} {rest : List IR.Line}
    (htest : condition.lower c.temporaries = .ok test)
    (hb : Stmt.lowerAll body { temporaries := test.temporaries, labels := c.labels + 3 } = .ok b)
    (hplaced : Placed (· ≤ c.labels)
      (.instr (.jump (.numbered .loopHead (c.labels + 1))) ::
        .label (.numbered .loopHead (c.labels + 1)) ::
        (loopLines c.labels test b.code ++ rest)) lines)
    (hwithin : LabelsWithin (c.labels + 3) b.counters.labels b.code) :
    ∀ fuel ≤ bound, ∀ cells registers slots console, Represents Γ.own cells registers slots →
      Simulates m fuel
        (.running ⟨lines, loopLines c.labels test b.code ++ rest, registers, slots⟩ callers console)
        (repeatWhile (fun cells => condition.eval calls cells)
          (fun cells => Stmt.execAll calls bound body cells) fuel cells) console
        (Arrives Γ.own lines rest callers) := by
  obtain ⟨hhead, ⟨hbodyLabel, hbodyPlaced⟩, hend⟩ := hplaced.loop hwithin
  intro fuel
  induction fuel with
  | zero =>
    intro _ cells registers slots console _
    exact ⟨0, _, Nat.le_refl 0, .refl _⟩
  | succ fuel ih =>
    intro hfuel cells registers slots console hrep
    rw [repeatWhile, loopLines_append]
    refine ((hplain.simulates hcalls hann htest hrep).mono hfuel).bind ?_
    rintro v console' _ ⟨registers', holds, hext, hholds, rfl, rfl⟩
    have hrep' := hrep.of_named hext.named
    cases holds with
    | false =>
      rw [if_neg Bool.false_ne_true, if_pos rfl]
      exact .step (IR.step_branch hholds hend) (.pure ⟨registers', slots, hrep', rfl⟩)
    | true =>
      rw [if_pos rfl, if_neg (by decide)]
      refine .step (IR.step_branch hholds hbodyLabel) ?_
      refine ((hbody _ b hb _ hbodyPlaced cells registers' slots console' hrep').mono hfuel).bind ?_
      intro flow console'' s' harrives
      cases flow with
      | next cells' =>
        obtain ⟨registers'', slots'', hrep'', rfl⟩ := harrives
        -- The jump back is the step that the next iteration's bound lacks.
        rw [Nat.add_comm fuel 1]
        exact (ih (Nat.le_of_succ_le hfuel) cells' registers'' slots'' console'' hrep'').steps
          (.single (IR.step_jump hhead))
      | returned v => exact .pure harrives

/-- A plain expression is an integer already. -/
lemma Expr.Plain.lower_of_lowerInt {e : Expr} {t : Nat} {l : LoweredExpr} (hplain : e.Plain)
    (hann : e.Annotated Γ) (h : e.lowerInt t = .ok l) : e.lower t = .ok l := by
  obtain ⟨lowered, hlowered, rfl⟩ := Expr.exists_of_lowerInt hann h
  rw [hplain.typeOf]
  exact hlowered

lemma Stmt.simulated_assignVar (hcalls : CallsSimulated m bound Γ.callable calls) {name : String}
    {symbol : Symbol} {value : Expr} {targetTy ty : Option Ty} (hsymbol : Γ.IsScalar name symbol)
    (hplain : value.Plain) (hann : value.Annotated Γ) :
    FlowSimulated m bound Γ lines callers
      ((Stmt.assign (.var name (some symbol)) value targetTy ty).exec calls bound)
      (Stmt.assign (.var name (some symbol)) value targetTy ty).lower := by
  intro c l hl rest _ cells registers slots console hrep
  obtain ⟨v, stored, hv, hstored, rfl⟩ := Stmt.exists_of_lower_assign hl
  replace hv := hplain.lower_of_lowerInt hann hv
  obtain ⟨hown, rfl | rfl⟩ := hsymbol
  · cases hstored
    show Simulates m bound (.running ⟨lines, instrLines (v.code ++ [_]) ++ rest, _, _⟩ _ _) _ _ _
    rw [Stmt.exec, instrLines_append]
    refine (hplain.simulated hcalls hann _ v hv _ registers console hrep).bind ?_
    rintro a console' _ ⟨registers', hext, ha, rfl⟩
    obtain ⟨k, hpointer, hstore⟩ := (hrep.of_named hext.named).store_var hown
    obtain ⟨slots', hslots, hrep'⟩ := hstore a
    exact .step (IR.step_store ha hpointer hslots) (.pure ⟨registers', slots', hrep', rfl⟩)
  · cases hstored

lemma Stmt.simulated_assignElement (hcalls : CallsSimulated m bound Γ.callable calls)
    {name : String} {size : Nat} {index value : Expr} {targetTy ty : Option Ty}
    (hown : Γ.own (.array name .int size)) (hplainIndex : index.Plain)
    (hannIndex : index.Annotated Γ) (hplain : value.Plain) (hann : value.Annotated Γ) :
    FlowSimulated m bound Γ lines callers
      ((Stmt.assign (.element name index (some (.array name .int size))) value targetTy ty).exec
        calls bound)
      (Stmt.assign (.element name index (some (.array name .int size))) value targetTy
        ty).lower := by
  intro c l hl rest _ cells registers slots console hrep
  obtain ⟨v, stored, hv, hstored, rfl⟩ := Stmt.exists_of_lower_assign hl
  replace hv := hplain.lower_of_lowerInt hann hv
  obtain ⟨i, hi, rfl⟩ := Target.exists_of_lowerStore_element hannIndex hstored
  have hbounds := Expr.lower_bounds hann _ v hv
  have hbounds' := Expr.lower_bounds hannIndex _ i hi
  rw [hplainIndex.typeOf, Stmt.exec]
  show Simulates m bound (.running ⟨lines, instrLines (v.code ++ (i.code ++ [_]) ++ [_]) ++ rest,
    _, _⟩ _ _) _ _ _
  rw [← List.append_assoc, instrLines_append, instrLines_append]
  refine (hplain.simulated hcalls hann).both (hplainIndex.simulated hcalls hannIndex) hv hi hbounds
    hrep ?_
  intro a j registers' console' hext ha hj
  obtain ⟨k, hpointer, hstore⟩ := (hrep.of_named hext.named).store_element hown
  obtain ⟨hsome, hnone⟩ := hstore j a
  refine .step (IR.step_elementAddress hj hpointer) ?_
  -- The value of the assignment is in no temporary that the address takes.
  have hext' : registers'.Extends v.temporaries
      (registers'.set (.temporary (i.temporaries + 1)) (.pointer k j.toInt)) :=
    (Registers.Extends.refl _ _).set (Nat.lt_succ_of_le hbounds'.le)
  have hvalue := (hext'.int? hbounds.below).trans ha
  have haddress : registers'.set (.temporary (i.temporaries + 1)) (.pointer k j.toInt)
      (.temporary (i.temporaries + 1)) = some (.pointer k j.toInt) :=
    Registers.set_self _
  refine .ofOption_bind ?_ fun hwrite => IR.step_store_outside hvalue haddress (hnone hwrite)
  intro cells' hwrite
  obtain ⟨slots', hslots, hrep'⟩ := hsome cells' hwrite
  exact ⟨_, IR.step_store hvalue haddress hslots,
    .pure ⟨_, slots', hrep'.of_named hext'.named, rfl⟩⟩

lemma Stmt.simulated_print (hcalls : CallsSimulated m bound Γ.callable calls) {value : Expr}
    (hplain : value.Plain) (hann : value.Annotated Γ) :
    FlowSimulated m bound Γ lines callers ((Stmt.print value).exec calls bound)
      (Stmt.print value).lower := by
  intro c l hl rest _ cells registers slots console hrep
  obtain ⟨v, hv, rfl⟩ := Stmt.exists_of_lower_print hl
  replace hv := hplain.lower_of_lowerInt hann hv
  rw [Stmt.exec, instrLines_append]
  refine (hplain.simulated hcalls hann _ v hv _ registers console hrep).bind ?_
  rintro a console' _ ⟨registers', hext, ha, rfl⟩
  exact .print (IR.step_print ha) (.pure ⟨registers', slots, hrep.of_named hext.named, rfl⟩)

lemma Stmt.simulated_read {name : String} {symbol : Symbol} (hsymbol : Γ.IsScalar name symbol) :
    FlowSimulated m bound Γ lines callers ((Stmt.read name (some symbol)).exec calls bound)
      (Stmt.read name (some symbol)).lower := by
  intro c l hl rest _ cells registers slots console hrep
  obtain ⟨slot, hslot, rfl⟩ := Stmt.exists_of_lower_read hl
  obtain ⟨hown, rfl | rfl⟩ := hsymbol
  · cases hslot
    obtain ⟨k, hpointer, hstore⟩ := hrep.store_var hown
    rw [Stmt.exec]
    cases hinput : console.input 0 with
    | some v =>
      obtain ⟨slots', hslots, hrep'⟩ := hstore v
      refine .read (IR.step_read hinput hpointer hslots) ?_
      rw [hinput]
      exact .pure ⟨registers, slots', hrep', rfl⟩
    | none =>
      refine .read (IR.step_read_nothing hinput) ?_
      rw [hinput]
      exact .pure ⟨registers, slots, hrep, rfl⟩
  · cases hslot

lemma Stmt.simulated_ret (hcalls : CallsSimulated m bound Γ.callable calls) {value : Expr}
    (hplain : value.Plain) (hann : value.Annotated Γ) :
    FlowSimulated m bound Γ lines callers ((Stmt.ret value).exec calls bound)
      (Stmt.ret value).lower := by
  intro c l hl rest _ cells registers slots console hrep
  obtain ⟨v, hv, rfl⟩ := Stmt.exists_of_lower_ret hl
  replace hv := hplain.lower_of_lowerInt hann hv
  rw [Stmt.exec, instrLines_append]
  refine (hplain.simulated hcalls hann _ v hv _ registers console hrep).bind ?_
  rintro a console' _ ⟨registers', _, ha, rfl⟩
  exact .pure ⟨v.value, rest, registers', slots, ha, rfl⟩

lemma Stmt.simulated_branch (hcalls : CallsSimulated m bound Γ.callable calls) {condition : Expr}
    {yes : List Stmt} {no : Option (List Stmt)} (hplain : condition.PlainCondition)
    (hann : condition.Annotated Γ)
    (hyes : FlowSimulated m bound Γ lines callers (Stmt.execAll calls bound yes)
      (Stmt.lowerAll yes))
    (hno : FlowSimulated m bound Γ lines callers (Stmt.execAll calls bound (no.getD []))
      (Stmt.lowerAll (no.getD []))) :
    FlowSimulated m bound Γ lines callers ((Stmt.branch condition yes no).exec calls bound)
      (Stmt.branch condition yes no).lower := by
  intro c l hl rest hplaced cells registers slots console hrep
  obtain ⟨test, y, n, htest, hy, hn, rfl⟩ := Stmt.exists_of_lower_branch hl
  have hlabelsYes := Stmt.labelsFrom_lowerAll (fun s _ => s.labelsFrom_lower) _ y hy
  have hlabelsNo := Stmt.labelsFrom_lowerAll (fun s _ => s.labelsFrom_lower) _ n hn
  obtain ⟨⟨hyesLabel, hyesPlaced⟩, ⟨hnoLabel, hnoPlaced⟩, hend⟩ :=
    hplaced.branch hlabelsYes.le hlabelsNo.le hlabelsYes.within hlabelsNo.within
  rw [Stmt.exec, branchLines_append]
  refine (hplain.simulates hcalls hann htest hrep).bind ?_
  rintro v console' _ ⟨registers', holds, hext, hholds, rfl, rfl⟩
  have hrep' := hrep.of_named hext.named
  cases holds with
  | false =>
    rw [if_neg Bool.false_ne_true, if_pos rfl, Stmt.execElse_eq_execAll]
    refine .step (IR.step_branch hholds hnoLabel) ?_
    exact (hno _ n hn _ hnoPlaced cells registers' slots console' hrep').andThen (Arrives.jump hend)
  | true =>
    rw [if_pos rfl, if_neg (by decide)]
    refine .step (IR.step_branch hholds hyesLabel) ?_
    exact (hyes _ y hy _ hyesPlaced cells registers' slots console' hrep').andThen
      (Arrives.jump hend)

lemma Stmt.simulated_loop (hcalls : CallsSimulated m bound Γ.callable calls) {condition : Expr}
    {body : List Stmt} (hplain : condition.PlainCondition) (hann : condition.Annotated Γ)
    (hbody : FlowSimulated m bound Γ lines callers (Stmt.execAll calls bound body)
      (Stmt.lowerAll body)) :
    FlowSimulated m bound Γ lines callers ((Stmt.loop condition body).exec calls bound)
      (Stmt.loop condition body).lower := by
  intro c l hl rest hplaced cells registers slots console hrep
  obtain ⟨test, b, htest, hb, rfl⟩ := Stmt.exists_of_lower_loop hl
  have hlabels := Stmt.labelsFrom_lowerAll (fun s _ => s.labelsFrom_lower) _ b hb
  rw [Stmt.exec]
  refine .step (IR.step_jump (hplaced.loop hlabels.within).1) ?_
  exact simulates_repeatWhile hcalls hplain hann hbody htest hb hplaced hlabels.within bound
    (Nat.le_refl bound) cells registers slots console hrep

/-- The code of a plain statement does what the statement does. -/
theorem Stmt.Plain.simulated (hcalls : CallsSimulated m bound Γ.callable calls) {s : Stmt}
    (hplain : s.Plain) (hann : s.Annotated Γ) :
    FlowSimulated m bound Γ lines callers (s.exec calls bound) s.lower := by
  induction hplain with
  | assignVar hvalue =>
    obtain ⟨⟨hsymbol⟩, hannValue, _⟩ := hann
    exact Stmt.simulated_assignVar hcalls hsymbol hvalue hannValue
  | assignElement hindex hvalue =>
    obtain ⟨htarget, hannValue, _⟩ := hann
    obtain _ | ⟨⟨hown, size, rfl⟩, hannIndex, _⟩ := htarget
    exact Stmt.simulated_assignElement hcalls hown hindex hannIndex hvalue hannValue
  | print hvalue =>
    obtain _ | hannValue := hann
    exact Stmt.simulated_print hcalls hvalue hannValue
  | read =>
    obtain _ | _ | hsymbol := hann
    exact Stmt.simulated_read hsymbol
  | ret hvalue =>
    obtain _ | _ | _ | hannValue := hann
    exact Stmt.simulated_ret hcalls hvalue hannValue
  | branch hcondition _ _ ihyes ihno =>
    obtain _ | _ | _ | _ | ⟨hannCondition, _, hannYes, hannNo⟩ := hann
    exact Stmt.simulated_branch hcalls hcondition hannCondition
      (Stmt.simulated_execAll fun s hs => ihyes s hs (hannYes s hs))
      (Stmt.simulated_execAll fun s hs => ihno s hs (hannNo s hs))
  | loop hcondition _ ih =>
    obtain _ | _ | _ | _ | _ | ⟨hannCondition, _, hannBody⟩ := hann
    exact Stmt.simulated_loop hcalls hcondition hannCondition
      (Stmt.simulated_execAll fun s hs => ih s hs (hannBody s hs))
  | block _ ih =>
    obtain _ | _ | _ | _ | _ | _ | hannBody := hann
    intro c l hl
    rw [Stmt.lower] at hl
    simp only [Stmt.exec]
    exact Stmt.simulated_execAll (fun s hs => ih s hs (hannBody s hs)) c l hl

end Statements

end DLang
