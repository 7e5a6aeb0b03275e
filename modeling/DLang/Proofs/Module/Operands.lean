import DLang.Proofs.Lowering.Emission
import DLang.Proofs.Lowering.Units
import DLang.Proofs.Static.Bare
import Mathlib.Data.List.Induction

/-!
# Operands

Where the operands of a module come from.  A register can be used after some lines of a function if
it is a parameter, if it is a slot that was reserved in the entry block, or if it is a temporary
that was defined earlier in the block that is still open (`Available`).  Each comes with the type of
the value in it, and lines are `Supplied` if every instruction among them uses its operands at these
types.

The lines in front are part of the statement: whatever they are, code that is appended to them is
supplied if the symbols of its place are (`Furnished`).  A parameter and a slot stay available for
the rest of the function, so this goes through every branch and loop.  A temporary stays available
as long as no block ends or begins, and an expression is straight code.

The main result is `Program.supplied_of_lower`: an annotated program is lowered to functions that
are supplied.
-/

namespace DLang

namespace IR

/-! ## Available registers -/

/-- The register holds a value of the given type after the lines `before` of a function. -/
inductive Available (params : List String) (before : List Line) : Register → ValueType → Prop
  /-- A parameter. -/
  | param {name : String} : name ∈ params → Available params before (.named name) (.scalar .int)
  /-- A slot that was reserved in the entry block. -/
  | slot {head rest : List Line} {i : Instr} {name : String} {ty : ValueType} :
      before = .label .entry :: (head ++ .instr i :: rest) →
      (∀ line ∈ head, line.isBoundary = false) → i.isReservation = true →
      i.definition? = some (.named name, ty) → Available params before (.named name) ty
  /-- A temporary that was defined since the last end or beginning of a block. -/
  | temporary {earlier between : List Line} {i : Instr} {number : Nat} {ty : ValueType} :
      before = earlier ++ .instr i :: between → (∀ line ∈ between, line.isBoundary = false) →
      i.definition? = some (.temporary number, ty) →
      Available params before (.temporary number) ty

/-- The operand is a value of the given type after the lines `before` of a function. -/
inductive Usable (params : List String) (before : List Line) : Operand → ValueType → Prop
  | constant {value : Int32} : Usable params before (.constant value) (.scalar .int)
  | register {r : Register} {ty : ValueType} :
      Available params before r ty → Usable params before (.register r) ty

/-- After the lines `before` of a function, every instruction of `code` finds its operands. -/
def Supplied (params : List String) (before code : List Line) : Prop :=
  ∀ earlier i later, code = earlier ++ .instr i :: later →
    ∀ x ty, (x, ty) ∈ i.operands → Usable params (before ++ earlier) x ty

variable {params : List String} {before code code' : List Line} {r : Register} {x : Operand}
  {ty : ValueType}

namespace Available

/-- Parameters and slots stay available. -/
lemma append_named {name : String} (h : Available params before (.named name) ty)
    (code : List Line) : Available params (before ++ code) (.named name) ty := by
  cases h with
  | param hname => exact .param hname
  | @slot head rest i _ _ hbefore hhead hi hdefines =>
    have hsplit : before ++ code = .label .entry :: (head ++ .instr i :: (rest ++ code)) := by
      rw [hbefore, List.cons_append, List.append_assoc, List.cons_append]
    exact .slot hsplit hhead hi hdefines

/-- All registers stay available while no block ends or begins. -/
lemma append (h : Available params before r ty) (hcode : ∀ line ∈ code, line.isBoundary = false) :
    Available params (before ++ code) r ty := by
  cases r with
  | named name => exact h.append_named code
  | temporary number =>
    cases h with
    | @temporary earlier between i _ _ hbefore hbetween hdefines =>
      have hsplit : before ++ code = earlier ++ .instr i :: (between ++ code) := by
        rw [hbefore, List.append_assoc, List.cons_append]
      refine .temporary hsplit ?_ hdefines
      intro line hline
      rcases List.mem_append.1 hline with hline | hline
      · exact hbetween line hline
      · exact hcode line hline

/-- A temporary is available right after its definition. -/
lemma of_definition {i : Instr} {number : Nat} (h : i.definition? = some (.temporary number, ty)) :
    Available params (before ++ [.instr i]) (.temporary number) ty :=
  .temporary rfl (fun _ hline => nomatch hline) h

end Available

lemma Usable.append (h : Usable params before x ty)
    (hcode : ∀ line ∈ code, line.isBoundary = false) : Usable params (before ++ code) x ty := by
  cases h with
  | constant => exact .constant
  | register hr => exact .register (hr.append hcode)

/-- The operands of an instruction that has one. -/
lemma Usable.one (h : Usable params before x ty) :
    ∀ y τ, (y, τ) ∈ [(x, ty)] → Usable params before y τ := by
  intro y τ hy
  cases List.mem_singleton.1 hy
  exact h

/-- The operands of an instruction that has two. -/
lemma Usable.two {x' : Operand} {ty' : ValueType} (h : Usable params before x ty)
    (h' : Usable params before x' ty') :
    ∀ y τ, (y, τ) ∈ [(x, ty), (x', ty')] → Usable params before y τ := by
  intro y τ hy
  rcases List.mem_pair.1 hy with heq | heq
  · cases heq
    exact h
  · cases heq
    exact h'

namespace Supplied

lemma nil : Supplied params before [] := by
  intro earlier i later hsplit
  simp at hsplit

lemma label (l : Label) : Supplied params before [.label l] := by
  intro earlier i later hsplit
  cases earlier <;> simp at hsplit

lemma instr {i : Instr} (h : ∀ x ty, (x, ty) ∈ i.operands → Usable params before x ty) :
    Supplied params before [.instr i] := by
  intro earlier j later hsplit
  cases earlier with
  | nil =>
    cases hsplit
    rwa [List.append_nil]
  | cons first rest => simp at hsplit

lemma append (h : Supplied params before code) (h' : Supplied params (before ++ code) code') :
    Supplied params before (code ++ code') := by
  intro earlier i later hsplit
  rcases List.append_eq_append_iff.1 hsplit with ⟨rest, rfl, hrest⟩ | ⟨rest, rfl, hrest⟩
  · rw [← List.append_assoc]
    exact h' rest i later hrest
  · cases rest with
    | nil => simpa using h' [] i later hrest.symm
    | cons line rest =>
      obtain ⟨rfl, _⟩ := List.cons.inj hrest
      exact h earlier i rest rfl

lemma label_cons {l : Label} (h : Supplied params (before ++ [.label l]) code) :
    Supplied params before (.label l :: code) :=
  (label l).append h

lemma instr_cons {i : Instr} (hi : ∀ x ty, (x, ty) ∈ i.operands → Usable params before x ty)
    (h : Supplied params (before ++ [.instr i]) code) : Supplied params before (.instr i :: code) :=
  (instr hi).append h

end Supplied

end IR

open IR (Available Usable Supplied)

variable {Γ : Env} {params : List String} {before : List IR.Line}

/-! ## Straight code -/

/-- Straight code keeps all operands. -/
lemma Emits.usable_append {t t' : Nat} {code : List IR.Instr} {x : IR.Operand} {ty : IR.ValueType}
    (hcode : Emits t code t') (h : Usable params before x ty) :
    Usable params (before ++ instrLines code) x ty := by
  refine h.append fun line hline => ?_
  obtain ⟨i, hi, rfl⟩ := List.mem_map.1 hline
  exact hcode.isTerminator_eq_false hi

/-- Two stretches of straight code after each other. -/
lemma supplied_append_instrLines {code code' : List IR.Instr}
    (h : Supplied params before (instrLines code))
    (h' : Supplied params (before ++ instrLines code) (instrLines code')) :
    Supplied params before (instrLines (code ++ code')) := by
  rw [instrLines, List.map_append]
  exact h.append h'

lemma append_instrLines (code code' : List IR.Instr) :
    before ++ instrLines (code ++ code') = before ++ instrLines code ++ instrLines code' := by
  rw [instrLines, List.map_append, ← List.append_assoc]
  rfl

/-- Lowered code that finds its operands, and leaves a value of the given type. -/
structure LoweredExpr.Delivers (params : List String) (before : List IR.Line)
    (lowered : LoweredExpr) (ty : IR.ValueType) : Prop where
  code : Supplied params before (instrLines lowered.code)
  value : Usable params (before ++ instrLines lowered.code) lowered.value ty

namespace LoweredExpr

variable {code : List IR.Instr} {t : Nat} {ty : IR.ValueType}

lemma delivers_emitResult {instr : Nat → IR.Instr}
    (hcode : Supplied params before (instrLines code))
    (hoperands : ∀ x τ, (x, τ) ∈ (instr (t + 1)).operands →
      Usable params (before ++ instrLines code) x τ)
    (hdefines : (instr (t + 1)).definition? = some (.temporary (t + 1), ty)) :
    (emitResult code t instr).Delivers params before ty := by
  refine ⟨supplied_append_instrLines hcode (.instr hoperands), ?_⟩
  rw [emitResult, append_instrLines]
  exact .register (.of_definition hdefines)

/-- A value that is an integer already, or is widened to one. -/
lemma delivers_widenAfter {value : IR.Operand} {ty : Ty}
    (hcode : Supplied params before (instrLines code))
    (hvalue : Usable params (before ++ instrLines code) value (.scalar ty)) :
    (widenAfter code value ty t).Delivers params before (.scalar .int) := by
  cases ty with
  | int => exact ⟨hcode, hvalue⟩
  | bool =>
    rw [widenAfter]
    exact delivers_emitResult hcode hvalue.one rfl

lemma Delivers.toInt {lowered : LoweredExpr} {ty : Ty}
    (h : lowered.Delivers params before (.scalar ty)) :
    (lowered.toInt ty).Delivers params before (.scalar .int) :=
  delivers_widenAfter h.code h.value

/-- Widening one value keeps the others. -/
lemma usable_widenAfter {value x : IR.Operand} {ty : Ty} {τ : IR.ValueType}
    (h : Usable params (before ++ instrLines code) x τ) :
    Usable params (before ++ instrLines (widenAfter code value ty t).code) x τ := by
  cases ty with
  | int => exact h
  | bool =>
    have hwiden : Emits t [.widen (t + 1) value] (t + 1) := Emits.nil.snoc rfl
    rw [widenAfter, emitResult, append_instrLines]
    exact hwiden.usable_append h

lemma delivers_lowerComparison {op : RelOp} {l r : LoweredExpr} {lty rty : Ty} {t t' : Nat}
    (hl : l.Delivers params before (.scalar lty))
    (hr : r.Delivers params (before ++ instrLines l.code) (.scalar rty))
    (hemits : Emits t r.code t') :
    (lowerComparison op l lty r rty).Delivers params before (.scalar .bool) := by
  have hcode : Supplied params before (instrLines (l.code ++ r.code)) :=
    supplied_append_instrLines hl.code hr.code
  have hleft : Usable params (before ++ instrLines (l.code ++ r.code)) l.value (.scalar lty) := by
    rw [append_instrLines]
    exact hemits.usable_append hl.value
  have hright : Usable params (before ++ instrLines (l.code ++ r.code)) r.value (.scalar rty) := by
    rw [append_instrLines]
    exact hr.value
  rw [lowerComparison]
  split
  · rename_i hty
    subst hty
    exact delivers_emitResult hcode (hleft.two hright) rfl
  · -- One of the two is a truth value; it is widened, and the other one is left as it is.
    have hl' := delivers_widenAfter (t := r.temporaries) hcode hleft
    have hr' := delivers_widenAfter
      (t := (widenAfter (l.code ++ r.code) l.value lty r.temporaries).temporaries) hl'.code
      (usable_widenAfter hright)
    exact delivers_emitResult hr'.code ((usable_widenAfter hl'.value).two hr'.value) rfl

end LoweredExpr

/-! ## Expressions -/

/-- The type of the register that carries the name of a symbol.  A function has none. -/
def Symbol.registerType? : Symbol → Option IR.ValueType
  | .var .. => some .address
  | .arg .. => some (.scalar .int)
  | .array _ _ size => some (.arrayAddress size)
  | .function .. => none

/-- The symbols of a place are available after the lines `before` of a function. -/
def Furnished (Γ : Env) (params : List String) (before : List IR.Line) : Prop :=
  ∀ symbol ty, Γ.own symbol → symbol.registerType? = some ty →
    Available params before (.named symbol.name) ty

namespace Furnished

variable (h : Furnished Γ params before)
include h

/-- They stay available for the rest of the function. -/
lemma append (code : List IR.Line) : Furnished Γ params (before ++ code) :=
  fun symbol ty hown hty => (h symbol ty hown hty).append_named code

lemma var {name : String} (hown : Γ.own (.var name .int)) :
    Available params before (.named name) .address :=
  h _ _ hown rfl

lemma arg {name : String} (hown : Γ.own (.arg name .int)) :
    Available params before (.named name) (.scalar .int) :=
  h _ _ hown rfl

lemma array {name : String} {size : Nat} (hown : Γ.own (.array name .int size)) :
    Available params before (.named name) (.arrayAddress size) :=
  h _ _ hown rfl

end Furnished

lemma LoweredExpr.delivers_lowerAddress {name : String} {size : Nat} {index : LoweredExpr} {ty : Ty}
    (harray : Available params before (.named name) (.arrayAddress size))
    (hindex : index.Delivers params before (.scalar ty)) :
    (lowerAddress name size index ty).Delivers params before .address := by
  rw [lowerAddress]
  have hbase : Usable params (before ++ instrLines (index.toInt ty).code) (.register (.named name))
      (.arrayAddress size) := .register (harray.append_named _)
  exact delivers_emitResult hindex.toInt.code (hbase.two hindex.toInt.value) rfl

/-- Lowered arguments that find their operands, and are integers after the last of them. -/
structure LoweredArgs.Delivers (params : List String) (before : List IR.Line)
    (lowered : LoweredArgs) : Prop where
  code : Supplied params before (instrLines lowered.code)
  values : ∀ x ∈ lowered.values,
    Usable params (before ++ instrLines lowered.code) x (.scalar .int)

lemma Expr.delivers_lowerArgs {args : List Expr} (hann : ∀ e ∈ args, e.Annotated Γ)
    (h : ∀ e ∈ args, ∀ before t l, Furnished Γ params before → e.lower t = .ok l →
      l.Delivers params before (.scalar e.typeOf)) :
    ∀ before t a, Furnished Γ params before → Expr.lowerArgs args t = .ok a →
      a.Delivers params before := by
  induction args with
  | nil =>
    intro before t a _ ha
    rw [Expr.lowerArgs] at ha
    cases ha
    refine ⟨.nil, ?_⟩
    intro x hx
    cases hx
  | cons e rest ih =>
    intro before t a hfurnished ha
    obtain ⟨l, more, hl, hmore, rfl⟩ := Expr.exists_of_lowerArgs_cons (hann e List.mem_cons_self) ha
    have hfirst := (h e List.mem_cons_self before t l hfurnished hl).toInt
    have hrest := ih (fun d hd => hann d (List.mem_cons_of_mem e hd))
      (fun d hd => h d (List.mem_cons_of_mem e hd))
      (before ++ instrLines (l.toInt e.typeOf).code) _ more (hfurnished.append _) hmore
    have hemits := Expr.emits_lowerArgs (fun d _ => d.emits_lower) _ more hmore
    refine ⟨supplied_append_instrLines hfirst.code hrest.code, ?_⟩
    intro x hx
    rw [append_instrLines]
    rcases List.mem_cons.1 hx with rfl | hx
    · exact hemits.usable_append hfirst.value
    · exact hrest.values x hx

/-- The code of an expression finds its operands, and leaves a value of the expression's type. -/
lemma Expr.delivers_lower {e : Expr} (hann : e.Annotated Γ) :
    ∀ before t l, Furnished Γ params before → e.lower t = .ok l →
      l.Delivers params before (.scalar e.typeOf) := by
  induction hann with
  | integer =>
    intro before t l _ h
    rw [Expr.lower_integer] at h
    cases h
    exact ⟨.nil, .constant⟩
  | @var name symbol hscalar =>
    intro before t l hfurnished h
    obtain ⟨hown, rfl | rfl⟩ := hscalar
    · rw [Expr.lower_var] at h
      cases h
      have haddress : Usable params (before ++ instrLines []) (.register (.named name)) .address :=
        .register ((hfurnished.var hown).append_named _)
      exact LoweredExpr.delivers_emitResult .nil haddress.one rfl
    · rw [Expr.lower_arg] at h
      cases h
      exact ⟨.nil, .register ((hfurnished.arg hown).append_named _)⟩
  | @element name index symbol harray hindex _ ih =>
    intro before t l hfurnished h
    obtain ⟨hown, size, rfl⟩ := harray
    obtain ⟨i, address, hi, rfl, rfl⟩ := Expr.exists_of_lower_element hindex h
    have haddress := LoweredExpr.delivers_lowerAddress (hfurnished.array hown)
      (ih before t i hfurnished hi)
    exact LoweredExpr.delivers_emitResult haddress.code haddress.value.one rfl
  | @arith op left right _ hleft _ hright ihl ihr =>
    intro before t lowered hfurnished h
    obtain ⟨l, r, hl, hr, rfl⟩ := Expr.exists_of_lower_arith h
    have hl' := ihl before t l hfurnished hl
    have hr' := ihr (before ++ instrLines l.code) _ r (hfurnished.append _) hr
    rw [hleft] at hl'
    rw [hright] at hr'
    refine LoweredExpr.delivers_emitResult (supplied_append_instrLines hl'.code hr'.code) ?_ rfl
    rw [append_instrLines]
    exact ((right.emits_lower _ r hr).usable_append hl'.value).two hr'.value
  | @compare op left right hleft hright ihl ihr =>
    intro before t lowered hfurnished h
    obtain ⟨l, r, hl, hr, rfl⟩ := Expr.exists_of_lower_compare hleft hright h
    exact LoweredExpr.delivers_lowerComparison (ihl before t l hfurnished hl)
      (ihr _ _ r (hfurnished.append _) hr) (right.emits_lower _ r hr)
  | call _ hargs ih =>
    intro before t lowered hfurnished h
    obtain ⟨a, ha, rfl⟩ := Expr.exists_of_lower_call h
    have hdelivers := Expr.delivers_lowerArgs hargs ih before t a hfurnished ha
    refine LoweredExpr.delivers_emitResult hdelivers.code ?_ rfl
    intro x τ hx
    obtain ⟨arg, harg, heq⟩ := List.mem_map.1 hx
    cases heq
    exact hdelivers.values _ harg

lemma Expr.delivers_lowerInt {e : Expr} (hann : e.Annotated Γ) {t : Nat} {v : LoweredExpr}
    (hfurnished : Furnished Γ params before) (h : e.lowerInt t = .ok v) :
    v.Delivers params before (.scalar .int) := by
  obtain ⟨l, hl, rfl⟩ := Expr.exists_of_lowerInt hann h
  exact (Expr.delivers_lower hann before t l hfurnished hl).toInt

/-! ## Statements -/

lemma Target.supplied_lowerStore {target : Target} (hann : target.Annotated Γ)
    (hfurnished : Furnished Γ params before) {v stored : LoweredExpr}
    (hv : v.Delivers params before (.scalar .int)) (h : target.lowerStore v = .ok stored) :
    Supplied params before (instrLines stored.code) := by
  cases hann with
  | @var name symbol hscalar =>
    obtain ⟨⟨found, ty, hsymbol⟩, rfl⟩ := Target.lowerStore_var_inv h
    obtain ⟨hown, rfl | rfl⟩ := hscalar
    · have haddress : Usable params (before ++ instrLines v.code) (.register (.named name))
          .address := .register ((hfurnished.var hown).append_named _)
      exact supplied_append_instrLines hv.code (.instr (hv.value.two haddress))
    · cases hsymbol
  | @element name index symbol harray hindex _ =>
    obtain ⟨hown, size, rfl⟩ := harray
    obtain ⟨i, hi, rfl⟩ := Target.exists_of_lowerStore_element hindex h
    have haddress := LoweredExpr.delivers_lowerAddress
      ((hfurnished.array hown).append_named (instrLines v.code))
      (Expr.delivers_lower hindex _ _ i (hfurnished.append _) hi)
    refine supplied_append_instrLines (supplied_append_instrLines hv.code haddress.code) (.instr ?_)
    rw [append_instrLines]
    exact ((index.emits_lower _ i hi).lowerAddress.usable_append hv.value).two haddress.value

lemma Stmt.supplied_lowerAll {body : List Stmt}
    (h : ∀ s ∈ body, ∀ before c l, Furnished Γ params before → s.lower c = .ok l →
      Supplied params before l.code) :
    ∀ before c l, Furnished Γ params before → Stmt.lowerAll body c = .ok l →
      Supplied params before l.code := by
  induction body with
  | nil =>
    intro before c l _ hl
    rw [Stmt.lowerAll] at hl
    cases hl
    exact .nil
  | cons s rest ih =>
    intro before c l hfurnished hl
    obtain ⟨first, more, hfirst, hmore, rfl⟩ := Stmt.exists_of_lowerAll_cons hl
    have hs := h s List.mem_cons_self before c first hfurnished hfirst
    exact hs.append (ih (fun d hd => h d (List.mem_cons_of_mem s hd)) _ _ more
      (hfurnished.append _) hmore)

/-- The lines of a statement find their operands. -/
lemma Stmt.supplied_lower {s : Stmt} (hann : s.Annotated Γ) :
    ∀ before c l, Furnished Γ params before → s.lower c = .ok l →
      Supplied params before l.code := by
  induction hann with
  | assign htarget hvalue _ =>
    intro before c l hfurnished h
    obtain ⟨v, stored, hv, hstored, rfl⟩ := Stmt.exists_of_lower_assign h
    exact Target.supplied_lowerStore htarget hfurnished
      (Expr.delivers_lowerInt hvalue hfurnished hv) hstored
  | print hvalue =>
    intro before c l hfurnished h
    obtain ⟨v, hv, rfl⟩ := Stmt.exists_of_lower_print h
    have hdelivers := Expr.delivers_lowerInt hvalue hfurnished hv
    exact supplied_append_instrLines hdelivers.code (.instr hdelivers.value.one)
  | @read name symbol hscalar =>
    intro before c l hfurnished h
    obtain ⟨slot, hslot, rfl⟩ := Stmt.exists_of_lower_read h
    obtain ⟨rfl, found, ty, hsymbol⟩ := eq_of_requireSlot hslot
    obtain ⟨hown, rfl | rfl⟩ := hscalar
    · exact .instr (Usable.register (hfurnished.var hown)).one
    · cases hsymbol
  | ret hvalue =>
    intro before c l hfurnished h
    obtain ⟨v, hv, rfl⟩ := Stmt.exists_of_lower_ret h
    have hdelivers := Expr.delivers_lowerInt hvalue hfurnished hv
    exact supplied_append_instrLines hdelivers.code (.instr hdelivers.value.one)
  | @branch condition yes no hcondition htype _ _ ihyes ihno =>
    intro before c l hfurnished h
    obtain ⟨test, y, n, htest, hy, hn, rfl⟩ := Stmt.exists_of_lower_branch h
    have hdelivers := Expr.delivers_lower hcondition before _ test hfurnished htest
    rw [htype] at hdelivers
    refine hdelivers.code.append (.instr_cons hdelivers.value.one (.label_cons ?_))
    have hyes := Stmt.supplied_lowerAll ihyes
    have hno := Stmt.supplied_lowerAll ihno
    refine (hyes _ _ y (((hfurnished.append _).append _).append _) hy).append ?_
    refine .instr_cons (fun _ _ hx => nomatch hx) (.label_cons ?_)
    refine (hno _ _ n ((((((hfurnished.append _).append _).append _).append _).append _).append _)
      hn).append ?_
    exact .instr_cons (fun _ _ hx => nomatch hx) (.label _)
  | @loop condition body hcondition htype _ ih =>
    intro before c l hfurnished h
    obtain ⟨test, b, htest, hb, rfl⟩ := Stmt.exists_of_lower_loop h
    refine .instr_cons (fun _ _ hx => nomatch hx) (.label_cons ?_)
    have hdelivers := Expr.delivers_lower hcondition _ _ test
      ((hfurnished.append [.instr (.jump (.numbered .loopHead (c.labels + 1)))]).append
        [.label (.numbered .loopHead (c.labels + 1))]) htest
    rw [htype] at hdelivers
    refine hdelivers.code.append (.instr_cons hdelivers.value.one (.label_cons ?_))
    refine (Stmt.supplied_lowerAll ih _ _ b
      (((((hfurnished.append _).append _).append _).append _).append _) hb).append ?_
    exact .instr_cons (fun _ _ hx => nomatch hx) (.label _)
  | block _ ih =>
    intro before c l hfurnished h
    rw [Stmt.lower] at h
    exact Stmt.supplied_lowerAll ih before c l hfurnished h

/-! ## Functions and programs -/

lemma isBoundary_slots (slots : List VarDef) :
    ∀ line ∈ instrLines (slots.flatMap VarDef.lower), line.isBoundary = false := by
  intro line hline
  obtain ⟨i, hi, rfl⟩ := List.mem_map.1 hline
  exact isTerminator_slots hi

/-- A slot is available after the head of its function. -/
lemma available_slot {slots : List VarDef} {d : VarDef} (hd : d ∈ slots) :
    Available params ([.label .entry] ++ instrLines (slots.flatMap VarDef.lower)) (.named d.name)
      d.slotType := by
  obtain ⟨earlier, later, rfl⟩ := List.append_of_mem hd
  obtain ⟨i, rest, hlower, hi, hdefines, _⟩ := d.exists_of_lower
  have hsplit : [.label .entry] ++ instrLines ((earlier ++ d :: later).flatMap VarDef.lower) =
      .label .entry :: (instrLines (earlier.flatMap VarDef.lower) ++
        .instr i :: instrLines (rest ++ later.flatMap VarDef.lower)) := by
    simp [instrLines, hlower]
  exact .slot hsplit (isBoundary_slots earlier) hi hdefines

/-- The head of a function finds its operands: a slot is set to zero right after it is reserved. -/
lemma supplied_slots (slots : List VarDef) :
    Supplied params [.label .entry] (instrLines (slots.flatMap VarDef.lower)) := by
  induction slots using List.reverseRecOn with
  | nil => exact .nil
  | append_singleton slots d ih =>
    rw [List.flatMap_append]
    refine supplied_append_instrLines ih ?_
    rw [List.flatMap_singleton]
    cases d with
    | array name size => exact .instr fun _ _ hx => nomatch hx
    | scalar name =>
      have hsplit : [.label .entry] ++ instrLines (slots.flatMap VarDef.lower) ++
          [.instr (.reserve name)] = .label .entry ::
            (instrLines (slots.flatMap VarDef.lower) ++ .instr (.reserve name) :: []) := rfl
      have hslot : Usable params ([.label .entry] ++ instrLines (slots.flatMap VarDef.lower) ++
          [.instr (.reserve name)]) (.register (.named name)) .address :=
        .register (.slot hsplit (isBoundary_slots slots) rfl rfl)
      exact .instr_cons (fun _ _ hx => nomatch hx) (.instr (Usable.constant.two hslot))

/-- What a function can refer to is available after its head. -/
lemma FunctionDecl.furnished {f : FunctionDecl} (hown : ∀ symbol, Γ.own symbol →
    symbol ∈ f.innerSymbols) : Furnished Γ f.paramList
      ([.label .entry] ++ instrLines (f.localList.flatMap VarDef.lower)) := by
  intro symbol ty h hty
  rcases List.mem_append.1 (hown symbol h) with hmem | hmem
  · obtain ⟨param, hparam, rfl⟩ := List.mem_map.1 hmem
    cases hty
    exact .param hparam
  · obtain ⟨d, hd, rfl⟩ := List.mem_map.1 hmem
    cases d with
    | scalar name =>
      cases hty
      exact available_slot hd
    | array name size =>
      cases hty
      exact available_slot hd

lemma FunctionDecl.supplied_of_lower {f : FunctionDecl} {finalReturn : Bool} {c c' : Counters}
    {g : IR.Function} (hown : ∀ symbol, Γ.own symbol → symbol ∈ f.innerSymbols)
    (hann : ∀ s ∈ f.body, s.Annotated Γ) (h : f.lower finalReturn c = .ok (g, c')) :
    Supplied g.params [] g.lines := by
  obtain ⟨l, hl, _, rfl⟩ := FunctionDecl.lower_inv h
  have hhead : Supplied f.paramList []
      ([.label .entry] ++ instrLines (f.localList.flatMap VarDef.lower)) :=
    (Supplied.label _).append (supplied_slots _)
  have hbody := Stmt.supplied_lowerAll (fun s hs => Stmt.supplied_lower (hann s hs)) _ c l
    (FunctionDecl.furnished hown) hl
  refine (hhead.append hbody).append ?_
  cases finalReturn with
  | false => exact .nil
  | true => exact .instr Usable.constant.one

/-- The functions of an annotated program are annotated each in a place of its own. -/
lemma Program.exists_env_of_mem_units {p : Program} (hann : p.Annotated) {finalReturn : Bool}
    {unit : FunctionDecl × Bool} (h : unit ∈ p.units finalReturn) :
    ∃ Γ : Env, (∀ symbol, Γ.own symbol → symbol ∈ unit.1.innerSymbols) ∧
      ∀ s ∈ unit.1.body, s.Annotated Γ := by
  rcases List.mem_append.1 h with h | h
  · obtain ⟨f, hf, rfl⟩ := List.mem_map.1 h
    obtain ⟨before, after, hsplit⟩ := p.mem_functions_iff.1 hf
    exact ⟨f.env before, fun _ hown => hown, hann.functions before f after hsplit⟩
  · cases List.mem_singleton.1 h
    exact ⟨p.env, fun _ hown => hown, hann.body⟩

/-- In every function of a module, every instruction finds its operands. -/
lemma Program.supplied_of_lower {p : Program} (hann : p.Annotated) {finalReturn : Bool}
    {m : IR.Module} {counters : Counters} (h : (p.lower finalReturn).result = .ok (m, counters))
    {g : IR.Function} (hg : g ∈ m.functions) : Supplied g.params [] g.lines := by
  obtain ⟨f, _, c, c', hunit, hf⟩ := (Program.lowersTo h).exists_of_mem hg
  obtain ⟨Γ, hown, hbody⟩ := Program.exists_env_of_mem_units hann hunit
  exact FunctionDecl.supplied_of_lower hown hbody hf

end DLang
