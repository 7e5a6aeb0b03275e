import Mathlib.Data.List.Basic
import DLang.Proofs.Grammar.Names
import DLang.Proofs.Lowering.Units

/-!
# The names that lowered code mentions

A tree mentions names where it declares them and where it uses them, and the two need not agree in a
tree built by hand.  Lowering writes names into registers and calls, and takes each of them from the
tree: it makes up temporaries and labels, which are numbered and no names, and one name for the
function of the program's own body (`Program.mentioned_of_lower`).
-/

namespace DLang

/-! ## Names of a tree -/

mutual

/-- The names that an expression mentions. -/
def Expr.mentioned : Expr → List String
  | .integer .. => []
  | .var name _ _ => [name]
  | .element name index _ _ => name :: index.mentioned
  | .arith _ left right _ => left.mentioned ++ right.mentioned
  | .compare _ left right _ => left.mentioned ++ right.mentioned
  | .call name none _ => [name]
  | .call name (some args) _ => name :: Expr.mentionedAll args

/-- The names that expressions mention. -/
def Expr.mentionedAll : List Expr → List String
  | [] => []
  | e :: rest => e.mentioned ++ Expr.mentionedAll rest

end

/-- The names that a target mentions. -/
def Target.mentioned : Target → List String
  | .var name _ => [name]
  | .element name index _ => name :: index.mentioned

mutual

/-- The names that a statement mentions. -/
def Stmt.mentioned : Stmt → List String
  | .assign target value _ _ => target.mentioned ++ value.mentioned
  | .print value => value.mentioned
  | .read name _ => [name]
  | .ret value => value.mentioned
  | .branch condition yes none => condition.mentioned ++ Stmt.mentionedAll yes
  | .branch condition yes (some no) =>
    condition.mentioned ++ (Stmt.mentionedAll yes ++ Stmt.mentionedAll no)
  | .loop condition body => condition.mentioned ++ Stmt.mentionedAll body
  | .block body => Stmt.mentionedAll body

/-- The names that statements mention. -/
def Stmt.mentionedAll : List Stmt → List String
  | [] => []
  | s :: rest => s.mentioned ++ Stmt.mentionedAll rest

end

/-- The names that a function declares, and those that its body mentions. -/
def FunctionDecl.mentioned (f : FunctionDecl) : List String :=
  f.name :: (f.innerNames ++ Stmt.mentionedAll f.body)

/-- All names in a program. -/
def Program.mentioned (p : Program) : List String :=
  p.functions.flatMap FunctionDecl.mentioned ++
    (p.varDefs.map VarDef.name ++ Stmt.mentionedAll p.body)

lemma Expr.mentioned_call (name : String) (args : Option (List Expr)) (ty : Option Ty) :
    (Expr.call name args ty).mentioned = name :: Expr.mentionedAll (args.getD []) := by
  cases args <;> simp [Expr.mentioned, Expr.mentionedAll]

lemma Stmt.mentioned_branch (condition : Expr) (yes : List Stmt) (no : Option (List Stmt)) :
    (Stmt.branch condition yes no).mentioned =
      condition.mentioned ++ (Stmt.mentionedAll yes ++ Stmt.mentionedAll (no.getD [])) := by
  cases no <;> simp [Stmt.mentioned, Stmt.mentionedAll]

lemma Expr.mentionedAll_eq_flatMap (list : List Expr) :
    Expr.mentionedAll list = list.flatMap Expr.mentioned := by
  induction list with
  | nil => rfl
  | cons e rest ih => rw [Expr.mentionedAll, ih, List.flatMap_cons]

lemma Stmt.mentionedAll_eq_flatMap (list : List Stmt) :
    Stmt.mentionedAll list = list.flatMap Stmt.mentioned := by
  induction list with
  | nil => rfl
  | cons s rest ih => rw [Stmt.mentionedAll, ih, List.flatMap_cons]

/-- The names that an expression mentions do not depend on annotations. -/
lemma Expr.mentioned_bare (e : Expr) : e.bare.mentioned = e.mentioned := by
  induction e with
  | integer value ty => rfl
  | var name symbol ty => rfl
  | element name index symbol ty ih => exact congrArg (name :: ·) ih
  | arith op left right ty ihl ihr => exact congrArg₂ (· ++ ·) ihl ihr
  | compare op left right ty ihl ihr => exact congrArg₂ (· ++ ·) ihl ihr
  | call name args ty ih =>
    rw [Expr.bare_call, Expr.mentioned_call, Expr.mentioned_call, getD_map_map,
      Expr.mentionedAll_eq_flatMap, Expr.mentionedAll_eq_flatMap, List.flatMap_map]
    exact congrArg (name :: ·) (List.flatMap_congr ih)

lemma Target.mentioned_bare (target : Target) : target.bare.mentioned = target.mentioned := by
  cases target with
  | var name symbol => rfl
  | element name index symbol => exact congrArg (name :: ·) index.mentioned_bare

lemma Stmt.mentionedAll_bare_of_forall {list : List Stmt}
    (h : ∀ s ∈ list, s.bare.mentioned = s.mentioned) :
    Stmt.mentionedAll (list.map Stmt.bare) = Stmt.mentionedAll list := by
  rw [Stmt.mentionedAll_eq_flatMap, Stmt.mentionedAll_eq_flatMap, List.flatMap_map]
  exact List.flatMap_congr h

/-- Nor do those that a statement mentions. -/
lemma Stmt.mentioned_bare (s : Stmt) : s.bare.mentioned = s.mentioned := by
  induction s with
  | assign target value targetTy ty =>
    exact congrArg₂ (· ++ ·) target.mentioned_bare value.mentioned_bare
  | print value => exact value.mentioned_bare
  | read name symbol => rfl
  | ret value => exact value.mentioned_bare
  | branch condition yes no ihyes ihno =>
    rw [Stmt.bare_branch, Stmt.mentioned_branch, Stmt.mentioned_branch, condition.mentioned_bare,
      getD_map_map, Stmt.mentionedAll_bare_of_forall ihyes, Stmt.mentionedAll_bare_of_forall ihno]
  | loop condition body ih =>
    rw [Stmt.bare, Stmt.bareAll_eq_map, Stmt.mentioned, Stmt.mentioned, condition.mentioned_bare,
      Stmt.mentionedAll_bare_of_forall ih]
  | block body ih =>
    rw [Stmt.bare, Stmt.bareAll_eq_map, Stmt.mentioned, Stmt.mentioned,
      Stmt.mentionedAll_bare_of_forall ih]

lemma Stmt.mentionedAll_bareAll (list : List Stmt) :
    Stmt.mentionedAll (Stmt.bareAll list) = Stmt.mentionedAll list := by
  rw [Stmt.bareAll_eq_map]
  exact Stmt.mentionedAll_bare_of_forall fun s _ => s.mentioned_bare

/-- Trees that differ only in annotations mention the same names. -/
lemma Program.mentioned_bare (p : Program) : p.bare.mentioned = p.mentioned := by
  have hfunction (f : FunctionDecl) : f.bare.mentioned = f.mentioned := by
    rw [FunctionDecl.mentioned, FunctionDecl.mentioned, FunctionDecl.bare,
      Stmt.mentionedAll_bareAll]
    rfl
  have hbody : Stmt.mentionedAll p.bare.body = Stmt.mentionedAll p.body :=
    Stmt.mentionedAll_bareAll p.body
  rw [Program.mentioned, Program.mentioned, p.functions_bare, p.varDefs_bare, hbody,
    List.flatMap_map]
  simp only [hfunction]

/-! ## Names of a module -/

namespace IR

/-- The name of a register that has one. -/
def Register.mentioned : Register → List String
  | named name => [name]
  | temporary _ => []

/-- The name of an operand that has one. -/
def Operand.mentioned : Operand → List String
  | constant _ => []
  | register r => r.mentioned

/-- The names that an instruction mentions. -/
def Instr.mentioned : Instr → List String
  | reserve slot => [slot]
  | reserveArray slot _ => [slot]
  | store value address => value.mentioned ++ address.mentioned
  | load _ address => address.mentioned
  | elementAddress _ _ array index => array :: index.mentioned
  | arith _ _ left right => left.mentioned ++ right.mentioned
  | compare _ _ _ left right => left.mentioned ++ right.mentioned
  | widen _ value => value.mentioned
  | call _ function args => function :: args.flatMap Operand.mentioned
  | print _ value => value.mentioned
  | read _ slot => [slot]
  | jump _ => []
  | branch condition _ _ => condition.mentioned
  | ret value => value.mentioned

/-- The names that a line mentions. -/
def Line.mentioned : Line → List String
  | label _ => []
  | instr i => i.mentioned

/-- The names that a function has in its head and in its lines. -/
def Function.mentioned (g : Function) : List String :=
  g.name :: (g.params ++ g.lines.flatMap Line.mentioned)

/-- Other names, and other temporaries and labels. -/
structure Substitution where
  onName : String → String
  onTemporary : Nat → Nat
  onLabel : Label → Label

/-- A register under another name. -/
def Register.subst (σ : Substitution) : Register → Register
  | named name => named (σ.onName name)
  | temporary number => temporary (σ.onTemporary number)

/-- An operand under another name. -/
def Operand.subst (σ : Substitution) : Operand → Operand
  | constant value => constant value
  | register r => register (r.subst σ)

/-- An instruction with other names. -/
def Instr.subst (σ : Substitution) : Instr → Instr
  | reserve slot => reserve (σ.onName slot)
  | reserveArray slot size => reserveArray (σ.onName slot) size
  | store value address => store (value.subst σ) (address.subst σ)
  | load into address => load (σ.onTemporary into) (address.subst σ)
  | elementAddress into size array index =>
    elementAddress (σ.onTemporary into) size (σ.onName array) (index.subst σ)
  | arith into op left right => arith (σ.onTemporary into) op (left.subst σ) (right.subst σ)
  | compare into op ty left right =>
    compare (σ.onTemporary into) op ty (left.subst σ) (right.subst σ)
  | widen into value => widen (σ.onTemporary into) (value.subst σ)
  | call into function args =>
    call (σ.onTemporary into) (σ.onName function) (args.map (Operand.subst σ))
  | print into value => print (σ.onTemporary into) (value.subst σ)
  | read into slot => read (σ.onTemporary into) (σ.onName slot)
  | jump label => jump (σ.onLabel label)
  | branch condition yes no => branch (condition.subst σ) (σ.onLabel yes) (σ.onLabel no)
  | ret value => ret (value.subst σ)

/-- A line with other names. -/
def Line.subst (σ : Substitution) : Line → Line
  | label l => label (σ.onLabel l)
  | instr i => instr (i.subst σ)

/-- A function with other names in its head and in its lines. -/
def Function.subst (σ : Substitution) (g : Function) : Function where
  name := σ.onName g.name
  params := g.params.map σ.onName
  lines := g.lines.map (Line.subst σ)

lemma Register.mentioned_subst (σ : Substitution) (r : Register) :
    (r.subst σ).mentioned = r.mentioned.map σ.onName := by
  cases r <;> rfl

lemma Operand.mentioned_subst (σ : Substitution) (x : Operand) :
    (x.subst σ).mentioned = x.mentioned.map σ.onName := by
  cases x with
  | constant value => rfl
  | register r => exact r.mentioned_subst σ

lemma Instr.mentioned_subst (σ : Substitution) (i : Instr) :
    (i.subst σ).mentioned = i.mentioned.map σ.onName := by
  have hargs (args : List Operand) : (args.map (Operand.subst σ)).flatMap Operand.mentioned =
      (args.flatMap Operand.mentioned).map σ.onName := by
    rw [List.flatMap_map, List.map_flatMap]
    exact List.flatMap_congr fun x _ => x.mentioned_subst σ
  cases i <;>
    simp only [Instr.subst, Instr.mentioned, Operand.mentioned_subst, Register.mentioned_subst,
      List.map_append, List.map_cons, List.map_nil, hargs]

/-- The names after a substitution are the other names. -/
lemma Function.mentioned_subst (σ : Substitution) (g : Function) :
    (g.subst σ).mentioned = g.mentioned.map σ.onName := by
  have hlines : (g.lines.map (Line.subst σ)).flatMap Line.mentioned =
      (g.lines.flatMap Line.mentioned).map σ.onName := by
    rw [List.flatMap_map, List.map_flatMap]
    refine List.flatMap_congr fun line _ => ?_
    cases line with
    | label l => rfl
    | instr i => exact i.mentioned_subst σ
  rw [Function.mentioned, Function.mentioned, List.map_cons, List.map_append, ← hlines]
  rfl

end IR

/-! ## Expressions -/

/-- The code and the value of a lowered expression mention only some names. -/
structure LoweredExpr.MentionsOnly (names : List String) (lowered : LoweredExpr) : Prop where
  code : lowered.code.flatMap IR.Instr.mentioned ⊆ names
  value : lowered.value.mentioned ⊆ names

namespace LoweredExpr.MentionsOnly

variable {names names' : List String} {lowered l r : LoweredExpr} {code : List IR.Instr}
  {value : IR.Operand} {t : Nat}

lemma mono (h : lowered.MentionsOnly names) (hnames : names ⊆ names') :
    lowered.MentionsOnly names' :=
  ⟨List.Subset.trans h.code hnames, List.Subset.trans h.value hnames⟩

lemma emitResult {instr : Nat → IR.Instr} (hcode : code.flatMap IR.Instr.mentioned ⊆ names)
    (hinstr : (instr (t + 1)).mentioned ⊆ names) :
    (emitResult code t instr).MentionsOnly names := by
  refine ⟨?_, List.nil_subset _⟩
  rw [DLang.emitResult, List.flatMap_append, List.flatMap_singleton]
  exact List.append_subset.2 ⟨hcode, hinstr⟩

lemma widenAfter {ty : Ty} (hcode : code.flatMap IR.Instr.mentioned ⊆ names)
    (hvalue : value.mentioned ⊆ names) : (widenAfter code value ty t).MentionsOnly names := by
  cases ty with
  | int => exact ⟨hcode, hvalue⟩
  | bool =>
    rw [DLang.widenAfter]
    exact emitResult hcode hvalue

lemma toInt {ty : Ty} (h : lowered.MentionsOnly names) : (lowered.toInt ty).MentionsOnly names :=
  widenAfter h.code h.value

lemma lowerAddress {name : String} {size : Nat} {ty : Ty} (hname : name ∈ names)
    (h : lowered.MentionsOnly names) : (lowerAddress name size lowered ty).MentionsOnly names := by
  rw [DLang.lowerAddress]
  exact emitResult h.toInt.code (List.cons_subset.2 ⟨hname, h.toInt.value⟩)

lemma lowerComparison {op : RelOp} {lty rty : Ty} (hl : l.MentionsOnly names)
    (hr : r.MentionsOnly names) : (lowerComparison op l lty r rty).MentionsOnly names := by
  have hcode : (l.code ++ r.code).flatMap IR.Instr.mentioned ⊆ names := by
    rw [List.flatMap_append]
    exact List.append_subset.2 ⟨hl.code, hr.code⟩
  rw [DLang.lowerComparison]
  split
  · exact emitResult hcode (List.append_subset.2 ⟨hl.value, hr.value⟩)
  · have hleft : (DLang.widenAfter (l.code ++ r.code) l.value lty r.temporaries).MentionsOnly
        names := widenAfter hcode hl.value
    refine emitResult (widenAfter hleft.code hr.value).code ?_
    exact List.append_subset.2 ⟨hleft.value, (widenAfter hleft.code hr.value).value⟩

end LoweredExpr.MentionsOnly

lemma Expr.mentioned_lowerArgs {args : List Expr}
    (h : ∀ e ∈ args, ∀ t l, e.lower t = .ok l → l.MentionsOnly e.mentioned) :
    ∀ t a, Expr.lowerArgs args t = .ok a →
      a.code.flatMap IR.Instr.mentioned ⊆ Expr.mentionedAll args ∧
        a.values.flatMap IR.Operand.mentioned ⊆ Expr.mentionedAll args := by
  induction args with
  | nil =>
    intro t a ha
    rw [Expr.lowerArgs] at ha
    cases ha
    exact ⟨List.nil_subset _, List.nil_subset _⟩
  | cons e rest ih =>
    intro t a ha
    obtain ⟨l, ty, more, hl, _, hmore, rfl⟩ := Expr.lowerArgs_cons_inv ha
    have hfirst : (l.toInt ty).MentionsOnly (Expr.mentionedAll (e :: rest)) := by
      apply (h e List.mem_cons_self t l hl).toInt.mono
      rw [Expr.mentionedAll]
      exact List.subset_append_left _ _
    obtain ⟨hcode, hvalues⟩ := ih (fun d hd => h d (List.mem_cons_of_mem e hd)) _ more hmore
    have hrest : Expr.mentionedAll rest ⊆ Expr.mentionedAll (e :: rest) := by
      rw [Expr.mentionedAll]
      exact List.subset_append_right _ _
    rw [List.flatMap_append, List.flatMap_cons]
    exact ⟨List.append_subset.2 ⟨hfirst.code, List.Subset.trans hcode hrest⟩,
      List.append_subset.2 ⟨hfirst.value, List.Subset.trans hvalues hrest⟩⟩

/-- A lowered expression mentions no name that the expression does not. -/
lemma Expr.mentioned_lower (e : Expr) :
    ∀ t l, e.lower t = .ok l → l.MentionsOnly e.mentioned := by
  induction e with
  | integer value ty =>
    intro t l h
    rw [Expr.lower] at h
    obtain ⟨_, _, h⟩ := exists_of_bind_eq_ok h
    cases h
    exact ⟨List.nil_subset _, List.nil_subset _⟩
  | var name symbol ty =>
    intro t l h
    rw [Expr.lower] at h
    obtain ⟨_, _, h⟩ := exists_of_bind_eq_ok h
    unfold lowerVariable at h
    split at h
    · cases h
      exact .emitResult (List.nil_subset _) (List.Subset.refl _)
    · cases h
      exact ⟨List.nil_subset _, List.Subset.refl _⟩
    · cases h
  | element name index symbol ty ih =>
    intro t l h
    obtain ⟨size, i, indexTy, _, _, hi, _, rfl, rfl⟩ := Expr.lower_element_inv h
    rw [Expr.mentioned]
    have hindex := (ih t i hi).mono (List.subset_cons_self name index.mentioned)
    exact .emitResult (hindex.lowerAddress List.mem_cons_self).code (List.nil_subset _)
  | arith op left right ty ihl ihr =>
    intro t lowered h
    obtain ⟨l, r, hl, hr, rfl⟩ := Expr.exists_of_lower_arith h
    rw [Expr.mentioned]
    have hleft := (ihl t l hl).mono (List.subset_append_left _ right.mentioned)
    have hright := (ihr _ r hr).mono (List.subset_append_right left.mentioned _)
    refine .emitResult ?_ (List.append_subset.2 ⟨hleft.value, hright.value⟩)
    rw [List.flatMap_append]
    exact List.append_subset.2 ⟨hleft.code, hright.code⟩
  | compare op left right ty ihl ihr =>
    intro t lowered h
    obtain ⟨l, r, _, _, hl, hr, _, _, rfl⟩ := Expr.lower_compare_inv h
    rw [Expr.mentioned]
    have hleft := (ihl t l hl).mono (List.subset_append_left _ right.mentioned)
    have hright := (ihr _ r hr).mono (List.subset_append_right left.mentioned _)
    exact hleft.lowerComparison hright
  | call name args ty ih =>
    intro t lowered h
    obtain ⟨a, ha, rfl⟩ := Expr.exists_of_lower_call h
    obtain ⟨hcode, hvalues⟩ := Expr.mentioned_lowerArgs ih t a ha
    rw [Expr.mentioned_call]
    exact .emitResult (List.subset_cons_of_subset name hcode) (List.cons_subset_cons name hvalues)

lemma Expr.mentioned_lowerInt {e : Expr} {t : Nat} {lowered : LoweredExpr}
    (h : e.lowerInt t = .ok lowered) : lowered.MentionsOnly e.mentioned := by
  obtain ⟨l, ty, hl, _, rfl⟩ := Expr.lowerInt_inv h
  exact (e.mentioned_lower t l hl).toInt

/-! ## Statements -/

lemma mentioned_instrLines (code : List IR.Instr) :
    (instrLines code).flatMap IR.Line.mentioned = code.flatMap IR.Instr.mentioned := by
  rw [instrLines, List.flatMap_map]
  rfl

lemma mentioned_instrLines_snoc {code : List IR.Instr} {i : IR.Instr} {names : List String}
    (hcode : code.flatMap IR.Instr.mentioned ⊆ names) (hi : i.mentioned ⊆ names) :
    (instrLines (code ++ [i])).flatMap IR.Line.mentioned ⊆ names := by
  rw [mentioned_instrLines, List.flatMap_append, List.flatMap_singleton]
  exact List.append_subset.2 ⟨hcode, hi⟩

lemma Target.mentioned_lowerStore {target : Target} {v stored : LoweredExpr} {names : List String}
    (hv : v.MentionsOnly names) (htarget : target.mentioned ⊆ names)
    (h : target.lowerStore v = .ok stored) :
    (instrLines stored.code).flatMap IR.Line.mentioned ⊆ names := by
  cases target with
  | var name symbol =>
    obtain ⟨_, rfl⟩ := Target.lowerStore_var_inv h
    exact mentioned_instrLines_snoc hv.code (List.append_subset.2 ⟨hv.value, htarget⟩)
  | element name index symbol =>
    obtain ⟨size, i, ty, _, hi, _, rfl⟩ := Target.lowerStore_element_inv h
    obtain ⟨hname, hindex⟩ := List.cons_subset.1 htarget
    have haddress : (lowerAddress name size i ty).MentionsOnly names :=
      ((index.mentioned_lower _ i hi).mono hindex).lowerAddress hname
    refine mentioned_instrLines_snoc ?_ (List.append_subset.2 ⟨hv.value, List.nil_subset _⟩)
    rw [List.flatMap_append]
    exact List.append_subset.2 ⟨hv.code, haddress.code⟩

lemma Stmt.mentioned_lowerAll {body : List Stmt}
    (h : ∀ s ∈ body, ∀ c l, s.lower c = .ok l →
      l.code.flatMap IR.Line.mentioned ⊆ s.mentioned) :
    ∀ c l, Stmt.lowerAll body c = .ok l →
      l.code.flatMap IR.Line.mentioned ⊆ Stmt.mentionedAll body := by
  induction body with
  | nil =>
    intro c l hl
    rw [Stmt.lowerAll] at hl
    cases hl
    exact List.nil_subset _
  | cons s rest ih =>
    intro c l hl
    obtain ⟨first, more, hfirst, hmore, rfl⟩ := Stmt.exists_of_lowerAll_cons hl
    have hs := h s List.mem_cons_self c first hfirst
    have hrest := ih (fun d hd => h d (List.mem_cons_of_mem s hd)) _ more hmore
    rw [Stmt.mentionedAll, List.flatMap_append]
    exact List.append_subset.2 ⟨List.subset_append_of_subset_left _ hs,
      List.subset_append_of_subset_right _ hrest⟩

/-- The lines of a lowered statement mention no name that the statement does not. -/
lemma Stmt.mentioned_lower (s : Stmt) :
    ∀ c l, s.lower c = .ok l → l.code.flatMap IR.Line.mentioned ⊆ s.mentioned := by
  induction s with
  | assign target value targetTy ty =>
    intro c l h
    obtain ⟨v, stored, hv, hstored, rfl⟩ := Stmt.exists_of_lower_assign h
    rw [Stmt.mentioned]
    have hvalue := (Expr.mentioned_lowerInt hv).mono
      (List.subset_append_right target.mentioned value.mentioned)
    exact Target.mentioned_lowerStore hvalue (List.subset_append_left _ _) hstored
  | print value =>
    intro c l h
    obtain ⟨v, hv, rfl⟩ := Stmt.exists_of_lower_print h
    have hvalue := Expr.mentioned_lowerInt hv
    rw [Stmt.mentioned]
    exact mentioned_instrLines_snoc hvalue.code hvalue.value
  | read name symbol =>
    intro c l h
    obtain ⟨slot, hslot, rfl⟩ := Stmt.exists_of_lower_read h
    obtain ⟨rfl, _⟩ := eq_of_requireSlot hslot
    exact List.Subset.refl _
  | ret value =>
    intro c l h
    obtain ⟨v, hv, rfl⟩ := Stmt.exists_of_lower_ret h
    have hvalue := Expr.mentioned_lowerInt hv
    rw [Stmt.mentioned]
    exact mentioned_instrLines_snoc hvalue.code hvalue.value
  | branch condition yes no ihyes ihno =>
    intro c l h
    obtain ⟨test, y, n, htest, hy, hn, rfl⟩ := Stmt.exists_of_lower_branch h
    have hcondition := condition.mentioned_lower _ test htest
    have hyes := Stmt.mentioned_lowerAll ihyes _ y hy
    have hno := Stmt.mentioned_lowerAll ihno _ n hn
    rw [Stmt.mentioned_branch, branchLines]
    simp only [List.flatMap_append, List.flatMap_cons, List.flatMap_nil, mentioned_instrLines,
      IR.Line.mentioned, IR.Instr.mentioned, List.nil_append, List.append_nil]
    refine List.append_subset.2 ⟨List.subset_append_of_subset_left _ hcondition.code, ?_⟩
    refine List.append_subset.2 ⟨List.subset_append_of_subset_left _ hcondition.value, ?_⟩
    apply List.subset_append_of_subset_right
    exact List.append_subset.2 ⟨List.subset_append_of_subset_left _ hyes,
      List.subset_append_of_subset_right _ hno⟩
  | loop condition body ih =>
    intro c l h
    obtain ⟨test, b, htest, hb, rfl⟩ := Stmt.exists_of_lower_loop h
    have hcondition := condition.mentioned_lower _ test htest
    have hbody := Stmt.mentioned_lowerAll ih _ b hb
    rw [Stmt.mentioned, loopLines]
    simp only [List.flatMap_append, List.flatMap_cons, List.flatMap_nil, mentioned_instrLines,
      IR.Line.mentioned, IR.Instr.mentioned, List.nil_append, List.append_nil]
    refine List.append_subset.2 ⟨List.subset_append_of_subset_left _ hcondition.code, ?_⟩
    refine List.append_subset.2 ⟨List.subset_append_of_subset_left _ hcondition.value, ?_⟩
    exact List.subset_append_of_subset_right _ hbody
  | block body ih =>
    intro c l h
    rw [Stmt.lower] at h
    rw [Stmt.mentioned]
    exact Stmt.mentioned_lowerAll ih c l h

/-! ## Functions and modules -/

lemma VarDef.mentioned_lower (d : VarDef) : d.lower.flatMap IR.Instr.mentioned ⊆ [d.name] := by
  cases d with
  | scalar name =>
    refine List.cons_subset.2 ⟨List.mem_singleton_self name, ?_⟩
    exact List.Subset.refl _
  | array name size => exact List.Subset.refl _

lemma mentioned_slots (slots : List VarDef) :
    (slots.flatMap VarDef.lower).flatMap IR.Instr.mentioned ⊆ slots.map VarDef.name := by
  intro name hname
  obtain ⟨i, hi, hname⟩ := List.mem_flatMap.1 hname
  obtain ⟨d, hd, hi⟩ := List.mem_flatMap.1 hi
  have hname := d.mentioned_lower (List.mem_flatMap.2 ⟨i, hi, hname⟩)
  rw [List.mem_singleton.1 hname]
  exact List.mem_map_of_mem hd

/-- A function of the module mentions no name that the declaration does not. -/
lemma FunctionDecl.mentioned_lower {f : FunctionDecl} {finalReturn : Bool} {c c' : Counters}
    {g : IR.Function} (h : f.lower finalReturn c = .ok (g, c')) : g.mentioned ⊆ f.mentioned := by
  obtain ⟨l, hl, _, rfl⟩ := FunctionDecl.lower_inv h
  have hbody := Stmt.mentioned_lowerAll (fun s _ => s.mentioned_lower) c l hl
  have hslots := mentioned_slots f.localList
  have hreturn : (if finalReturn then [IR.Line.instr (.ret (.constant 0))] else []).flatMap
      IR.Line.mentioned = [] := by
    cases finalReturn <;> rfl
  unfold IR.Function.mentioned FunctionDecl.mentioned FunctionDecl.innerNames
  refine List.cons_subset_cons f.name (List.append_subset.2 ⟨?_, ?_⟩)
  · exact List.subset_append_of_subset_left _ (List.subset_append_left _ _)
  · rw [functionLines, List.flatMap_append, List.flatMap_append, List.flatMap_append, hreturn,
      List.append_nil, mentioned_instrLines]
    refine List.append_subset.2 ⟨?_, List.subset_append_of_subset_right _ hbody⟩
    apply List.subset_append_of_subset_left
    exact List.subset_append_of_subset_right _ hslots

lemma Program.mentioned_mainDecl (p : Program) :
    p.mainDecl.mentioned ⊆ "main" :: p.mentioned :=
  List.cons_subset_cons "main" (List.subset_append_right _ _)

/-- A module mentions no name that the program does not, apart from the name of its entry. -/
lemma Program.mentioned_of_lower {p : Program} {finalReturn : Bool} {m : IR.Module}
    {counters : Counters} (h : (p.lower finalReturn).result = .ok (m, counters))
    {g : IR.Function} (hg : g ∈ m.functions) : g.mentioned ⊆ "main" :: p.mentioned := by
  obtain ⟨f, b, c, c', hunit, hf⟩ := (Program.lowersTo h).exists_of_mem hg
  apply List.Subset.trans (FunctionDecl.mentioned_lower hf)
  rcases List.mem_append.1 hunit with hunit | hunit
  · obtain ⟨f', hf', heq⟩ := List.mem_map.1 hunit
    cases heq
    apply List.subset_cons_of_subset
    apply List.subset_append_of_subset_left
    exact fun name hname => List.mem_flatMap.2 ⟨f, hf', hname⟩
  · cases List.mem_singleton.1 hunit
    exact p.mentioned_mainDecl

/-- If the names of a program are identifiers, so are all that the module mentions. -/
lemma Program.isIdentifier_of_lower {p : Program} {finalReturn : Bool} {m : IR.Module}
    {counters : Counters} (hnames : ∀ name ∈ p.mentioned, isIdentifier name = true)
    (h : (p.lower finalReturn).result = .ok (m, counters)) :
    ∀ g ∈ m.functions, ∀ name ∈ g.mentioned, isIdentifier name = true := by
  intro g hg name hname
  rcases List.mem_cons.1 (Program.mentioned_of_lower h hg hname) with rfl | hname
  · rfl
  · exact hnames name hname

end DLang
