import DLang.Proofs.Compilation.Stages
import DLang.Proofs.Lowering.Emission
import DLang.Proofs.Lowering.Units
import DLang.Proofs.Module.Format
import Mathlib.Data.List.Perm.Basic

/-!
# The blocks of a module

A function of a module is a sequence of blocks.  This module shows that it is a well-formed one, for
every tree that can be lowered, whether or not analysis would accept it.

Lowering takes the three labels of a branch or a loop before it lowers what is inside, and writes
them down afterwards, around code of any depth.  What the lines of a statement satisfy is therefore
stated as a property of those lines alone, which appending keeps (`Branching`):

* a label comes right after an instruction that ends a block, whatever is in front of the lines;
* the labels have the numbers that were taken, each once, in some order;
* the labels are exactly those that the lines jump to.

The main result is `Program.generate_controlFlow`.
-/

namespace DLang

open IR (labels targets)

/-! ## Branches and loops of a tree -/

mutual

/-- The number of branches and loops in a statement. -/
def Stmt.decisions : Stmt → Nat
  | .assign .. | .print _ | .read .. | .ret _ => 0
  | .branch _ yes none => Stmt.decisionsAll yes + 1
  | .branch _ yes (some no) => Stmt.decisionsAll yes + Stmt.decisionsAll no + 1
  | .loop _ body => Stmt.decisionsAll body + 1
  | .block body => Stmt.decisionsAll body

/-- The number of branches and loops in statements. -/
def Stmt.decisionsAll : List Stmt → Nat
  | [] => 0
  | s :: rest => s.decisions + Stmt.decisionsAll rest

end

/-- The number of branches and loops in a program. -/
def Program.decisions (p : Program) : Nat :=
  Stmt.decisionsAll (p.functions.flatMap FunctionDecl.body) + Stmt.decisionsAll p.body

lemma Stmt.decisionsAll_append (body body' : List Stmt) :
    Stmt.decisionsAll (body ++ body') = Stmt.decisionsAll body + Stmt.decisionsAll body' := by
  induction body with
  | nil => rw [List.nil_append, Stmt.decisionsAll, Nat.zero_add]
  | cons s rest ih =>
    rw [List.cons_append, Stmt.decisionsAll, Stmt.decisionsAll, ih, Nat.add_assoc]

lemma Stmt.decisions_branch (condition : Expr) (yes : List Stmt) (no : Option (List Stmt)) :
    (Stmt.branch condition yes no).decisions =
      Stmt.decisionsAll yes + Stmt.decisionsAll (no.getD []) + 1 := by
  cases no <;> rfl

/-! ## Labels after the ends of blocks -/

/-- Every label comes right after an instruction that ends a block. -/
inductive Sealed : List IR.Line → Prop
  | nil : Sealed []
  | instr {i : IR.Instr} {lines : List IR.Line} : Sealed lines → Sealed (.instr i :: lines)
  | label {i : IR.Instr} {l : IR.Label} {lines : List IR.Line} :
      i.isTerminator = true → Sealed lines → Sealed (.instr i :: .label l :: lines)

namespace Sealed

variable {lines lines' : List IR.Line}

lemma append (h : Sealed lines) (h' : Sealed lines') : Sealed (lines ++ lines') := by
  induction h with
  | nil => exact h'
  | instr _ ih => exact .instr ih
  | label hi _ ih => exact .label hi ih

lemma instrs (code : List IR.Instr) : Sealed (instrLines code) := by
  induction code with
  | nil => exact .nil
  | cons i rest ih => exact .instr ih

/-- The line just before a label ends a block. -/
lemma getLast?_before (h : Sealed lines) {before after : List IR.Line} {l : IR.Label}
    (hsplit : lines = before ++ .label l :: after) :
    ∃ i, before.getLast? = some (.instr i) ∧ i.isTerminator = true := by
  induction h generalizing before with
  | nil => simp at hsplit
  | @instr i rest _ ih =>
    cases before with
    | nil => cases hsplit
    | cons first before =>
      obtain ⟨_, hrest⟩ := List.cons.inj hsplit
      obtain ⟨j, hlast, hj⟩ := ih hrest
      exact ⟨j, by simp [List.getLast?_cons, hlast], hj⟩
  | @label i l' rest hi _ ih =>
    cases before with
    | nil => cases hsplit
    | cons first before =>
      obtain ⟨rfl, htail⟩ := List.cons.inj hsplit
      cases before with
      | nil => exact ⟨i, rfl, hi⟩
      | cons second before =>
        obtain ⟨_, hrest⟩ := List.cons.inj htail
        obtain ⟨j, hlast, hj⟩ := ih hrest
        exact ⟨j, by simp [List.getLast?_cons, hlast], hj⟩

end Sealed

/-! ## The lines of statements -/

/-- Lines that take the `count` label numbers after `k`, and jump only among themselves. -/
structure Branching (k count : Nat) (lines : List IR.Line) : Prop where
  closed : Sealed lines
  numbers : ((labels lines).map IR.Label.number).Perm (List.range' (k + 1) count)
  targets_iff : ∀ l, l ∈ targets lines ↔ l ∈ labels lines

lemma targets_instrLines {code : List IR.Instr} (h : ∀ i ∈ code, i.isTerminator = false) :
    targets (instrLines code) = [] := by
  induction code with
  | nil => rfl
  | cons i rest ih =>
    have hi : i.targets = [] := IR.Instr.targets_of_isTerminator (h i List.mem_cons_self)
    have hrest := ih fun j hj => h j (List.mem_cons_of_mem i hj)
    rw [instrLines] at hrest ⊢
    rw [List.map_cons, IR.targets_instr, hi, hrest]
    rfl

lemma labels_instrLines (code : List IR.Instr) : labels (instrLines code) = [] :=
  IR.labels_map_instr code

namespace Branching

variable {k m n : Nat} {lines lines' : List IR.Line}

lemma append (h : Branching k m lines) (h' : Branching (k + m) n lines') :
    Branching k (m + n) (lines ++ lines') := by
  refine ⟨h.closed.append h'.closed, ?_, ?_⟩
  · have hstart : k + m + 1 = k + 1 + m := by omega
    rw [IR.labels_append, List.map_append, ← List.range'_append_1, ← hstart]
    exact h.numbers.append h'.numbers
  · intro l
    rw [IR.labels_append, IR.targets_append, List.mem_append, List.mem_append, h.targets_iff,
      h'.targets_iff]

/-- Code that ends no block, up to a last instruction that jumps nowhere. -/
lemma instrs {code : List IR.Instr} (h : targets (instrLines code) = []) :
    Branching k 0 (instrLines code) := by
  refine ⟨.instrs code, ?_, ?_⟩
  · rw [labels_instrLines]
    exact .nil
  · intro l
    rw [h, labels_instrLines]

end Branching

/-- Straight code, with a return or another instruction without targets at its end. -/
lemma targets_straight_snoc {code : List IR.Instr} {t t' : Nat} (h : Emits t code t')
    {i : IR.Instr} (hi : i.targets = []) : targets (instrLines (code ++ [i])) = [] := by
  have hcode := targets_instrLines fun j hj => h.isTerminator_eq_false hj
  rw [instrLines, List.map_append, IR.targets_append]
  rw [instrLines] at hcode
  rw [hcode, List.map_singleton, IR.targets_instr, hi]
  rfl

section Constructs

variable {k m n t t' : Nat} {test : LoweredExpr} {yes no body : List IR.Line}

/-- The three labels of a branch, and the labels of its two blocks. -/
lemma branching_branchLines (htest : Emits t test.code t') (hyes : Branching (k + 3) m yes)
    (hno : Branching (k + 3 + m) n no) : Branching k (m + n + 3) (branchLines k test yes no) := by
  have hboth : Branching (k + 3) (m + n) (yes ++ no) := hyes.append hno
  have htargets : targets (instrLines test.code) = [] :=
    targets_instrLines fun i hi => htest.isTerminator_eq_false hi
  refine ⟨?_, ?_, ?_⟩
  · have hend : Sealed (no ++ [.instr (.jump (.numbered .branchEnd (k + 3))),
        .label (.numbered .branchEnd (k + 3))]) := hno.closed.append (.label rfl .nil)
    exact (Sealed.instrs _).append (.label rfl (hyes.closed.append (.label rfl hend)))
  · have hlabels : (labels (branchLines k test yes no)).map IR.Label.number =
        (k + 1) :: ((labels yes).map IR.Label.number ++
          (k + 2) :: ((labels no).map IR.Label.number ++ [k + 3])) := by
      simp [branchLines, labels_instrLines, IR.Label.number]
    have hinner := hboth.numbers
    rw [IR.labels_append, List.map_append] at hinner
    rw [hlabels]
    -- The second label moves in front of the first block, and the third one too.
    refine (List.perm_middle.cons _).trans ?_
    rw [← List.append_assoc]
    refine ((List.perm_append_singleton _ _).cons _ |>.cons _).trans ?_
    exact ((hinner.cons _).cons _).cons _
  · intro l
    simp only [branchLines, IR.labels_append, IR.targets_append, labels_instrLines, htargets,
      IR.labels_instr, IR.labels_label, IR.targets_instr, IR.targets_label, IR.Instr.targets,
      IR.labels_nil, IR.targets_nil, List.mem_append, List.mem_cons, hyes.targets_iff,
      hno.targets_iff, List.nil_append, List.append_nil]
    tauto

/-- The three labels of a loop, and the labels of its body. -/
lemma branching_loopLines (htest : Emits t test.code t') (hbody : Branching (k + 3) m body) :
    Branching k (m + 3) (.instr (.jump (.numbered .loopHead (k + 1))) ::
      .label (.numbered .loopHead (k + 1)) :: loopLines k test body) := by
  have htargets : targets (instrLines test.code) = [] :=
    targets_instrLines fun i hi => htest.isTerminator_eq_false hi
  refine ⟨?_, ?_, ?_⟩
  · refine .label rfl ((Sealed.instrs _).append (.label rfl ?_))
    exact hbody.closed.append (.label rfl .nil)
  · have hlabels : (labels (.instr (.jump (.numbered .loopHead (k + 1))) ::
        .label (.numbered .loopHead (k + 1)) :: loopLines k test body)).map IR.Label.number =
        (k + 1) :: (k + 2) :: ((labels body).map IR.Label.number ++ [k + 3]) := by
      simp [loopLines, labels_instrLines, IR.Label.number]
    rw [hlabels]
    refine ((List.perm_append_singleton _ _).cons _ |>.cons _).trans ?_
    exact ((hbody.numbers.cons _).cons _).cons _
  · intro l
    simp only [loopLines, IR.labels_append, IR.targets_append, labels_instrLines, htargets,
      IR.labels_instr, IR.labels_label, IR.targets_instr, IR.targets_label, IR.Instr.targets,
      IR.labels_nil, IR.targets_nil, List.mem_append, List.mem_cons, hbody.targets_iff,
      List.nil_append, List.append_nil]
    tauto

end Constructs

/-- Lowered lines that take three labels for each of the given number of decisions. -/
structure LoweredStmt.Branches (c : Counters) (decisions : Nat) (lowered : LoweredStmt) : Prop where
  count : lowered.counters.labels = c.labels + 3 * decisions
  branching : Branching c.labels (3 * decisions) lowered.code

lemma Stmt.branches_lowerAll {body : List Stmt}
    (h : ∀ s ∈ body, ∀ c l, s.lower c = .ok l → l.Branches c s.decisions) :
    ∀ c l, Stmt.lowerAll body c = .ok l → l.Branches c (Stmt.decisionsAll body) := by
  induction body with
  | nil =>
    intro c l hl
    rw [Stmt.lowerAll] at hl
    cases hl
    exact ⟨rfl, .nil, .nil, fun l => Iff.rfl⟩
  | cons s rest ih =>
    intro c l hl
    obtain ⟨first, more, hfirst, hmore, rfl⟩ := Stmt.exists_of_lowerAll_cons hl
    have hs := h s List.mem_cons_self c first hfirst
    have hrest := ih (fun d hd => h d (List.mem_cons_of_mem s hd)) _ more hmore
    have hbranching := hrest.branching
    rw [hs.count] at hbranching
    refine ⟨?_, ?_⟩
    · show more.counters.labels = _
      rw [hrest.count, hs.count, Stmt.decisionsAll]
      omega
    · rw [Stmt.decisionsAll, Nat.mul_add]
      exact hs.branching.append hbranching

/-- The lines of a statement take three labels for each branch and each loop in it. -/
lemma Stmt.branches_lower (s : Stmt) : ∀ c l, s.lower c = .ok l → l.Branches c s.decisions := by
  induction s with
  | assign target value targetTy ty =>
    intro c l h
    obtain ⟨v, stored, hv, hstored, rfl⟩ := Stmt.exists_of_lower_assign h
    have hemits := Expr.emits_lowerInt hv
    refine ⟨rfl, .instrs ?_⟩
    cases target with
    | var name symbol =>
      obtain ⟨_, rfl⟩ := Target.lowerStore_var_inv hstored
      exact targets_straight_snoc hemits rfl
    | element name index symbol =>
      obtain ⟨size, i, ty, _, hi, _, rfl⟩ := Target.lowerStore_element_inv hstored
      exact targets_straight_snoc (hemits.append (index.emits_lower _ i hi).lowerAddress) rfl
  | print value =>
    intro c l h
    obtain ⟨v, hv, rfl⟩ := Stmt.exists_of_lower_print h
    exact ⟨rfl, .instrs (targets_straight_snoc (Expr.emits_lowerInt hv) rfl)⟩
  | read name symbol =>
    intro c l h
    obtain ⟨slot, _, rfl⟩ := Stmt.exists_of_lower_read h
    exact ⟨rfl, .instrs rfl⟩
  | ret value =>
    intro c l h
    obtain ⟨v, hv, rfl⟩ := Stmt.exists_of_lower_ret h
    exact ⟨rfl, .instrs (targets_straight_snoc (Expr.emits_lowerInt hv) rfl)⟩
  | branch condition yes no ihyes ihno =>
    intro c l h
    obtain ⟨test, y, n, htest, hy, hn, rfl⟩ := Stmt.exists_of_lower_branch h
    have hyes := Stmt.branches_lowerAll ihyes _ y hy
    have hno := Stmt.branches_lowerAll ihno _ n hn
    have hcount : y.counters.labels = c.labels + 3 + 3 * Stmt.decisionsAll yes := hyes.count
    have hbranching := hno.branching
    rw [hcount] at hbranching
    have hthree : 3 * (Stmt.branch condition yes no).decisions =
        3 * Stmt.decisionsAll yes + 3 * Stmt.decisionsAll (no.getD []) + 3 := by
      rw [Stmt.decisions_branch]
      omega
    refine ⟨?_, ?_⟩
    · show n.counters.labels = _
      rw [hno.count, hcount, hthree]
      omega
    · rw [hthree]
      exact branching_branchLines (condition.emits_lower _ test htest) hyes.branching hbranching
  | loop condition body ih =>
    intro c l h
    obtain ⟨test, b, htest, hb, rfl⟩ := Stmt.exists_of_lower_loop h
    have hbody := Stmt.branches_lowerAll ih _ b hb
    have hcount : b.counters.labels = c.labels + 3 + 3 * Stmt.decisionsAll body := hbody.count
    refine ⟨?_, ?_⟩
    · show b.counters.labels = c.labels + 3 * (Stmt.decisionsAll body + 1)
      rw [hcount]
      omega
    · exact branching_loopLines (condition.emits_lower _ test htest) hbody.branching
  | block body ih =>
    intro c l h
    rw [Stmt.lower] at h
    exact Stmt.branches_lowerAll ih c l h

/-! ## Functions -/

lemma targets_slots (slots : List VarDef) :
    targets (instrLines (slots.flatMap VarDef.lower)) = [] :=
  targets_instrLines fun _ hi => isTerminator_slots hi

lemma labels_functionLines (slots : List VarDef) (body : List IR.Line) (finalReturn : Bool) :
    labels (functionLines slots body finalReturn) = .entry :: labels body := by
  cases finalReturn <;> simp [functionLines, labels_instrLines]

lemma targets_functionLines (slots : List VarDef) (body : List IR.Line) (finalReturn : Bool) :
    targets (functionLines slots body finalReturn) = targets body := by
  cases finalReturn <;> simp [functionLines, targets_slots, IR.Instr.targets]

/-- The entry label is not among labels with numbers from above `k`. -/
lemma Branching.entry_notMem {k count : Nat} {lines : List IR.Line}
    (h : Branching k count lines) : IR.Label.entry ∉ labels lines := by
  intro hentry
  have hzero : 0 ∈ List.range' (k + 1) count := by
    rw [← h.numbers.mem_iff]
    exact List.mem_map_of_mem (f := IR.Label.number) hentry
  have hlower := (List.mem_range'_1.1 hzero).1
  omega

/-- The labels of a function have different numbers. -/
lemma Branching.nodup_numbers {k count : Nat} {body : List IR.Line} (h : Branching k count body) :
    ((IR.Label.entry :: labels body).map IR.Label.number).Nodup := by
  rw [List.map_cons, List.nodup_cons, h.numbers.nodup_iff, h.numbers.mem_iff]
  refine ⟨fun hzero => ?_, List.nodup_range' 1⟩
  have hlower := (List.mem_range'_1.1 hzero).1
  have hentry : IR.Label.entry.number = 0 := rfl
  omega

/-- Labels with different numbers have different texts. -/
lemma nodup_text_of_nodup_number {list : List IR.Label} (h : (list.map IR.Label.number).Nodup) :
    (list.map IR.Label.text).Nodup := by
  refine List.Nodup.map_on ?_ h.of_map
  intro l hl l' hl' htext
  exact List.inj_on_of_nodup_map h hl hl' (IR.Label.number_eq_of_text_eq htext)

/-- The form of a function's blocks. -/
structure IR.Function.WellBlocked (g : IR.Function) : Prop where
  /-- The entry label is the first line, and no other one. -/
  entry : ∃ rest, g.lines = .label .entry :: rest ∧ .entry ∉ labels rest
  /-- The line just before any other label ends a block. -/
  before_label : ∀ before l after, g.lines = before ++ .label l :: after → l ≠ .entry →
    ∃ i, before.getLast? = some (.instr i) ∧ i.isTerminator = true
  /-- The last line ends a block. -/
  last : ∃ i, g.lines.getLast? = some (.instr i) ∧ i.isTerminator = true
  /-- A label that is jumped to is written down once, and it is not the entry. -/
  target : ∀ l ∈ targets g.lines,
    ((labels g.lines).map IR.Label.text).count l.text = 1 ∧ l.text ≠ IR.Label.entry.text
  /-- Every label but the entry is jumped to. -/
  reached : ∀ l ∈ labels g.lines, l ≠ .entry → l ∈ targets g.lines

lemma getLast?_functionLines (slots : List VarDef) (body : List IR.Line) :
    (functionLines slots body true).getLast? = some (.instr (.ret (.constant 0))) :=
  List.getLast?_concat

/-- A function with a final return is made of blocks. -/
lemma FunctionDecl.wellBlocked_of_lower {f : FunctionDecl} {c c' : Counters} {g : IR.Function}
    (h : f.lower true c = .ok (g, c')) : g.WellBlocked := by
  obtain ⟨l, hl, _, rfl⟩ := FunctionDecl.lower_inv h
  have hbody := (Stmt.branches_lowerAll (fun s _ => s.branches_lower) c l hl).branching
  have hlabels := labels_functionLines f.localList l.code true
  have htargets := targets_functionLines f.localList l.code true
  have htexts := nodup_text_of_nodup_number hbody.nodup_numbers
  refine ⟨⟨_, rfl, ?_⟩, ?_, ⟨_, getLast?_functionLines _ _, rfl⟩, ?_, ?_⟩
  · simpa [labels_instrLines] using hbody.entry_notMem
  · intro before label after hsplit hne
    have hclosed : Sealed (instrLines (f.localList.flatMap VarDef.lower) ++ l.code ++
        [.instr (.ret (.constant 0))]) :=
      ((Sealed.instrs _).append hbody.closed).append (.instr .nil)
    cases before with
    | nil =>
      cases hsplit
      exact absurd rfl hne
    | cons first before =>
      obtain ⟨_, hrest⟩ := List.cons.inj hsplit
      obtain ⟨i, hlast, hi⟩ := hclosed.getLast?_before hrest
      exact ⟨i, by simp [List.getLast?_cons, hlast], hi⟩
  · intro label hlabel
    simp only [hlabels, htargets] at hlabel ⊢
    have hmem : label ∈ labels l.code := (hbody.targets_iff label).1 hlabel
    refine ⟨List.count_eq_one_of_mem htexts ?_, ?_⟩
    · exact List.mem_map_of_mem (List.mem_cons_of_mem _ hmem)
    · intro htext
      rw [List.map_cons, List.nodup_cons] at htexts
      exact htexts.1 (htext ▸ List.mem_map_of_mem hmem)
  · intro label hlabel hne
    simp only [hlabels, htargets] at hlabel ⊢
    rcases List.mem_cons.1 hlabel with hentry | hmem
    · exact absurd hentry hne
    · exact (hbody.targets_iff label).2 hmem

/-! ## Modules -/

/-- The numbers of all labels of some functions but the entries, in the order of the lines. -/
def labelNumbers (functions : List IR.Function) : List Nat :=
  ((functions.flatMap fun g => labels g.lines).filter fun l => l ≠ .entry).map IR.Label.number

/-- A function takes three labels for each branch and each loop of its body. -/
lemma FunctionDecl.labelNumbers_of_lower {f : FunctionDecl} {finalReturn : Bool} {c c' : Counters}
    {g : IR.Function} (h : f.lower finalReturn c = .ok (g, c')) :
    c'.labels = c.labels + 3 * Stmt.decisionsAll f.body ∧
      (labelNumbers [g]).Perm (List.range' (c.labels + 1) (3 * Stmt.decisionsAll f.body)) := by
  obtain ⟨l, hl, rfl, rfl⟩ := FunctionDecl.lower_inv h
  have hbranches := Stmt.branches_lowerAll (fun s _ => s.branches_lower) c l hl
  have hall : (labels l.code).filter (fun label => label ≠ .entry) = labels l.code := by
    rw [List.filter_eq_self]
    intro label hlabel
    have hne : label ≠ .entry := fun heq => hbranches.branching.entry_notMem (heq ▸ hlabel)
    simpa using hne
  refine ⟨hbranches.count, ?_⟩
  rw [labelNumbers, List.flatMap_singleton, labels_functionLines, List.filter_cons_of_neg (by simp),
    hall]
  exact hbranches.branching.numbers

lemma LowersTo.labelNumbers_perm {units : List (FunctionDecl × Bool)} {c c' : Counters}
    {list : List IR.Function} (h : LowersTo units c list c') :
    (labelNumbers list).Perm (List.range' (c.labels + 1)
      (3 * Stmt.decisionsAll (units.flatMap fun unit => unit.1.body))) := by
  induction h with
  | nil => exact .nil
  | @cons f finalReturn units c c₁ c₂ g list hf _ ih =>
    obtain ⟨hcount, hfirst⟩ := FunctionDecl.labelNumbers_of_lower hf
    have hsplit : labelNumbers (g :: list) = labelNumbers [g] ++ labelNumbers list := by
      simp [labelNumbers]
    have hstart : c₁.labels + 1 = c.labels + 1 + 3 * Stmt.decisionsAll f.body := by omega
    rw [hsplit, List.flatMap_cons, Stmt.decisionsAll_append, Nat.mul_add, ← List.range'_append_1,
      ← hstart]
    exact hfirst.append ih

lemma Program.decisionsAll_units (p : Program) (finalReturn : Bool) :
    Stmt.decisionsAll ((p.units finalReturn).flatMap fun unit => unit.1.body) = p.decisions := by
  rw [Program.units, List.flatMap_append, List.flatMap_map, List.flatMap_singleton,
    Stmt.decisionsAll_append]
  rfl

/-- **The control flow of a module is well formed.**  If a module can be generated from a tree, with
a final return in every function, then the result is the text of a module whose functions are made
of blocks: the entry label is the first line and no jump leads there, the line before every other
label and the last line end a block, every jump leads to a label that the function has exactly once,
and every label but the entry is reached by some jump.  The labels of the whole module are numbered
from one, each number once, with three numbers for each branch and each loop of the program. -/
theorem Program.generate_controlFlow {p : Program} {style : PointerStyle} {text : String}
    (h : (p.generate { pointers := style, finalReturn := true }).result = .ok text) :
    ∃ m counters, (p.lower true).result = .ok (m, counters) ∧ m.HasText style text ∧
      (∀ g ∈ m.functions, g.WellBlocked) ∧
      (labelNumbers m.functions).Perm (List.range' 1 (3 * p.decisions)) := by
  obtain ⟨m, counters, hlower, htext⟩ := Program.exists_of_generate h
  have hunits := Program.lowersTo hlower
  refine ⟨m, counters, hlower, IR.Module.hasText_iff.2 htext, ?_, ?_⟩
  · intro g hg
    obtain ⟨f, finalReturn, c, c', hmem, hf⟩ := hunits.exists_of_mem hg
    have hfinal : finalReturn = true := by
      rcases List.mem_append.1 hmem with hmem | hmem
      · obtain ⟨_, _, heq⟩ := List.mem_map.1 hmem
        cases heq
        rfl
      · cases List.mem_singleton.1 hmem
        rfl
    subst hfinal
    exact FunctionDecl.wellBlocked_of_lower hf
  · rw [← p.decisionsAll_units true]
    exact hunits.labelNumbers_perm

/-- A loop that returns from inside a branch.  Its variable is not declared, so that analysis would
not accept it. -/
def undeclaredLoop : Program where
  declarations := none
  body :=
    [.loop (.compare .less (.var "x" (some (.var "x" .int)) (some .int)) (.integer 3 (some .int))
        (some .bool))
      [.branch (.compare .equal (.var "x" (some (.var "x" .int)) (some .int))
          (.integer 1 (some .int)) (some .bool))
        [.ret (.integer 1 (some .int)), .print (.integer 2 (some .int))] none]]

/-- The loop and the branch inside it take six labels. -/
theorem generate_controlFlow_undeclaredLoop :
    ∃ text m counters,
      (undeclaredLoop.generate { pointers := .untyped, finalReturn := true }).result = .ok text ∧
      (undeclaredLoop.lower true).result = .ok (m, counters) ∧ IR.Module.HasText .untyped m text ∧
      (∀ g ∈ m.functions, g.WellBlocked) ∧
      (labelNumbers m.functions).Perm [1, 2, 3, 4, 5, 6] := by
  have hgenerates : (undeclaredLoop.generate { pointers := .untyped
                                               finalReturn := true }).result.toOption.isSome := by
    decide +kernel
  obtain ⟨text, hsome⟩ := Option.isSome_iff_exists.1 hgenerates
  have htext := eq_ok_of_toOption_eq_some hsome
  obtain ⟨m, counters, hlower, hmodule, hblocks, hnumbers⟩ := Program.generate_controlFlow htext
  exact ⟨text, m, counters, htext, hlower, hmodule, hblocks, hnumbers⟩

end DLang
