import DLang.Analysis.Program
import Mathlib.Tactic.Common

/-!
# Scopes around a visit

What a visit does to the scopes that were open before it.  An analyser may have been used before and
hold any stack of scopes with any contents; a visit works on top of them.

`Reached start n a` says that the analyser `a` is reached from `start` by steps that respect those
scopes: `n` counts the scopes opened since, and a scope is left or gets a symbol only if it is one
of these.  Every visit is made of such steps, so it never touches the scopes below, and it never
adds a symbol while no scope is open.  A visit that accepts leaves all scopes it opened.  A visit
that rejects stays in the scope where the error arose: that of the program, or that of a function on
top of it (`visit_scopes`).
-/

namespace DLang

namespace Analyzer

/-! ## Steps on top of the open scopes -/

/-- Analysers that are reached from `start` with `n` scopes opened on top of its own. -/
inductive Reached (start : Analyzer) : Nat → Analyzer → Prop
  | start : Reached start 0 start
  | enter {n : Nat} {a : Analyzer} : Reached start n a → Reached start (n + 1) a.enter
  | leave {n : Nat} {a : Analyzer} : Reached start (n + 1) a → Reached start n a.leave
  | add {n : Nat} {a : Analyzer} {symbol : Symbol} :
      Reached start (n + 1) a → Reached start (n + 1) (a.add symbol)
  | note {n : Nat} {a : Analyzer} {event : Event} :
      (∀ symbol depth, event ≠ .addedSymbol symbol depth) → Reached start n a →
      Reached start n (a.note event)

variable {start a : Analyzer} {n : Nat}

/-- The scopes of the start stay as they are, below those opened since. -/
lemma Reached.exists_scopes (h : Reached start n a) :
    ∃ opened, a.table.scopes = opened ++ start.table.scopes ∧ opened.length = n := by
  induction h with
  | start => exact ⟨[], rfl, rfl⟩
  | @enter n a _ ih =>
    obtain ⟨opened, hscopes, hlength⟩ := ih
    refine ⟨[] :: opened, ?_, by simp [hlength]⟩
    show [] :: a.table.scopes = _
    rw [hscopes, List.cons_append]
  | @leave n a _ ih =>
    obtain ⟨opened, hscopes, hlength⟩ := ih
    obtain ⟨scope, opened, rfl⟩ := List.exists_cons_of_length_eq_add_one hlength
    refine ⟨opened, ?_, Nat.succ.inj hlength⟩
    show a.table.scopes.tail = _
    rw [hscopes, List.cons_append, List.tail_cons]
  | @add n a symbol _ ih =>
    obtain ⟨opened, hscopes, hlength⟩ := ih
    obtain ⟨scope, opened, rfl⟩ := List.exists_cons_of_length_eq_add_one hlength
    refine ⟨(symbol :: scope) :: opened, ?_, hlength⟩
    show ((a.table.add? symbol).getD a.table).scopes = _
    rw [SymbolTable.add?, hscopes]
    rfl
  | note _ _ ih => exact ih

/-- A symbol that was added since the start was added while a scope was open. -/
lemma Reached.exists_events (h : Reached start n a) :
    ∃ events, a.journal = start.journal ++ events ∧
      ∀ symbol depth, .addedSymbol symbol depth ∈ events → 0 < depth := by
  -- Each step appends one event, and only that of `add` needs an argument.
  have hstep : ∀ {a : Analyzer} {event : Event},
      (∃ events, a.journal = start.journal ++ events ∧
        ∀ symbol depth, .addedSymbol symbol depth ∈ events → 0 < depth) →
      (∀ symbol depth, event = .addedSymbol symbol depth → 0 < depth) →
      ∃ events, a.journal ++ [event] = start.journal ++ events ∧
        ∀ symbol depth, .addedSymbol symbol depth ∈ events → 0 < depth := by
    rintro a event ⟨events, hjournal, hevents⟩ hevent
    refine ⟨events ++ [event], by rw [hjournal, List.append_assoc], ?_⟩
    intro symbol depth hmem
    rcases List.mem_append.1 hmem with hold | hnew
    · exact hevents symbol depth hold
    · exact hevent symbol depth (List.mem_singleton.1 hnew).symm
  induction h with
  | start => exact ⟨[], by simp, by simp⟩
  | enter _ ih => exact hstep ih (by simp)
  | leave _ ih => exact hstep ih (by simp)
  | @add n a symbol hreached ih =>
    refine hstep ih ?_
    rintro _ depth heq
    obtain ⟨opened, hscopes, hlength⟩ := hreached.exists_scopes
    obtain ⟨_, rfl⟩ := Event.addedSymbol.inj heq
    rw [SymbolTable.depth, hscopes, List.length_append]
    omega
  | note hevent _ ih => exact hstep ih fun symbol depth heq => absurd heq (hevent symbol depth)

lemma Reached.table_eq (h : Reached start 0 a) : a.table = start.table := by
  obtain ⟨opened, hscopes, hlength⟩ := h.exists_scopes
  rw [List.length_eq_zero_iff.1 hlength, List.nil_append] at hscopes
  exact congrArg SymbolTable.mk hscopes

/-! ## Visits of declarations -/

lemma Reached.declareAll (h : Reached start (n + 1) a) (symbols : List Symbol) :
    Reached start (n + 1) (a.declareAll symbols).analyzer := by
  induction symbols generalizing a with
  | nil => exact h
  | cons symbol rest ih =>
    rw [Analyzer.declareAll, declare]
    by_cases hdeclared : a.table.declaresLocally symbol.name = true
    · rw [if_pos hdeclared]
      exact h
    · rw [if_neg hdeclared]
      exact ih h.add

lemma Reached.visitInside (h : Reached start (n + 1) a) (f : FunctionDecl) :
    Reached start (n + 1) (a.visitInside f).analyzer := by
  rw [Analyzer.visitInside]
  cases hdeclared : (a.declareAll f.innerSymbols).verdict with
  | error error => exact h.declareAll f.innerSymbols
  | ok _ => exact h.declareAll f.innerSymbols

end Analyzer

/-- A function without what is checked in its own scope. -/
def FunctionDecl.header (f : FunctionDecl) : FunctionDecl :=
  { name := f.name, params := none, locals := none, body := [] }

/-- A declaration without what is checked in a scope of its own. -/
def Decl.header : Decl → Decl
  | .vars group => .vars group
  | .function f => .function f.header

namespace Analyzer

variable {start a : Analyzer} {n : Nat}

/-- A name that no function can be declared with: a reserved one, or one that the innermost scope
declares. -/
def Refuses (a : Analyzer) (name : String) : Prop :=
  name ∈ reservedNames ∨ a.table.declaresLocally name = true

/-- A function whose name is refused is not visited any further. -/
lemma visitFunction_of_refuses {f : FunctionDecl} (h : a.Refuses f.name) :
    a.visitFunction f = ⟨f, .error (.redeclared f.name), a⟩ := by
  rw [visitFunction]
  by_cases hreserved : f.name ∈ reservedNames
  · rw [if_pos hreserved]
  · have hdeclared : a.table.declaresLocally f.symbol.name = true := h.resolve_left hreserved
    rw [if_neg hreserved, declare, if_pos hdeclared]
    rfl

/-- A function with another name is declared, and its inside is visited in a scope of its own.  If
the inside is rejected, the visit ends there. -/
lemma visitFunction_of_inside_error {f : FunctionDecl} {e : SemanticError}
    (h : ¬ a.Refuses f.name)
    (hinside : ((a.add f.symbol).enter.visitInside f).verdict = .error e) :
    a.visitFunction f = ⟨((a.add f.symbol).enter.visitInside f).tree, .error e,
      ((a.add f.symbol).enter.visitInside f).analyzer⟩ := by
  have hreserved : f.name ∉ reservedNames := fun hmem => h (.inl hmem)
  have hdeclared : ¬ a.table.declaresLocally f.symbol.name = true := fun hmem => h (.inr hmem)
  rw [visitFunction, if_neg hreserved, declare, if_neg hdeclared]
  simp only [hinside]

/-- If the inside is accepted, its scope is left. -/
lemma visitFunction_of_inside_ok {f : FunctionDecl} (h : ¬ a.Refuses f.name)
    (hinside : ((a.add f.symbol).enter.visitInside f).verdict = .ok ()) :
    a.visitFunction f = ⟨((a.add f.symbol).enter.visitInside f).tree, .ok (),
      ((a.add f.symbol).enter.visitInside f).analyzer.leave.note
        (.analyzedFunction f.name f.paramList.length)⟩ := by
  have hreserved : f.name ∉ reservedNames := fun hmem => h (.inl hmem)
  have hdeclared : ¬ a.table.declaresLocally f.symbol.name = true := fun hmem => h (.inr hmem)
  rw [visitFunction, if_neg hreserved, declare, if_neg hdeclared]
  simp only [hinside]

lemma visitFunction_header_of_not_refuses {f : FunctionDecl} (h : ¬ a.Refuses f.name) :
    (a.visitFunction f.header).verdict = .ok () := by
  have hheader : ¬ a.Refuses f.header.name := h
  rw [visitFunction_of_inside_ok hheader rfl]

/-- A declaration that is accepted leaves the scopes it opened. -/
lemma Reached.visitDecl_of_ok {d : Decl} (h : Reached start (n + 1) a)
    (hok : (a.visitDecl d).verdict = .ok ()) : Reached start (n + 1) (a.visitDecl d).analyzer := by
  cases d with
  | vars group => exact h.declareAll _
  | function f =>
    have hverdict : (a.visitFunction f).verdict = .ok () := hok
    show Reached start (n + 1) (a.visitFunction f).analyzer
    by_cases hrefuses : a.Refuses f.name
    · rw [visitFunction_of_refuses hrefuses] at hverdict
      cases hverdict
    · cases hinside : ((a.add f.symbol).enter.visitInside f).verdict with
      | error error =>
        rw [visitFunction_of_inside_error hrefuses hinside] at hverdict
        cases hverdict
      | ok _ =>
        rw [visitFunction_of_inside_ok hrefuses hinside]
        exact .note (by simp) (h.add.enter.visitInside f).leave

/-- A declaration whose header is rejected is rejected with the same error. -/
lemma visitDecl_of_header_error {d : Decl} {e : SemanticError}
    (he : (a.visitDecl d.header).verdict = .error e) : (a.visitDecl d).verdict = .error e := by
  cases d with
  | vars group => exact he
  | function f =>
    have hheader : (a.visitFunction f.header).verdict = .error e := he
    by_cases hrefuses : a.Refuses f.name
    · have hrefuses' : a.Refuses f.header.name := hrefuses
      rw [visitFunction_of_refuses hrefuses'] at hheader
      rw [visitDecl, visitFunction_of_refuses hrefuses]
      exact hheader
    · rw [visitFunction_header_of_not_refuses hrefuses] at hheader
      cases hheader

/-- It is rejected in the scope around it. -/
lemma Reached.visitDecl_of_header_error {d : Decl} {e : SemanticError}
    (h : Reached start (n + 1) a) (he : (a.visitDecl d.header).verdict = .error e) :
    Reached start (n + 1) (a.visitDecl d).analyzer := by
  cases d with
  | vars group => exact h.declareAll _
  | function f =>
    have hheader : (a.visitFunction f.header).verdict = .error e := he
    by_cases hrefuses : a.Refuses f.name
    · rw [visitDecl, visitFunction_of_refuses hrefuses]
      exact h
    · rw [visitFunction_header_of_not_refuses hrefuses] at hheader
      cases hheader

/-- A declaration that is rejected although its header is accepted is a function. -/
lemma exists_function_of_header_ok {d : Decl} {e : SemanticError}
    (hok : (a.visitDecl d.header).verdict = .ok ()) (he : (a.visitDecl d).verdict = .error e) :
    ∃ f, d = .function f := by
  cases d with
  | vars group =>
    have hverdict := hok.symm.trans he
    cases hverdict
  | function f => exact ⟨f, rfl⟩

/-- The function is rejected in its own scope. -/
lemma Reached.visitFunction_of_header_ok {f : FunctionDecl} {e : SemanticError}
    (h : Reached start (n + 1) a) (hok : (a.visitFunction f.header).verdict = .ok ())
    (he : (a.visitFunction f).verdict = .error e) :
    Reached start (n + 2) (a.visitFunction f).analyzer := by
  by_cases hrefuses : a.Refuses f.name
  · have hrefuses' : a.Refuses f.header.name := hrefuses
    rw [visitFunction_of_refuses hrefuses'] at hok
    cases hok
  · cases hinside : ((a.add f.symbol).enter.visitInside f).verdict with
    | error error =>
      rw [visitFunction_of_inside_error hrefuses hinside]
      exact h.add.enter.visitInside f
    | ok _ =>
      rw [visitFunction_of_inside_ok hrefuses hinside] at he
      cases he

/-! ## Visits of lists of declarations -/

/-- After declarations that are accepted the visit goes on with the others. -/
lemma visitDecls_append {before : List Decl} (h : (a.visitDecls before).verdict = .ok ())
    (rest : List Decl) :
    (a.visitDecls (before ++ rest)).verdict =
        ((a.visitDecls before).analyzer.visitDecls rest).verdict ∧
      (a.visitDecls (before ++ rest)).analyzer =
        ((a.visitDecls before).analyzer.visitDecls rest).analyzer := by
  induction before generalizing a with
  | nil => exact ⟨rfl, rfl⟩
  | cons d before ih =>
    rw [List.cons_append, visitDecls, visitDecls]
    rw [visitDecls] at h
    cases hd : (a.visitDecl d).verdict with
    | error error =>
      simp only [hd] at h
      cases h
    | ok _ =>
      simp only [hd] at h ⊢
      exact ih h

/-- The visit ends at the first declaration that is rejected. -/
lemma visitDecls_cons_of_error {d : Decl} {e : SemanticError}
    (h : (a.visitDecl d).verdict = .error e) (rest : List Decl) :
    (a.visitDecls (d :: rest)).verdict = .error e ∧
      (a.visitDecls (d :: rest)).analyzer = (a.visitDecl d).analyzer := by
  rw [visitDecls]
  simp only [h]
  exact ⟨trivial, trivial⟩

lemma visitDecls_singleton (d : Decl) :
    (a.visitDecls [d]).verdict = (a.visitDecl d).verdict := by
  rw [visitDecls]
  cases hd : (a.visitDecl d).verdict with
  | error error => rfl
  | ok _ => rfl

lemma Reached.visitDecls_of_ok {list : List Decl} (h : Reached start (n + 1) a)
    (hok : (a.visitDecls list).verdict = .ok ()) :
    Reached start (n + 1) (a.visitDecls list).analyzer := by
  induction list generalizing a with
  | nil => exact h
  | cons d rest ih =>
    rw [visitDecls] at hok ⊢
    cases hd : (a.visitDecl d).verdict with
    | error error =>
      simp only [hd] at hok
      cases hok
    | ok _ =>
      simp only [hd] at hok ⊢
      exact ih (h.visitDecl_of_ok hd) hok

/-- A list of declarations is rejected for the first of them that is. -/
lemma exists_of_visitDecls_error {list : List Decl} {e : SemanticError}
    (h : (a.visitDecls list).verdict = .error e) :
    ∃ before d after, list = before ++ d :: after ∧ (a.visitDecls before).verdict = .ok () ∧
      ((a.visitDecls before).analyzer.visitDecl d).verdict = .error e := by
  induction list generalizing a with
  | nil => cases h
  | cons d rest ih =>
    cases hd : (a.visitDecl d).verdict with
    | error error =>
      refine ⟨[], d, rest, rfl, rfl, ?_⟩
      rw [(visitDecls_cons_of_error hd rest).1] at h
      exact hd.trans h
    | ok _ =>
      rw [visitDecls] at h
      simp only [hd] at h
      obtain ⟨before, d', after, rfl, hbefore, herror⟩ := ih h
      refine ⟨d :: before, d', after, rfl, ?_, ?_⟩
      · rw [visitDecls]
        simp only [hd]
        exact hbefore
      · rw [visitDecls]
        simp only [hd]
        exact herror

end Analyzer

/-! ## Visits of programs -/

/-- Declarations alone, as a program. -/
def Program.declaring (list : List Decl) : Program :=
  { declarations := some list, body := [] }

namespace Analyzer

variable {start a : Analyzer} {n : Nat} {p : Program} {e : SemanticError}

/-- The program is rejected outside the functions' own scopes: a variable is declared twice, a
function has a name that is refused, or the error is in the program's own body.  This can be told
from visits of the program's declarations up to some point. -/
inductive FailsOutside (a : Analyzer) (p : Program) (e : SemanticError) : Prop
  | declaration {before after : List Decl} {d : Decl} :
      p.declarationList = before ++ d :: after →
      (a.visit (.declaring before)).verdict = .ok () →
      (a.visit (.declaring (before ++ [d.header]))).verdict = .error e → FailsOutside a p e
  | body :
      (a.visit (.declaring p.declarationList)).verdict = .ok () → (a.visit p).verdict = .error e →
      FailsOutside a p e

/-- The program is rejected in the scope of a function, for its parameters, its local variables or
its body: without these the function is accepted after the declarations before it, and with them it
is not. -/
inductive FailsInside (a : Analyzer) (p : Program) (e : SemanticError) : Prop
  | function {before after : List Decl} {f : FunctionDecl} :
      p.declarationList = before ++ .function f :: after →
      (a.visit (.declaring (before ++ [.function f.header]))).verdict = .ok () →
      (a.visit (.declaring (before ++ [.function f]))).verdict = .error e → FailsInside a p e

lemma visit_declaring (list : List Decl) :
    (a.visit (.declaring list)).verdict = (a.enter.visitDecls list).verdict := by
  rw [visit]
  simp only [Program.declaring, Program.declarationList, Option.getD_some]
  cases (a.enter.visitDecls list).verdict with
  | error error => rfl
  | ok _ => rfl

/-- A program whose declarations are rejected is rejected where they are. -/
lemma visit_of_visitDecls_error (h : (a.enter.visitDecls p.declarationList).verdict = .error e) :
    (a.visit p).verdict = .error e ∧
      (a.visit p).analyzer = (a.enter.visitDecls p.declarationList).analyzer := by
  rw [visit]
  simp only [h]
  exact ⟨trivial, trivial⟩

/-- A program whose declarations are accepted is accepted or rejected for its body. -/
lemma visit_of_visitDecls_ok (h : (a.enter.visitDecls p.declarationList).verdict = .ok ()) :
    (a.visit p).verdict =
        (Stmt.checkAll (a.enter.visitDecls p.declarationList).analyzer.table p.body).verdict ∧
      (∀ e, (a.visit p).verdict = .error e →
        (a.visit p).analyzer = (a.enter.visitDecls p.declarationList).analyzer) ∧
      ((a.visit p).verdict = .ok () →
        (a.visit p).analyzer =
          (a.enter.visitDecls p.declarationList).analyzer.leave.note .analyzed) := by
  rw [visit]
  simp only [h]
  cases (Stmt.checkAll (a.enter.visitDecls p.declarationList).analyzer.table p.body).verdict with
  | error error => exact ⟨rfl, fun _ _ => rfl, nofun⟩
  | ok _ => exact ⟨rfl, nofun, fun _ => rfl⟩

lemma reached_enter : Reached a 1 a.enter :=
  .enter .start

lemma reached_visit_of_ok (h : (a.visit p).verdict = .ok ()) :
    Reached a 0 (a.visit p).analyzer := by
  cases hdecls : (a.enter.visitDecls p.declarationList).verdict with
  | error error =>
    rw [(visit_of_visitDecls_error hdecls).1] at h
    cases h
  | ok _ =>
    rw [(visit_of_visitDecls_ok hdecls).2.2 h]
    exact .note (by simp) (reached_enter.visitDecls_of_ok hdecls).leave

/-- The visit of a program after its declarations up to one that is rejected. -/
lemma visit_of_visitDecl_error {before after : List Decl} {d : Decl}
    (hp : p.declarationList = before ++ d :: after)
    (hbefore : (a.enter.visitDecls before).verdict = .ok ())
    (hd : ((a.enter.visitDecls before).analyzer.visitDecl d).verdict = .error e) :
    (a.visit p).verdict = .error e ∧
      (a.visit p).analyzer = ((a.enter.visitDecls before).analyzer.visitDecl d).analyzer := by
  obtain ⟨hverdict, hanalyzer⟩ := visitDecls_append hbefore (d :: after)
  obtain ⟨herror, hstop⟩ := visitDecls_cons_of_error hd after
  rw [← hp] at hverdict hanalyzer
  obtain ⟨hvisit, hvisited⟩ := visit_of_visitDecls_error (hverdict.trans herror)
  exact ⟨hvisit, hvisited.trans (hanalyzer.trans hstop)⟩

/-- Declarations and one more are judged as the one more is after the others. -/
lemma visit_declaring_append {before : List Decl}
    (hbefore : (a.enter.visitDecls before).verdict = .ok ()) (d : Decl) :
    (a.visit (.declaring (before ++ [d]))).verdict =
      ((a.enter.visitDecls before).analyzer.visitDecl d).verdict := by
  rw [visit_declaring, (visitDecls_append hbefore [d]).1, visitDecls_singleton]

/-- Declarations are accepted if they are together with one more. -/
lemma visitDecls_ok_of_append {before : List Decl} {d : Decl}
    (h : (a.visitDecls (before ++ [d])).verdict = .ok ()) :
    (a.visitDecls before).verdict = .ok () := by
  cases hbefore : (a.visitDecls before).verdict with
  | ok _ => rfl
  | error error =>
    obtain ⟨before, d', after, rfl, hok, herror⟩ := exists_of_visitDecls_error hbefore
    rw [List.append_assoc, List.cons_append, (visitDecls_append hok _).1,
      (visitDecls_cons_of_error herror _).1] at h
    cases h

lemma FailsOutside.reached (h : a.FailsOutside p e) : Reached a 1 (a.visit p).analyzer := by
  cases h with
  | @declaration before after d hp hbefore hd =>
    rw [visit_declaring] at hbefore
    rw [visit_declaring_append hbefore] at hd
    rw [(visit_of_visitDecl_error hp hbefore (visitDecl_of_header_error hd)).2]
    exact (reached_enter.visitDecls_of_ok hbefore).visitDecl_of_header_error hd
  | body hdecls hvisit =>
    rw [visit_declaring] at hdecls
    rw [(visit_of_visitDecls_ok hdecls).2.1 e hvisit]
    exact reached_enter.visitDecls_of_ok hdecls

lemma FailsInside.reached (h : a.FailsInside p e) : Reached a 2 (a.visit p).analyzer := by
  obtain ⟨hp, hheader, hfunction⟩ := h
  rename_i before after f
  have hbefore : (a.enter.visitDecls before).verdict = .ok () := by
    rw [visit_declaring] at hheader
    exact visitDecls_ok_of_append hheader
  rw [visit_declaring_append hbefore] at hheader hfunction
  rw [(visit_of_visitDecl_error hp hbefore hfunction).2]
  exact (reached_enter.visitDecls_of_ok hbefore).visitFunction_of_header_ok hheader hfunction

/-- A visit that rejects does so outside all functions' own scopes or in one of them. -/
lemma failsOutside_or_failsInside (h : (a.visit p).verdict = .error e) :
    a.FailsOutside p e ∨ a.FailsInside p e := by
  cases hdecls : (a.enter.visitDecls p.declarationList).verdict with
  | ok _ => exact .inl (.body ((visit_declaring _).trans hdecls) h)
  | error error =>
    obtain rfl : error = e :=
      Except.error.inj ((visit_of_visitDecls_error hdecls).1.symm.trans h)
    obtain ⟨before, d, after, hp, hbefore, hd⟩ := exists_of_visitDecls_error hdecls
    -- The header of the declaration tells in which scope the error arose.
    cases hheader : ((a.enter.visitDecls before).analyzer.visitDecl d.header).verdict with
    | error error' =>
      obtain rfl : error' = error :=
        Except.error.inj ((visitDecl_of_header_error hheader).symm.trans hd)
      refine .inl (.declaration hp ((visit_declaring _).trans hbefore) ?_)
      rw [visit_declaring_append hbefore, hheader]
    | ok _ =>
      obtain ⟨f, rfl⟩ := exists_function_of_header_ok hheader hd
      refine .inr (.function hp ?_ ?_)
      · rw [visit_declaring_append hbefore]
        exact hheader
      · rw [visit_declaring_append hbefore, hd]

/-- Every visit of an analyser, whatever scopes are open, respects these scopes.  If it accepts, the
table afterwards is the table before.  If it rejects, the scopes from before are below exactly one
more, if the error arose outside the functions' own scopes, and below exactly two more, if it arose
in one of them.  No symbol is added while no scope is open. -/
theorem visit_scopes (a : Analyzer) (p : Program) :
    ((a.visit p).verdict = .ok () → (a.visit p).analyzer.table = a.table) ∧
    (∀ e, (a.visit p).verdict = .error e → a.FailsOutside p e ∨ a.FailsInside p e) ∧
    (∀ e, a.FailsOutside p e →
      ∃ scope, (a.visit p).analyzer.table.scopes = scope :: a.table.scopes) ∧
    (∀ e, a.FailsInside p e →
      ∃ own scope, (a.visit p).analyzer.table.scopes = own :: scope :: a.table.scopes) ∧
    ∃ events, (a.visit p).analyzer.journal = a.journal ++ events ∧
      ∀ symbol depth, .addedSymbol symbol depth ∈ events → 0 < depth := by
  refine ⟨fun h => (reached_visit_of_ok h).table_eq, fun e => failsOutside_or_failsInside, ?_, ?_,
    ?_⟩
  · intro e h
    obtain ⟨opened, hscopes, hlength⟩ := h.reached.exists_scopes
    match opened, hlength with
    | [scope], _ => exact ⟨scope, hscopes⟩
  · intro e h
    obtain ⟨opened, hscopes, hlength⟩ := h.reached.exists_scopes
    match opened, hlength with
    | [own, scope], _ => exact ⟨own, scope, hscopes⟩
  · cases hverdict : (a.visit p).verdict with
    | ok _ => exact (reached_visit_of_ok hverdict).exists_events
    | error e =>
      rcases failsOutside_or_failsInside hverdict with h | h
      · exact h.reached.exists_events
      · exact h.reached.exists_events

end Analyzer

end DLang
