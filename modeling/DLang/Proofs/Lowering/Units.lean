import DLang.Proofs.Lowering.Shape

/-!
# The functions of a module

A program is lowered function by function, and its own body last, as a function `main` without
parameters (`Program.units`).  The counters are handed on from each function to the next
(`LowersTo`), so that a fact about the numbers of one function adds up to one about the module, and
the functions of the module stand in the order in which the program declares them.
-/

namespace DLang

lemma FunctionDecl.lower_inv {f : FunctionDecl} {finalReturn : Bool} {c c' : Counters}
    {g : IR.Function} (h : f.lower finalReturn c = .ok (g, c')) :
    ∃ l, Stmt.lowerAll f.body c = .ok l ∧ c' = l.counters ∧
      g = { name := f.name, params := f.paramList
            lines := functionLines f.localList l.code finalReturn } := by
  rw [FunctionDecl.lower] at h
  obtain ⟨l, hl, h⟩ := exists_of_bind_eq_ok h
  cases h
  exact ⟨l, hl, rfl, rfl⟩

lemma FunctionDecl.name_of_lower {f : FunctionDecl} {finalReturn : Bool} {c c' : Counters}
    {g : IR.Function} (h : f.lower finalReturn c = .ok (g, c')) : g.name = f.name := by
  obtain ⟨l, _, _, rfl⟩ := FunctionDecl.lower_inv h
  rfl

/-- The body of a program as a function: it has no parameters, and the variables of the program are
its local ones. -/
def Program.mainDecl (p : Program) : FunctionDecl where
  name := "main"
  params := none
  locals := some p.varDefs
  body := p.body

/-- What the functions of a module are lowered from, in order, and whether each gets a final
return. -/
def Program.units (finalReturn : Bool) (p : Program) : List (FunctionDecl × Bool) :=
  p.functions.map (fun f => (f, finalReturn)) ++ [(p.mainDecl, true)]

/-- Functions that are lowered one after another, each with the counters that the one before it
left. -/
inductive LowersTo : List (FunctionDecl × Bool) → Counters → List IR.Function → Counters → Prop
  | nil {c : Counters} : LowersTo [] c [] c
  | cons {f : FunctionDecl} {finalReturn : Bool} {units : List (FunctionDecl × Bool)}
      {c c₁ c₂ : Counters} {g : IR.Function} {list : List IR.Function} :
      f.lower finalReturn c = .ok (g, c₁) → LowersTo units c₁ list c₂ →
      LowersTo ((f, finalReturn) :: units) c (g :: list) c₂

namespace LowersTo

variable {units units' : List (FunctionDecl × Bool)} {c c₁ c₂ : Counters}
  {list list' : List IR.Function}

lemma append (h : LowersTo units c list c₁) (h' : LowersTo units' c₁ list' c₂) :
    LowersTo (units ++ units') c (list ++ list') c₂ := by
  induction h with
  | nil => exact h'
  | cons hf _ ih => exact .cons hf (ih h')

/-- Where a function of the module comes from, and what the functions before it come from. -/
lemma split {earlier later : List IR.Function} {g : IR.Function}
    (h : LowersTo units c (earlier ++ g :: later) c₂) :
    ∃ before f finalReturn after c₁ c₁', units = before ++ (f, finalReturn) :: after ∧
      LowersTo before c earlier c₁ ∧ f.lower finalReturn c₁ = .ok (g, c₁') := by
  induction earlier generalizing units c with
  | nil =>
    cases h with
    | @cons f finalReturn after _ c₁ _ _ _ hf _ =>
      exact ⟨[], f, finalReturn, after, c, c₁, rfl, .nil, hf⟩
  | cons first rest ih =>
    cases h with
    | @cons f₀ finalReturn₀ _ _ _ _ _ _ hfirst hrest =>
      obtain ⟨before, f, finalReturn, after, c₁, c₁', rfl, hbefore, hf⟩ := ih hrest
      exact ⟨(f₀, finalReturn₀) :: before, f, finalReturn, after, c₁, c₁', rfl,
        .cons hfirst hbefore, hf⟩

lemma exists_of_mem (h : LowersTo units c list c₂) {g : IR.Function} (hg : g ∈ list) :
    ∃ f finalReturn c₁ c₁', (f, finalReturn) ∈ units ∧ f.lower finalReturn c₁ = .ok (g, c₁') := by
  obtain ⟨earlier, later, rfl⟩ := List.append_of_mem hg
  obtain ⟨before, f, finalReturn, after, c₁, c₁', rfl, _, hf⟩ := h.split
  exact ⟨f, finalReturn, c₁, c₁', List.mem_append_right before List.mem_cons_self, hf⟩

/-- Lowering keeps names and parameters. -/
lemma map_signature (h : LowersTo units c list c₂) :
    list.map (fun g => (g.name, g.params)) =
      units.map (fun unit => (unit.1.name, unit.1.paramList)) := by
  induction h with
  | nil => rfl
  | cons hf _ ih =>
    obtain ⟨l, _, _, rfl⟩ := FunctionDecl.lower_inv hf
    rw [List.map_cons, List.map_cons, ih]

end LowersTo

/-- The result for a list of functions, without the log. -/
lemma result_lowerFunctions_cons (finalReturn : Bool) (f : FunctionDecl) (rest : List FunctionDecl)
    (c : Counters) :
    (lowerFunctions finalReturn (f :: rest) c).result =
      (f.lower finalReturn c >>= fun first =>
        (lowerFunctions finalReturn rest first.2).result >>= fun more =>
          .ok (first.1 :: more.1, more.2)) := by
  rw [lowerFunctions]
  simp only [Logged.result_bind]
  rfl

/-- The result for a program, without the log. -/
lemma Program.result_lower (p : Program) (finalReturn : Bool) :
    (p.lower finalReturn).result =
      ((lowerFunctions finalReturn p.functions { temporaries := 0, labels := 0 }).result >>=
        fun functions => p.mainDecl.lower true functions.2 >>= fun main =>
          .ok ({ functions := functions.1 ++ [main.1] }, main.2)) := by
  rw [Program.lower]
  simp only [Logged.result_bind]
  rfl

lemma lowersTo_of_lowerFunctions {finalReturn : Bool} {functions : List FunctionDecl} :
    ∀ {c c' : Counters} {list : List IR.Function},
      (lowerFunctions finalReturn functions c).result = .ok (list, c') →
      LowersTo (functions.map fun f => (f, finalReturn)) c list c' := by
  induction functions with
  | nil =>
    intro c c' list h
    cases h
    exact .nil
  | cons f rest ih =>
    intro c c' list h
    rw [result_lowerFunctions_cons] at h
    obtain ⟨⟨g, c₁⟩, hg, h⟩ := exists_of_bind_eq_ok h
    obtain ⟨⟨more, c₂⟩, hmore, h⟩ := exists_of_bind_eq_ok h
    cases h
    exact .cons hg (ih hmore)

lemma lowerFunctions_of_lowersTo {finalReturn : Bool} {functions : List FunctionDecl} :
    ∀ {c c' : Counters} {list : List IR.Function},
      LowersTo (functions.map fun f => (f, finalReturn)) c list c' →
      (lowerFunctions finalReturn functions c).result = .ok (list, c') := by
  induction functions with
  | nil =>
    intro c c' list h
    cases h
    rfl
  | cons f rest ih =>
    intro c c' list h
    cases h with
    | cons hf hrest =>
      rw [result_lowerFunctions_cons, hf]
      show (lowerFunctions finalReturn rest _).result >>= _ = _
      rw [ih hrest]
      rfl

/-- A module is made of the lowered functions, and of the lowered body at the end. -/
lemma Program.exists_entry_of_lower {p : Program} {finalReturn : Bool} {m : IR.Module}
    {counters : Counters} (h : (p.lower finalReturn).result = .ok (m, counters)) :
    ∃ list entry c, m.functions = list ++ [entry] ∧
      LowersTo (p.functions.map fun f => (f, finalReturn)) { temporaries := 0, labels := 0 } list
        c ∧
      p.mainDecl.lower true c = .ok (entry, counters) := by
  rw [Program.result_lower] at h
  obtain ⟨⟨list, c⟩, hlist, h⟩ := exists_of_bind_eq_ok h
  obtain ⟨⟨entry, c'⟩, hentry, h⟩ := exists_of_bind_eq_ok h
  cases h
  exact ⟨list, entry, c, rfl, lowersTo_of_lowerFunctions hlist, hentry⟩

/-- Nothing else is needed for a program to be lowered. -/
lemma Program.lower_of_lowersTo {p : Program} {finalReturn : Bool} {list : List IR.Function}
    {entry : IR.Function} {c counters : Counters}
    (hlist : LowersTo (p.functions.map fun f => (f, finalReturn))
      { temporaries := 0, labels := 0 } list c)
    (hentry : p.mainDecl.lower true c = .ok (entry, counters)) :
    (p.lower finalReturn).result = .ok ({ functions := list ++ [entry] }, counters) := by
  rw [Program.result_lower, lowerFunctions_of_lowersTo hlist]
  show p.mainDecl.lower true c >>= _ = _
  rw [hentry]
  rfl

/-- What a module is lowered from. -/
lemma Program.lowersTo {p : Program} {finalReturn : Bool} {m : IR.Module} {counters : Counters}
    (h : (p.lower finalReturn).result = .ok (m, counters)) :
    LowersTo (p.units finalReturn) { temporaries := 0, labels := 0 } m.functions counters := by
  obtain ⟨list, entry, c, hfunctions, hlist, hentry⟩ := Program.exists_entry_of_lower h
  rw [hfunctions]
  exact hlist.append (.cons hentry .nil)

end DLang
