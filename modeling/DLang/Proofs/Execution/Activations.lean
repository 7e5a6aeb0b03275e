import DLang.Proofs.Execution.Statements
import DLang.Proofs.Static.Places

/-!
# The code of functions

A function that is entered reserves a slot for each of its variables and sets the plain ones to
zero, so its frame represents the fresh activation of the reference semantics
(`steps_reserveAll`).  Its body follows, and a final return of zero; so the machine comes to a `ret`
instruction with the value of the body, whether the body returns or not (`simulates_runBody`).
-/

namespace DLang

open IR (Registers Slot State Steps)

/-! ## Fresh activations -/

section Entry

variable {params : List String} {args : List Int32} {locals : List VarDef} {name : String}

/-- Every parameter has an argument. -/
lemma exists_lookup_zip (hlength : params.length = args.length) (hname : name ∈ params) :
    ∃ v, ∀ {β : Type} (f : Int32 → β), List.lookup name (params.zip (args.map f)) = some (f v) := by
  induction params generalizing args with
  | nil => cases hname
  | cons param params ih =>
    cases args with
    | nil => cases hlength
    | cons arg args =>
      by_cases heq : name = param
      · subst heq
        refine ⟨arg, fun f => ?_⟩
        simp
      · have hname' : name ∈ params := (List.mem_cons.1 hname).resolve_left heq
        obtain ⟨v, hv⟩ := ih (Nat.succ.inj hlength) hname'
        refine ⟨v, fun f => ?_⟩
        rw [List.map_cons, List.zip_cons_cons, List.lookup_cons, beq_false_of_ne heq]
        exact hv f

lemma activation_param {v : Int32}
    (h : List.lookup name (params.zip (args.map Cell.scalar)) = some (.scalar v)) :
    activation params args locals name = some (.scalar v) := by
  rw [activation, List.lookup_append, h]
  rfl

/-- A variable that shares its name with no parameter and no other variable holds its first
content. -/
lemma activation_local {d : VarDef} (hdistinct : (params ++ locals.map VarDef.name).Nodup)
    (hd : d ∈ locals) : activation params args locals d.name = some d.cell := by
  obtain ⟨before, after, rfl⟩ := List.append_of_mem hd
  rw [activation, List.lookup_eq_some_iff]
  refine ⟨params.zip (args.map Cell.scalar) ++ before.map fun d => (d.name, d.cell),
    after.map fun d => (d.name, d.cell), by simp, ?_⟩
  rw [List.map_append, List.map_cons, ← List.append_assoc] at hdistinct
  have hnot : d.name ∉ params ++ before.map VarDef.name := fun hmem =>
    (List.nodup_append.1 hdistinct).2.2 d.name hmem d.name List.mem_cons_self rfl
  rintro ⟨name, cell⟩ hmem
  have hname : name ∈ params ++ before.map VarDef.name := by
    rcases List.mem_append.1 hmem with hmem | hmem
    · exact List.mem_append_left _ (List.of_mem_zip hmem).1
    · obtain ⟨other, hother, heq⟩ := List.mem_map.1 hmem
      cases heq
      exact List.mem_append_right _ (List.mem_map_of_mem hother)
  rw [bne_iff_ne]
  rintro rfl
  exact hnot hname

end Entry

namespace Represents

variable {own : Symbol → Prop} {cells : Cells} {registers : Registers} {slots : List Slot}

lemma mono {own' : Symbol → Prop} (h : Represents own cells registers slots)
    (hown : ∀ symbol, own' symbol → own symbol) : Represents own' cells registers slots :=
  ⟨fun hname => h.arg (hown _ hname), fun hname => h.var (hown _ hname),
    fun hname => h.array (hown _ hname), h.content, h.separate⟩

/-- A frame that was just entered represents the parameters. -/
lemma of_enter {f : IR.Function} {args : List Int32} {locals : List VarDef}
    (hlength : f.params.length = args.length) :
    Represents (fun symbol => symbol ∈ f.params.map fun param => .arg param .int)
      (activation f.params args locals) (f.enter args).registers [] := by
  have hnoPointer : ∀ {name k i}, (f.enter args).registers (.named name) ≠ some (.pointer k i) := by
    intro name k i h
    obtain ⟨before, after, hzip, _⟩ := List.lookup_eq_some_iff.1 h
    have hmem : (name, IR.Value.pointer k i) ∈ f.params.zip (args.map .int) := by
      rw [hzip]
      exact List.mem_append_right before List.mem_cons_self
    obtain ⟨_, _, heq⟩ := List.mem_map.1 (List.of_mem_zip hmem).2
    cases heq
  refine ⟨?_, ?_, ?_, fun h => absurd h hnoPointer, fun h => absurd h hnoPointer⟩
  · intro name hmem
    obtain ⟨param, hparam, heq⟩ := List.mem_map.1 hmem
    cases heq
    obtain ⟨v, hv⟩ := exists_lookup_zip hlength hparam
    exact ⟨v, activation_param (hv Cell.scalar), hv IR.Value.int⟩
  · intro name hmem
    obtain ⟨_, _, heq⟩ := List.mem_map.1 hmem
    cases heq
  · intro name size hmem
    obtain ⟨_, _, heq⟩ := List.mem_map.1 hmem
    cases heq

/-- One more variable: its register points to a new slot at the end. -/
lemma reserve {d : VarDef} (h : Represents own cells registers slots)
    (hfresh : ∀ symbol, own symbol → symbol.name ≠ d.name) (hcell : cells d.name = some d.cell) :
    Represents (fun symbol => own symbol ∨ symbol = d.symbol) cells
      (registers.set (.named d.name) (.pointer slots.length 0)) (slots ++ [d.cell.slot]) := by
  have hother : ∀ name, name ≠ d.name →
      registers.set (.named d.name) (.pointer slots.length 0) (.named name) =
        registers (.named name) := fun name hne => Registers.set_of_ne (by simpa using hne)
  have hlt : ∀ {name k i}, registers (.named name) = some (.pointer k i) → k < slots.length := by
    intro name k i hpointer
    obtain ⟨cell, _, hslot⟩ := h.content hpointer
    exact (List.getElem?_eq_some_iff.1 hslot).1
  refine ⟨?_, ?_, ?_, ?_, ?_⟩
  · rintro name (hown | heq)
    · rw [hother name (hfresh _ hown)]
      exact h.arg hown
    · cases d <;> cases heq
  · rintro name (hown | heq)
    · rw [hother name (hfresh _ hown)]
      exact h.var hown
    · cases d <;> cases heq
      exact ⟨0, slots.length, hcell, Registers.set_self _⟩
  · rintro name size (hown | heq)
    · rw [hother name (hfresh _ hown)]
      exact h.array hown
    · cases d <;> cases heq
      exact ⟨_, slots.length, hcell, Registers.set_self _⟩
  · intro name k i hpointer
    by_cases hname : name = d.name
    · subst hname
      rw [Registers.set_self] at hpointer
      cases hpointer
      exact ⟨d.cell, hcell, List.getElem?_concat_length⟩
    · rw [hother name hname] at hpointer
      rw [List.getElem?_append_left (hlt hpointer)]
      exact h.content hpointer
  · intro name name' k i i' hpointer hpointer'
    by_cases hname : name = d.name
    · subst hname
      by_cases hname' : name' = d.name
      · exact hname'
      · -- The new slot is above all slots that were there.
        rw [hother name' hname'] at hpointer'
        rw [Registers.set_self] at hpointer
        cases hpointer
        exact absurd (hlt hpointer') (Nat.lt_irrefl _)
    · rw [hother name hname] at hpointer
      by_cases hname' : name' = d.name
      · subst hname'
        rw [Registers.set_self] at hpointer'
        cases hpointer'
        exact absurd (hlt hpointer) (Nat.lt_irrefl _)
      · rw [hother name' hname'] at hpointer'
        exact h.separate hpointer hpointer'

end Represents

section Reserving

variable (m : IR.Module) (lines rest : List IR.Line) (callers : List (Nat × IR.Frame))
  (console : Console)

/-- The code of a definition reserves its slot, with its first content. -/
lemma steps_reserve (d : VarDef) (registers : Registers) (slots : List Slot) :
    ∃ n, Steps m n
      (.running ⟨lines, instrLines d.lower ++ rest, registers, slots⟩ callers console)
      (.running ⟨lines, rest, registers.set (.named d.name) (.pointer slots.length 0),
        slots ++ [d.cell.slot]⟩ callers console) := by
  cases d with
  | scalar name =>
    refine ⟨2, .head rfl (.single (IR.step_store rfl (Registers.set_self _) ?_))⟩
    simp [IR.storeAt?, Cell.slot, VarDef.cell]
  | array name size => exact ⟨1, .single rfl⟩

/-- The code of definitions reserves all slots, with their first contents. -/
lemma steps_reserveAll {cells : Cells} {defs : List VarDef}
    (hcells : ∀ d ∈ defs, cells d.name = some d.cell) (hdistinct : (defs.map VarDef.name).Nodup) :
    ∀ own registers slots, Represents own cells registers slots →
      (∀ symbol, own symbol → symbol.name ∉ defs.map VarDef.name) →
      ∃ n registers' slots', Steps m n
        (.running ⟨lines, instrLines (defs.flatMap VarDef.lower) ++ rest, registers, slots⟩ callers
          console)
        (.running ⟨lines, rest, registers', slots'⟩ callers console) ∧
        Represents (fun symbol => own symbol ∨ symbol ∈ defs.map VarDef.symbol) cells registers'
          slots' := by
  induction defs with
  | nil =>
    intro own registers slots hrep _
    exact ⟨0, registers, slots, .refl _, hrep.mono fun symbol h => h.resolve_right (by simp)⟩
  | cons d defs ih =>
    intro own registers slots hrep hfresh
    obtain ⟨hnot, hdistinct'⟩ := List.nodup_cons.1 hdistinct
    have hrep' := hrep.reserve (fun symbol hown heq => hfresh symbol hown (by simp [heq]))
      (hcells d List.mem_cons_self)
    obtain ⟨n, hsteps⟩ := steps_reserve m lines (instrLines (defs.flatMap VarDef.lower) ++ rest)
      callers console d registers slots
    obtain ⟨n', registers', slots', hsteps', hrep''⟩ :=
      ih (fun e he => hcells e (List.mem_cons_of_mem d he)) hdistinct' _ _ _ hrep' (by
        rintro symbol (hown | rfl) hmem
        · exact hfresh symbol hown (List.mem_cons_of_mem _ hmem)
        · rw [VarDef.name_symbol] at hmem
          exact hnot hmem)
    refine ⟨n + n', registers', slots', ?_, hrep''.mono ?_⟩
    · rw [List.flatMap_cons, instrLines_append]
      exact hsteps.trans hsteps'
    · rintro symbol (hown | hmem)
      · exact .inl (.inl hown)
      · rcases List.mem_cons.1 hmem with rfl | hmem
        · exact .inl (.inr rfl)
        · exact .inr hmem

end Reserving

/-! ## Bodies -/

section Bodies

variable {m : IR.Module} {bound : Nat} {Γ : Env} {calls : Calls}
  {callers : List (Nat × IR.Frame)} {console : Console} {args : List Int32}

/-- The first block of a lowered function, after its label. -/
lemma start_of_functionLines {f : IR.Function} {locals : List VarDef} {code : List IR.Line}
    (hlines : f.lines = functionLines locals code true) :
    f.start = instrLines (locals.flatMap VarDef.lower) ++
      (code ++ [.instr (.ret (.constant 0))]) := by
  rw [IR.Function.start, hlines]
  simp [functionLines]

/-- Before the code of a function's body there are no numbered labels. -/
lemma placed_functionLines (allowed : Nat → Prop) (locals : List VarDef) (code : List IR.Line) :
    Placed allowed (code ++ [.instr (.ret (.constant 0))]) (functionLines locals code true) := by
  refine ⟨.label .entry :: instrLines (locals.flatMap VarDef.lower), by simp [functionLines], ?_⟩
  intro mark number hmem
  obtain ⟨_, _, heq⟩ := List.mem_map.1 ((List.mem_cons.1 hmem).resolve_left (by simp))
  cases heq

/-- A function that was entered comes to a return with the value of its body. -/
theorem simulates_runBody (hcalls : CallsSimulated m bound Γ.callable calls) {f : IR.Function}
    {locals : List VarDef} {body : List Stmt} {c : Counters} {l : LoweredStmt}
    (hplain : ∀ s ∈ body, s.Plain) (hann : ∀ s ∈ body, s.Annotated Γ)
    (hown : ∀ symbol, Γ.own symbol →
      symbol ∈ f.params.map (fun param => .arg param .int) ++ locals.map VarDef.symbol)
    (hdistinct : (f.params ++ locals.map VarDef.name).Nodup)
    (hlength : f.params.length = args.length) (hl : Stmt.lowerAll body c = .ok l)
    (hlines : f.lines = functionLines locals l.code true) :
    Simulates m bound (.running (f.enter args) callers console)
      (runBody calls bound body (activation f.params args locals)) console
      (Returning f.lines callers) := by
  have hdisjoint := (List.nodup_append.1 hdistinct).2.2
  obtain ⟨n, registers, slots, hsteps, hrep⟩ :=
    steps_reserveAll m f.lines (l.code ++ [.instr (.ret (.constant 0))]) callers console
      (fun d hd => activation_local hdistinct hd) (List.nodup_append.1 hdistinct).2.1 _ _ _
      (Represents.of_enter hlength) (by
        intro symbol hmem hname
        obtain ⟨param, hparam, rfl⟩ := List.mem_map.1 hmem
        exact hdisjoint param hparam param hname rfl)
  rw [← start_of_functionLines hlines] at hsteps
  have hplaced : Placed (· ≤ c.labels) (l.code ++ [.instr (.ret (.constant 0))]) f.lines := by
    rw [hlines]
    exact placed_functionLines _ locals l.code
  have hbody : FlowSimulated m bound Γ f.lines callers (Stmt.execAll calls bound body)
      (Stmt.lowerAll body) :=
    Stmt.simulated_execAll fun s hs => (hplain s hs).simulated hcalls (hann s hs)
  have hrun := hbody c l hl _ hplaced _ registers slots console
    (hrep.mono fun symbol h => List.mem_append.1 (hown symbol h))
  refine Simulates.mono (Simulates.steps hsteps ?_) (Nat.le_add_left bound n)
  refine hrun.bind ?_
  intro flow console' s' harrives
  cases flow with
  | next cells =>
    obtain ⟨registers', slots', _, rfl⟩ := harrives
    exact .pure ⟨.constant 0, [], registers', slots', rfl, rfl⟩
  | returned v => exact .pure harrives

end Bodies

end DLang
