import DLang.Proofs.Execution.Machine
import DLang.Proofs.Lowering.Shape

/-!
# Simulation

`Simulates` relates a computation of the reference semantics to a state of the machine, by how the
computation ends.  If it is done, the machine reaches a state that the result describes; if it is
undefined, the machine gets stuck; if it is unfinished, the machine takes at least `bound` steps.
Since the machine is deterministic, the three cases together tell from a run of the machine how the
computation ends.  `Simulates.bind` composes: it is the only place where a computation is taken
apart.

`Represents` is the relation of states: what each variable of an activation holds stands in the
machine's register or slot of that name.
-/

namespace DLang

open IR (Registers Slot State Steps Stuck step)

/-! ## Computations and runs of the machine -/

/-- How a computation, started with the console, shows in the machine, started in the state `s`. -/
def Simulates {α : Type} (m : IR.Module) (bound : Nat) (s : State) (x : Run α) (console : Console)
    (post : α → Console → State → Prop) : Prop :=
  match x console with
  | .done (a, console') => ∃ n s', Steps m n s s' ∧ post a console' s'
  | .undefined => ∃ n s', Steps m n s s' ∧ Stuck m s'
  | .unfinished => ∃ n s', bound ≤ n ∧ Steps m n s s'

namespace Simulates

variable {α β : Type} {m : IR.Module} {bound n : Nat} {s s' : State} {x : Run α}
  {console : Console} {post : α → Console → State → Prop}

/-- A simulated computation with steps before it, which add to the bound, and steps after it. -/
lemma extend {bound' : Nat} {post' : α → Console → State → Prop} (hsteps : Steps m n s s')
    (h : Simulates m bound s' x console post) (hle : bound' ≤ n + bound)
    (hpost : ∀ a console' s', post a console' s' →
      ∃ n s'', Steps m n s' s'' ∧ post' a console' s'') :
    Simulates m bound' s x console post' := by
  unfold Simulates at h ⊢
  cases hx : x console with
  | done result =>
    rw [hx] at h
    obtain ⟨k, mid, hrun, hmid⟩ := h
    obtain ⟨j, final, hrun', hfinal⟩ := hpost _ _ _ hmid
    exact ⟨n + (k + j), final, hsteps.trans (hrun.trans hrun'), hfinal⟩
  | undefined =>
    rw [hx] at h
    obtain ⟨k, final, hrun, hstuck⟩ := h
    exact ⟨n + k, final, hsteps.trans hrun, hstuck⟩
  | unfinished =>
    rw [hx] at h
    obtain ⟨k, final, hbound, hrun⟩ := h
    exact ⟨n + k, final, by omega, hsteps.trans hrun⟩

/-- Steps after a simulated computation. -/
lemma andThen {post' : α → Console → State → Prop} (h : Simulates m bound s x console post)
    (hpost : ∀ a console' s', post a console' s' →
      ∃ n s'', Steps m n s' s'' ∧ post' a console' s'') :
    Simulates m bound s x console post' :=
  extend (.refl s) h (Nat.le_add_left bound 0) hpost

lemma imp {post' : α → Console → State → Prop} (h : Simulates m bound s x console post)
    (hpost : ∀ a console' s', post a console' s' → post' a console' s') :
    Simulates m bound s x console post' :=
  h.andThen fun a console' s' ha => ⟨0, s', .refl s', hpost a console' s' ha⟩

/-- Steps before a simulated computation. -/
lemma steps (hsteps : Steps m n s s') (h : Simulates m bound s' x console post) :
    Simulates m (n + bound) s x console post :=
  extend hsteps h (Nat.le_refl _) fun _ _ final hfinal => ⟨0, final, .refl final, hfinal⟩

lemma mono {bound' : Nat} (h : Simulates m bound s x console post) (hle : bound' ≤ bound) :
    Simulates m bound' s x console post :=
  extend (.refl s) h (by omega) fun _ _ final hfinal => ⟨0, final, .refl final, hfinal⟩

/-- One step before a simulated computation. -/
lemma step (hstep : step m s = some s') (h : Simulates m bound s' x console post) :
    Simulates m bound s x console post :=
  (h.steps (.single hstep)).mono (Nat.le_add_left bound 1)

/-- A computation that is done at once. -/
lemma pure {a : α} (h : post a console s) : Simulates m bound s (pure a) console post :=
  ⟨0, s, .refl s, h⟩

/-- A computation is simulated if its parts are, one after the other. -/
lemma bind {f : α → Run β} {post' : β → Console → State → Prop}
    (h : Simulates m bound s x console post)
    (hf : ∀ a console' s', post a console' s' → Simulates m bound s' (f a) console' post') :
    Simulates m bound s (x >>= f) console post' := by
  have heq : (x >>= f) console = (x console).bind fun result => f result.1 result.2 := rfl
  unfold Simulates at h ⊢
  cases hx : x console with
  | done result =>
    rw [hx] at h heq
    obtain ⟨k, mid, hrun, hpost⟩ := h
    have hnext := ((hf _ _ _ hpost).steps hrun).mono (Nat.le_add_left bound k)
    rw [heq]
    exact hnext
  | undefined =>
    rw [hx] at h heq
    rw [heq]
    exact h
  | unfinished =>
    rw [hx] at h heq
    rw [heq]
    exact h

/-- A value that may be missing, computed by one step that the machine can take only if it is
there. -/
lemma ofOption {frame : IR.Frame} {callers : List (Nat × IR.Frame)} {console' : Console}
    {value : Option α}
    (hsome : ∀ a, value = some a →
      ∃ s', IR.step m (.running frame callers console') = some s' ∧ post a console s')
    (hnone : value = none → IR.step m (.running frame callers console') = none) :
    Simulates m bound (.running frame callers console') (Run.ofOption value) console post := by
  cases value with
  | some a =>
    obtain ⟨s', hstep, hpost⟩ := hsome a rfl
    exact .step hstep (.pure hpost)
  | none => exact ⟨0, _, .refl _, hnone rfl, fun _ _ h => nomatch h⟩

/-- The same, with a computation that goes on with the value. -/
lemma ofOption_bind {frame : IR.Frame} {callers : List (Nat × IR.Frame)} {console' : Console}
    {value : Option β} {f : β → Run α}
    (hsome : ∀ b, value = some b → ∃ s', IR.step m (.running frame callers console') = some s' ∧
      Simulates m bound s' (f b) console post)
    (hnone : value = none → IR.step m (.running frame callers console') = none) :
    Simulates m bound (.running frame callers console') (Run.ofOption value >>= f) console
      post := by
  cases value with
  | some b =>
    obtain ⟨s', hstep, h⟩ := hsome b rfl
    exact .step hstep h
  | none => exact ⟨0, _, .refl _, hnone rfl, fun _ _ h => nomatch h⟩

lemma print {v : Int32} {f : Unit → Run α} (hstep : IR.step m s = some s')
    (h : Simulates m bound s' (f ()) (console.print v) post) :
    Simulates m bound s (Run.print v >>= f) console post := by
  have hprinted : Simulates m bound s' (Run.print v >>= f) console post := h
  exact .step hstep hprinted

lemma read {f : Option Int32 → Run α} (hstep : IR.step m s = some s')
    (h : Simulates m bound s' (f (console.input 0)) console.next post) :
    Simulates m bound s (Run.read >>= f) console post := by
  have hread : Simulates m bound s' (Run.read >>= f) console post := h
  exact .step hstep hread

end Simulates

/-! ## Registers -/

namespace IR.Registers

variable {registers registers' registers'' : Registers} {t t' number : Nat} {value : Value}

lemma set_self (r : Register) : registers.set r value r = some value := by
  simp [set]

lemma set_of_ne {r r' : Register} (h : r' ≠ r) : registers.set r value r' = registers r' := by
  simp [set, h]

/-- The new registers differ from the old ones only in temporaries above `t`. -/
structure Extends (t : Nat) (registers registers' : Registers) : Prop where
  named : ∀ name, registers' (.named name) = registers (.named name)
  temporary : ∀ number ≤ t, registers' (.temporary number) = registers (.temporary number)

namespace Extends

lemma refl (t : Nat) (registers : Registers) : registers.Extends t registers :=
  ⟨fun _ => rfl, fun _ _ => rfl⟩

lemma trans (hle : t ≤ t') (h : registers.Extends t registers')
    (h' : registers'.Extends t' registers'') : registers.Extends t registers'' := by
  refine ⟨fun name => (h'.named name).trans (h.named name), ?_⟩
  intro number hnumber
  rw [h'.temporary number (by omega), h.temporary number hnumber]

/-- A new temporary. -/
lemma set (h : registers.Extends t registers') (hnumber : t < number) :
    registers.Extends t (registers'.set (.temporary number) value) := by
  refine ⟨?_, ?_⟩
  · intro name
    rw [set_of_ne (by simp), h.named]
  · intro k hk
    rw [set_of_ne (by simp; omega), h.temporary k hk]

/-- An operand keeps its value if it is no temporary that was changed. -/
lemma read {operand : Operand} (h : registers.Extends t registers') (hbelow : operand.Below t) :
    registers'.read operand = registers.read operand := by
  match operand, hbelow with
  | .constant _, _ => rfl
  | .register (.named name), _ => exact h.named name
  | .register (.temporary number), hnumber => exact h.temporary number hnumber

lemma int? {operand : Operand} (h : registers.Extends t registers') (hbelow : operand.Below t) :
    registers'.int? operand = registers.int? operand := by
  rw [Registers.int?, Registers.int?, h.read hbelow]

end Extends

lemma int?_temporary {v : Int32} :
    (registers.set (.temporary number) (.int v)).int? (.temporary number) = some v := by
  rw [int?, read, set_self]

lemma bool?_temporary {v : Bool} :
    (registers.set (.temporary number) (.bool v)).bool? (.temporary number) = some v := by
  rw [bool?, read, set_self]

end IR.Registers

/-! ## Variables -/

namespace Cell

/-- The slot of memory with the content of a variable. -/
def slot : Cell → Slot
  | scalar value => [some value]
  | array elements => elements

/-- Whether the variable is an array. -/
def isArray : Cell → Bool
  | scalar _ => false
  | array _ => true

end Cell

/-- What the variables of an activation hold stands in the registers and slots of a frame.  The
register of an argument holds its value; that of a variable or an array points to a slot, which no
other register points into. -/
structure Represents (own : Symbol → Prop) (cells : Cells) (registers : Registers)
    (slots : List Slot) : Prop where
  arg : ∀ {name}, own (.arg name .int) →
    ∃ v, cells name = some (.scalar v) ∧ registers (.named name) = some (.int v)
  var : ∀ {name}, own (.var name .int) →
    ∃ v k, cells name = some (.scalar v) ∧ registers (.named name) = some (.pointer k 0)
  array : ∀ {name size}, own (.array name .int size) →
    ∃ elements k, cells name = some (.array elements) ∧
      registers (.named name) = some (.pointer k 0)
  content : ∀ {name k i}, registers (.named name) = some (.pointer k i) →
    ∃ cell, cells name = some cell ∧ slots[k]? = some cell.slot
  separate : ∀ {name name' k i i'}, registers (.named name) = some (.pointer k i) →
    registers (.named name') = some (.pointer k i') → name' = name

namespace Cells

variable {cells : Cells} {name other : String} {cell : Cell}

lemma set_self : cells.set name cell name = some cell := by
  simp [set]

lemma set_of_ne (h : other ≠ name) : cells.set name cell other = cells other := by
  simp [set, h]

lemma element?_of_array {elements : List (Option Int32)} (h : cells name = some (.array elements))
    (i : Int32) :
    cells.element? name i = (place? elements.length i).bind fun j => elements[j]?.join := by
  rw [element?, h]

lemma write?_of_array {elements : List (Option Int32)} (h : cells name = some (.array elements))
    (i v : Int32) :
    cells.write? name i v = (place? elements.length i).map fun j =>
      cells.set name (.array (elements.set j (some v))) := by
  rw [write?, h]

end Cells

namespace Represents

variable {own : Symbol → Prop} {cells : Cells} {registers registers' : Registers}
  {slots : List Slot} {name : String} {k : Nat}

/-- Temporaries do not matter. -/
lemma of_named (h : Represents own cells registers slots)
    (hnamed : ∀ name, registers' (.named name) = registers (.named name)) :
    Represents own cells registers' slots := by
  refine ⟨?_, ?_, ?_, ?_, ?_⟩
  · intro name hown
    rw [hnamed]
    exact h.arg hown
  · intro name hown
    rw [hnamed]
    exact h.var hown
  · intro name size hown
    rw [hnamed]
    exact h.array hown
  · intro name k i hpointer
    rw [hnamed] at hpointer
    exact h.content hpointer
  · intro name name' k i i' hpointer hpointer'
    rw [hnamed] at hpointer hpointer'
    exact h.separate hpointer hpointer'

/-- A new content of the same sort for one variable. -/
lemma set {cell old : Cell} (h : Represents own cells registers slots)
    (hpointer : registers (.named name) = some (.pointer k 0)) (hold : cells name = some old)
    (hsort : cell.isArray = old.isArray) :
    Represents own (cells.set name cell) registers (slots.set k cell.slot) := by
  refine ⟨?_, ?_, ?_, ?_, h.separate⟩
  · intro x hown
    obtain ⟨v, hx, hregister⟩ := h.arg hown
    have hne : x ≠ name := by
      rintro rfl
      rw [hpointer] at hregister
      cases hregister
    rw [Cells.set_of_ne hne]
    exact ⟨v, hx, hregister⟩
  · intro x hown
    obtain ⟨v, j, hx, hregister⟩ := h.var hown
    by_cases hname : x = name
    · subst hname
      cases Option.some.inj (hold.symm.trans hx)
      cases cell with
      | scalar w => exact ⟨w, j, Cells.set_self, hregister⟩
      | array elements => cases hsort
    · rw [Cells.set_of_ne hname]
      exact ⟨v, j, hx, hregister⟩
  · intro x size hown
    obtain ⟨elements, j, hx, hregister⟩ := h.array hown
    by_cases hname : x = name
    · subst hname
      cases Option.some.inj (hold.symm.trans hx)
      cases cell with
      | scalar w => cases hsort
      | array elements' => exact ⟨elements', j, Cells.set_self, hregister⟩
    · rw [Cells.set_of_ne hname]
      exact ⟨elements, j, hx, hregister⟩
  · intro x j i hregister
    obtain ⟨content, hx, hslot⟩ := h.content hregister
    by_cases hslots : j = k
    · subst hslots
      obtain rfl := h.separate hpointer hregister
      have hlt : j < slots.length := (List.getElem?_eq_some_iff.1 hslot).1
      exact ⟨cell, Cells.set_self, List.getElem?_set_self hlt⟩
    · have hne : x ≠ name := by
        rintro rfl
        rw [hpointer] at hregister
        cases hregister
        exact hslots rfl
      rw [Cells.set_of_ne hne, List.getElem?_set_ne (Ne.symm hslots)]
      exact ⟨content, hx, hslot⟩

/-! ### Loads and stores -/

/-- A load from a variable's slot gives its value. -/
lemma load_var (h : Represents own cells registers slots) (hown : own (.var name .int)) :
    ∃ k, registers (.named name) = some (.pointer k 0) ∧
      IR.loadAt? slots k 0 = cells.scalar? name := by
  obtain ⟨v, k, hcell, hpointer⟩ := h.var hown
  obtain ⟨cell, hcell', hslot⟩ := h.content hpointer
  cases Option.some.inj (hcell.symm.trans hcell')
  refine ⟨k, hpointer, ?_⟩
  rw [Cells.scalar?, hcell]
  simp [IR.loadAt?, hslot, Cell.slot]

/-- A store to a variable's slot gives it a new value. -/
lemma store_var (h : Represents own cells registers slots) (hown : own (.var name .int)) :
    ∃ k, registers (.named name) = some (.pointer k 0) ∧
      ∀ v, ∃ slots', IR.storeAt? slots k 0 v = some slots' ∧
        Represents own (cells.set name (.scalar v)) registers slots' := by
  obtain ⟨old, k, hcell, hpointer⟩ := h.var hown
  obtain ⟨cell, hcell', hslot⟩ := h.content hpointer
  cases Option.some.inj (hcell.symm.trans hcell')
  refine ⟨k, hpointer, fun v => ⟨slots.set k (Cell.scalar v).slot, ?_, ?_⟩⟩
  · simp [IR.storeAt?, hslot, Cell.slot]
  · exact h.set hpointer hcell rfl

/-- A load from an array's slot gives the element, if there is one to give. -/
lemma load_element {size : Nat} (h : Represents own cells registers slots)
    (hown : own (.array name .int size)) :
    ∃ k, registers (.named name) = some (.pointer k 0) ∧
      ∀ i : Int32, IR.loadAt? slots k i.toInt = cells.element? name i := by
  obtain ⟨elements, k, hcell, hpointer⟩ := h.array hown
  obtain ⟨cell, hcell', hslot⟩ := h.content hpointer
  cases Option.some.inj (hcell.symm.trans hcell')
  refine ⟨k, hpointer, fun i => ?_⟩
  rw [IR.loadAt?, hslot, Cells.element?_of_array hcell, place?]
  show (if 0 ≤ i.toInt then elements[i.toInt.toNat]?.join else none) = _
  by_cases hnonneg : 0 ≤ i.toInt
  · by_cases hlt : i.toInt < elements.length
    · rw [if_pos hnonneg, if_pos ⟨hnonneg, hlt⟩]
      rfl
    · have hmissing : elements[i.toInt.toNat]? = none := by
        rw [List.getElem?_eq_none_iff]
        omega
      rw [if_pos hnonneg, if_neg (fun hplace => hlt hplace.2), hmissing]
      rfl
  · rw [if_neg hnonneg, if_neg (fun hplace => hnonneg hplace.1)]
    rfl

/-- A store to an array's slot writes the element, if the index is in range. -/
lemma store_element {size : Nat} (h : Represents own cells registers slots)
    (hown : own (.array name .int size)) :
    ∃ k, registers (.named name) = some (.pointer k 0) ∧ ∀ i v : Int32,
      (∀ cells', cells.write? name i v = some cells' →
        ∃ slots', IR.storeAt? slots k i.toInt v = some slots' ∧
          Represents own cells' registers slots') ∧
      (cells.write? name i v = none → IR.storeAt? slots k i.toInt v = none) := by
  obtain ⟨elements, k, hcell, hpointer⟩ := h.array hown
  obtain ⟨cell, hcell', hslot⟩ := h.content hpointer
  cases Option.some.inj (hcell.symm.trans hcell')
  refine ⟨k, hpointer, fun i v => ?_⟩
  rw [IR.storeAt?, hslot, Cells.write?_of_array hcell, place?]
  by_cases hplace : 0 ≤ i.toInt ∧ i.toInt < elements.length
  · rw [if_pos hplace]
    refine ⟨fun cells' hcells => ?_, fun hnone => nomatch hnone⟩
    cases hcells
    refine ⟨slots.set k (elements.set i.toInt.toNat (some v)), if_pos hplace, ?_⟩
    exact h.set hpointer hcell rfl
  · rw [if_neg hplace]
    exact ⟨fun cells' hcells => (nomatch hcells), fun _ => if_neg hplace⟩

end Represents

end DLang
