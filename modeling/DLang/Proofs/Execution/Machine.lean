import DLang.IR.Basic
import DLang.Proofs.Execution.Reference
import Mathlib.Tactic.Common

/-!
# What modules mean

The usual meaning of the instructions, as a machine that executes a module line by line.

A register holds an integer of 32 bits, a truth value or a pointer.  The memory of a function's
`alloca` instructions belongs to its activation: a `Frame` holds the slots that were reserved, and a
pointer is a slot with an offset into it.  Calls pass integers and return one, so no pointer leaves
the frame it points into.

A step is undefined, and the machine is stuck, where the instruction has no meaning: division by
zero, a load or a store outside its slot, a load from where nothing was stored, an operand of the
wrong sort, a label or a function that does not exist.  A block ends with a jump, a branch or a
return, so the machine is also stuck where the lines run into a label or end.  What `printf` and
`scanf` return is not kept.
-/

namespace DLang.IR

/-! ## Values and frames -/

/-- What a register holds. -/
inductive Value where
  | int (value : Int32)
  | bool (value : Bool)
  /-- A slot of the frame, and an offset counted in integers. -/
  | pointer (slot : Nat) (offset : Int)

/-- The registers of a frame. -/
abbrev Registers := Register → Option Value

namespace Registers

/-- Puts a value into a register. -/
def set (registers : Registers) (r : Register) (value : Value) : Registers :=
  fun other => if other = r then some value else registers other

/-- The value of an operand. -/
def read (registers : Registers) : Operand → Option Value
  | .constant value => some (.int value)
  | .register r => registers r

/-- The value of an operand that is an integer. -/
def int? (registers : Registers) (operand : Operand) : Option Int32 :=
  match registers.read operand with
  | some (.int value) => some value
  | _ => none

/-- The value of an operand that is a truth value. -/
def bool? (registers : Registers) (operand : Operand) : Option Bool :=
  match registers.read operand with
  | some (.bool value) => some value
  | _ => none

/-- The values of operands that are integers. -/
def ints? (registers : Registers) : List Operand → Option (List Int32)
  | [] => some []
  | operand :: rest => do
    let value ← registers.int? operand
    let values ← ints? registers rest
    return value :: values

end Registers

/-- A slot of memory: its integers, and nothing where none was stored yet. -/
abbrev Slot := List (Option Int32)

/-- The integer at an offset of a slot. -/
def loadAt? (slots : List Slot) (slot : Nat) (offset : Int) : Option Int32 :=
  if 0 ≤ offset then (slots[slot]?.bind fun content => content[offset.toNat]?).join else none

/-- The slots after an integer was stored at an offset of one of them. -/
def storeAt? (slots : List Slot) (slot : Nat) (offset : Int) (value : Int32) :
    Option (List Slot) :=
  match slots[slot]? with
  | some content =>
    if 0 ≤ offset ∧ offset < content.length then
      some (slots.set slot (content.set offset.toNat (some value)))
    else none
  | none => none

/-- The activation of a function. -/
structure Frame where
  /-- All lines of the function. -/
  lines : List Line
  /-- The lines from the next one on. -/
  rest : List Line
  registers : Registers
  slots : List Slot

/-- The lines after a label. -/
def afterLabel? (label : Label) : List Line → Option (List Line)
  | [] => none
  | .label found :: rest => if found = label then some rest else afterLabel? label rest
  | .instr _ :: rest => afterLabel? label rest

namespace Frame

/-- Puts a value into a register. -/
def define (frame : Frame) (r : Register) (value : Value) : Frame :=
  { frame with registers := frame.registers.set r value }

/-- Reserves a slot and puts a pointer to it into a register. -/
def reserve (frame : Frame) (name : String) (size : Nat) : Frame :=
  { frame with
    registers := frame.registers.set (.named name) (.pointer frame.slots.length 0)
    slots := frame.slots ++ [List.replicate size none] }

/-- The integer that a register points to. -/
def load? (frame : Frame) (address : Register) : Option Int32 :=
  match frame.registers address with
  | some (.pointer slot offset) => loadAt? frame.slots slot offset
  | _ => none

/-- Stores an integer where a register points to. -/
def store? (frame : Frame) (address : Register) (value : Int32) : Option Frame :=
  match frame.registers address with
  | some (.pointer slot offset) =>
    (storeAt? frame.slots slot offset value).map fun slots => { frame with slots }
  | _ => none

/-- Goes on after a label. -/
def jump? (frame : Frame) (label : Label) : Option Frame :=
  (afterLabel? label frame.lines).map fun rest => { frame with rest }

end Frame

/-- The lines of a function's first block on, without the label at their head. -/
def Function.start (f : Function) : List Line :=
  match f.lines with
  | .label _ :: rest => rest
  | lines => lines

/-- The frame of a function that was just entered: its parameters are set, and nothing is
reserved. -/
def Function.enter (f : Function) (args : List Int32) : Frame where
  lines := f.lines
  rest := f.start
  registers
    | .named name => List.lookup name (f.params.zip (args.map Value.int))
    | .temporary _ => none
  slots := []

/-! ## Operations -/

/-- `add`, `sub` and `mul` compute modulo `2 ^ 32`, and `udiv` is undefined for a divisor of
zero. -/
def compute (op : Opcode) (a b : Int32) : Option Int32 :=
  match op with
  | .add => some (.ofBitVec (a.toBitVec + b.toBitVec))
  | .sub => some (.ofBitVec (a.toBitVec - b.toBitVec))
  | .mul => some (.ofBitVec (a.toBitVec * b.toBitVec))
  | .udiv => if b = 0 then none else some (.ofBitVec (a.toBitVec.udiv b.toBitVec))

/-- `icmp` on words of any width; the order is that of signed numbers. -/
def icmp {width : Nat} (predicate : Predicate) (a b : BitVec width) : Bool :=
  match predicate with
  | .eq => a = b
  | .ne => a ≠ b
  | .slt => a.slt b
  | .sle => a.sle b
  | .sgt => b.slt a
  | .sge => b.sle a

/-- A comparison of two operands of a type.  A truth value is a word of one bit. -/
def Registers.compare? (registers : Registers) (predicate : Predicate) (ty : Ty)
    (left right : Operand) : Option Bool :=
  match ty with
  | .int => do
    let a ← registers.int? left
    let b ← registers.int? right
    return icmp predicate a.toBitVec b.toBitVec
  | .bool => do
    let a ← registers.bool? left
    let b ← registers.bool? right
    return icmp predicate (BitVec.ofBool a) (BitVec.ofBool b)

/-! ## Steps -/

/-- The state of the machine. -/
inductive State where
  /-- A frame is active; the others wait for a call to return, each with the number of the temporary
  that takes the result. -/
  | running (frame : Frame) (callers : List (Nat × Frame)) (console : Console)
  /-- The function that the machine was started with has returned. -/
  | halted (value : Int32) (console : Console)

/-- Executes an instruction in a frame that has already passed it. -/
def Instr.exec (m : Module) (frame : Frame) (callers : List (Nat × Frame)) (console : Console) :
    Instr → Option State
  | .reserve slot => some (.running (frame.reserve slot 1) callers console)
  | .reserveArray slot size => some (.running (frame.reserve slot size) callers console)
  | .store value address => do
    let v ← frame.registers.int? value
    let frame' ← frame.store? address v
    return .running frame' callers console
  | .load into address => do
    let v ← frame.load? address
    return .running (frame.define (.temporary into) (.int v)) callers console
  | .elementAddress into _ array index => do
    let i ← frame.registers.int? index
    match frame.registers (.named array) with
    | some (.pointer slot offset) =>
      return .running (frame.define (.temporary into) (.pointer slot (offset + i.toInt))) callers
        console
    | _ => none
  | .arith into op left right => do
    let a ← frame.registers.int? left
    let b ← frame.registers.int? right
    let v ← compute op a b
    return .running (frame.define (.temporary into) (.int v)) callers console
  | .compare into predicate ty left right => do
    let v ← frame.registers.compare? predicate ty left right
    return .running (frame.define (.temporary into) (.bool v)) callers console
  | .widen into value => do
    let v ← frame.registers.bool? value
    return .running (frame.define (.temporary into) (.int (if v then 1 else 0))) callers console
  | .call into function args => do
    let values ← frame.registers.ints? args
    let callee ← m.functions.find? fun f => f.name = function
    if callee.params.length = values.length then
      some (.running (callee.enter values) ((into, frame) :: callers) console)
    else none
  | .print _ value => do
    let v ← frame.registers.int? value
    return .running frame callers (console.print v)
  | .read _ slot =>
    match console.input 0 with
    | some v => do
      let frame' ← frame.store? (.named slot) v
      return .running frame' callers console.next
    | none => some (.running frame callers console.next)
  | .jump label => do
    let frame' ← frame.jump? label
    return .running frame' callers console
  | .branch condition yes no => do
    let v ← frame.registers.bool? condition
    let frame' ← frame.jump? (if v then yes else no)
    return .running frame' callers console
  | .ret value => do
    let v ← frame.registers.int? value
    match callers with
    | [] => return .halted v console
    | (into, caller) :: callers =>
      return .running (caller.define (.temporary into) (.int v)) callers console

/-- One step of the machine. -/
def step (m : Module) : State → Option State
  | .halted .. => none
  | .running frame callers console =>
    match frame.rest with
    | .instr i :: rest => i.exec m { frame with rest } callers console
    | _ => none

/-- A number of steps lead from one state to another. -/
inductive Steps (m : Module) : Nat → State → State → Prop
  | refl (s : State) : Steps m 0 s s
  | head {n : Nat} {s s' s'' : State} :
      step m s = some s' → Steps m n s' s'' → Steps m (n + 1) s s''

/-- The machine cannot go on, and it has not halted. -/
def Stuck (m : Module) (s : State) : Prop :=
  step m s = none ∧ ∀ value console, s ≠ .halted value console

/-- On the given input the module, entered at `main`, runs to an end: it prints `output` and returns
`value`. -/
def Module.Runs (m : Module) (input : Nat → Option Int32) (output : List Int32) (value : Int32) :
    Prop :=
  ∃ main n console, (m.functions.find? fun f => f.name = "main") = some main ∧
    Steps m n (.running (main.enter []) [] { input, output := [] }) (.halted value console) ∧
    console.output = output

/-! ## Runs of the machine -/

namespace Steps

variable {m : Module} {n k : Nat} {s s' s'' : State}

lemma single (h : step m s = some s') : Steps m 1 s s' :=
  .head h (.refl s')

lemma trans (h : Steps m n s s') (h' : Steps m k s' s'') : Steps m (n + k) s s'' := by
  induction h with
  | refl s => rwa [Nat.zero_add]
  | head hstep _ ih =>
    rw [Nat.add_right_comm]
    exact .head hstep (ih h')

/-- From a state from which the machine comes to an end, it passes through every state that it
reaches on the way: no other run leads elsewhere, or further. -/
lemma le_of_final (h : Steps m n s s') (hfinal : step m s' = none) (h' : Steps m k s s'') :
    k ≤ n ∧ Steps m (n - k) s'' s' := by
  induction h' generalizing n with
  | refl s => exact ⟨Nat.zero_le n, by rwa [Nat.sub_zero]⟩
  | @head k s mid s'' hstep _ ih =>
    cases h with
    | refl =>
      rw [hfinal] at hstep
      cases hstep
    | @head n _ mid' _ hstep' hrest =>
      have hmid : mid' = mid := Option.some.inj (hstep'.symm.trans hstep)
      subst hmid
      obtain ⟨hle, hsteps⟩ := ih hrest
      refine ⟨by omega, ?_⟩
      rwa [Nat.add_sub_add_right]

/-- A run that comes to an end ends in one state only. -/
lemma final_unique (h : Steps m n s s') (hfinal : step m s' = none) (h' : Steps m k s s'')
    (hfinal' : step m s'' = none) : s' = s'' := by
  obtain ⟨_, hsteps⟩ := le_of_final h hfinal h'
  generalize n - k = d at hsteps
  cases hsteps with
  | refl => rfl
  | head hstep _ =>
    rw [hfinal'] at hstep
    cases hstep

end Steps

/-! ## Single instructions -/

section Instructions

variable {m : Module} {lines rest : List Line} {registers : Registers} {slots : List Slot}
  {callers : List (Nat × Frame)} {console : Console} {into : Nat}

lemma step_instr (i : Instr) :
    step m (.running ⟨lines, .instr i :: rest, registers, slots⟩ callers console) =
      i.exec m ⟨lines, rest, registers, slots⟩ callers console :=
  rfl

lemma step_load {address : Register} {slot : Nat} {offset : Int}
    (haddress : registers address = some (.pointer slot offset)) :
    step m (.running ⟨lines, .instr (.load into address) :: rest, registers, slots⟩ callers
        console) =
      (loadAt? slots slot offset).map fun v => .running
        ⟨lines, rest, registers.set (.temporary into) (.int v), slots⟩ callers console := by
  rw [step_instr, Instr.exec, Frame.load?]
  simp only [haddress]
  cases loadAt? slots slot offset <;> rfl

lemma step_store_eq {value : Operand} {address : Register} {slot : Nat} {offset : Int} {v : Int32}
    (hvalue : registers.int? value = some v)
    (haddress : registers address = some (.pointer slot offset)) :
    step m (.running ⟨lines, .instr (.store value address) :: rest, registers, slots⟩ callers
        console) =
      (storeAt? slots slot offset v).map fun slots' =>
        .running ⟨lines, rest, registers, slots'⟩ callers console := by
  rw [step_instr, Instr.exec, hvalue]
  show (Frame.store? _ address v >>= _) = _
  rw [Frame.store?]
  simp only [haddress]
  cases storeAt? slots slot offset v <;> rfl

lemma step_store {value : Operand} {address : Register} {slot : Nat} {offset : Int} {v : Int32}
    {slots' : List Slot} (hvalue : registers.int? value = some v)
    (haddress : registers address = some (.pointer slot offset))
    (hstore : storeAt? slots slot offset v = some slots') :
    step m (.running ⟨lines, .instr (.store value address) :: rest, registers, slots⟩ callers
        console) =
      some (.running ⟨lines, rest, registers, slots'⟩ callers console) := by
  rw [step_store_eq hvalue haddress, hstore, Option.map_some]

/-- A store outside its slot. -/
lemma step_store_outside {value : Operand} {address : Register} {slot : Nat} {offset : Int}
    {v : Int32} (hvalue : registers.int? value = some v)
    (haddress : registers address = some (.pointer slot offset))
    (hstore : storeAt? slots slot offset v = none) :
    step m (.running ⟨lines, .instr (.store value address) :: rest, registers, slots⟩ callers
        console) = none := by
  rw [step_store_eq hvalue haddress, hstore, Option.map_none]

lemma step_elementAddress {array : String} {size slot : Nat} {index : Operand} {i : Int32}
    (hindex : registers.int? index = some i)
    (harray : registers (.named array) = some (.pointer slot 0)) :
    step m (.running ⟨lines, .instr (.elementAddress into size array index) :: rest, registers,
        slots⟩ callers console) =
      some (.running ⟨lines, rest, registers.set (.temporary into) (.pointer slot i.toInt), slots⟩
        callers console) := by
  rw [step_instr, Instr.exec, hindex]
  show (match registers (.named array) with | some (.pointer slot offset) => _ | _ => _) = _
  rw [harray]
  simp [Frame.define]

lemma step_arith {op : Opcode} {left right : Operand} {a b : Int32}
    (hleft : registers.int? left = some a) (hright : registers.int? right = some b) :
    step m (.running ⟨lines, .instr (.arith into op left right) :: rest, registers, slots⟩ callers
        console) =
      (compute op a b).map fun v => .running
        ⟨lines, rest, registers.set (.temporary into) (.int v), slots⟩ callers console := by
  rw [step_instr, Instr.exec, hleft, hright]
  show (compute op a b >>= _) = _
  cases compute op a b <;> rfl

lemma step_compare {predicate : Predicate} {left right : Operand} {a b : Int32}
    (hleft : registers.int? left = some a) (hright : registers.int? right = some b) :
    step m (.running ⟨lines, .instr (.compare into predicate .int left right) :: rest, registers,
        slots⟩ callers console) =
      some (.running ⟨lines, rest, registers.set (.temporary into)
        (.bool (icmp predicate a.toBitVec b.toBitVec)), slots⟩ callers console) := by
  rw [step_instr, Instr.exec, Registers.compare?]
  simp only [hleft, hright]
  rfl

/-- A comparison of truth values is one of words of a single bit. -/
lemma step_compare_bool {predicate : Predicate} {left right : Operand} {a b : Bool}
    (hleft : registers.bool? left = some a) (hright : registers.bool? right = some b) :
    step m (.running ⟨lines, .instr (.compare into predicate .bool left right) :: rest, registers,
        slots⟩ callers console) =
      some (.running ⟨lines, rest, registers.set (.temporary into)
        (.bool (icmp predicate (BitVec.ofBool a) (BitVec.ofBool b))), slots⟩ callers console) := by
  rw [step_instr, Instr.exec, Registers.compare?]
  simp only [hleft, hright]
  rfl

lemma step_widen {value : Operand} {v : Bool} (hvalue : registers.bool? value = some v) :
    step m (.running ⟨lines, .instr (.widen into value) :: rest, registers, slots⟩ callers
        console) =
      some (.running ⟨lines, rest, registers.set (.temporary into) (.int (if v then 1 else 0)),
        slots⟩ callers console) := by
  rw [step_instr, Instr.exec, hvalue]
  rfl

lemma step_jump {label : Label} {target : List Line} (h : afterLabel? label lines = some target) :
    step m (.running ⟨lines, .instr (.jump label) :: rest, registers, slots⟩ callers console) =
      some (.running ⟨lines, target, registers, slots⟩ callers console) := by
  rw [step_instr, Instr.exec, Frame.jump?]
  simp only [h]
  rfl

lemma step_branch {condition : Operand} {yes no : Label} {v : Bool} {target : List Line}
    (hcondition : registers.bool? condition = some v)
    (h : afterLabel? (if v then yes else no) lines = some target) :
    step m (.running ⟨lines, .instr (.branch condition yes no) :: rest, registers, slots⟩ callers
        console) =
      some (.running ⟨lines, target, registers, slots⟩ callers console) := by
  rw [step_instr, Instr.exec, hcondition]
  show (Frame.jump? _ (if v then yes else no) >>= _) = _
  rw [Frame.jump?]
  simp only [h]
  rfl

lemma step_print {value : Operand} {v : Int32} (hvalue : registers.int? value = some v) :
    step m (.running ⟨lines, .instr (.print into value) :: rest, registers, slots⟩ callers
        console) =
      some (.running ⟨lines, rest, registers, slots⟩ callers (console.print v)) := by
  rw [step_instr, Instr.exec, hvalue]
  rfl

lemma step_read {slot : String} {k : Nat} {v : Int32} {slots' : List Slot}
    (hinput : console.input 0 = some v)
    (hslot : registers (.named slot) = some (.pointer k 0))
    (hstore : storeAt? slots k 0 v = some slots') :
    step m (.running ⟨lines, .instr (.read into slot) :: rest, registers, slots⟩ callers console) =
      some (.running ⟨lines, rest, registers, slots'⟩ callers console.next) := by
  rw [step_instr, Instr.exec]
  simp only [hinput, Frame.store?, hslot, hstore]
  rfl

/-- A read that finds nothing to read leaves its slot as it is. -/
lemma step_read_nothing {slot : String} (hinput : console.input 0 = none) :
    step m (.running ⟨lines, .instr (.read into slot) :: rest, registers, slots⟩ callers console) =
      some (.running ⟨lines, rest, registers, slots⟩ callers console.next) := by
  rw [step_instr, Instr.exec]
  simp only [hinput]

lemma step_call_eq {name : String} {operands : List Operand} {values : List Int32} {f : Function}
    (hvalues : registers.ints? operands = some values)
    (hfind : (m.functions.find? fun f => f.name = name) = some f) :
    step m (.running ⟨lines, .instr (.call into name operands) :: rest, registers, slots⟩ callers
        console) =
      if f.params.length = values.length then
        some (.running (f.enter values) ((into, ⟨lines, rest, registers, slots⟩) :: callers) console)
      else none := by
  rw [step_instr, Instr.exec, hvalues]
  show ((m.functions.find? fun f => f.name = name) >>= _) = _
  rw [hfind]
  rfl

lemma step_call {name : String} {operands : List Operand} {values : List Int32} {f : Function}
    (hvalues : registers.ints? operands = some values)
    (hfind : (m.functions.find? fun f => f.name = name) = some f)
    (hlength : f.params.length = values.length) :
    step m (.running ⟨lines, .instr (.call into name operands) :: rest, registers, slots⟩ callers
        console) =
      some (.running (f.enter values) ((into, ⟨lines, rest, registers, slots⟩) :: callers)
        console) := by
  rw [step_call_eq hvalues hfind, if_pos hlength]

/-- A call with the wrong number of arguments. -/
lemma step_call_mismatch {name : String} {operands : List Operand} {values : List Int32}
    {f : Function} (hvalues : registers.ints? operands = some values)
    (hfind : (m.functions.find? fun f => f.name = name) = some f)
    (hlength : f.params.length ≠ values.length) :
    step m (.running ⟨lines, .instr (.call into name operands) :: rest, registers, slots⟩ callers
        console) = none := by
  rw [step_call_eq hvalues hfind, if_neg hlength]

/-- A return to the frame that called. -/
lemma step_ret_caller {value : Operand} {v : Int32} {caller : Frame}
    (hvalue : registers.int? value = some v) :
    step m (.running ⟨lines, .instr (.ret value) :: rest, registers, slots⟩
        ((into, caller) :: callers) console) =
      some (.running (caller.define (.temporary into) (.int v)) callers console) := by
  rw [step_instr, Instr.exec, hvalue]
  rfl

/-- The return of the function that the machine was started with. -/
lemma step_ret_last {value : Operand} {v : Int32} (hvalue : registers.int? value = some v) :
    step m (.running ⟨lines, .instr (.ret value) :: rest, registers, slots⟩ [] console) =
      some (.halted v console) := by
  rw [step_instr, Instr.exec, hvalue]
  rfl

/-- A label is found where it stands first. -/
lemma afterLabel?_append {label : Label} {before after : List Line}
    (h : Line.label label ∉ before) :
    afterLabel? label (before ++ .label label :: after) = some after := by
  induction before with
  | nil => simp [afterLabel?]
  | cons line before ih =>
    have hbefore : Line.label label ∉ before := fun hmem => h (List.mem_cons_of_mem line hmem)
    cases line with
    | instr i => exact ih hbefore
    | label found =>
      have hne : found ≠ label := by
        rintro rfl
        exact h List.mem_cons_self
      rw [List.cons_append, afterLabel?, if_neg hne]
      exact ih hbefore

end Instructions

end DLang.IR
