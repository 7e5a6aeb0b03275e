import DLang.Proofs.Compilation.Stages
import DLang.Proofs.Execution.Activations
import DLang.Proofs.Grammar.Completeness
import DLang.Proofs.Grammar.Identifiers
import DLang.Proofs.Lowering.Units
import DLang.Proofs.Module.Reading
import DLang.Proofs.Static.Analysis

/-!
# Compilation preserves meaning

Every function of a program is translated to a function of the module (`Translates`), so a call is
simulated by the call instruction, by induction on the depth of calls that the fuel allows
(`Program.callsSimulated_callAt`).  A program is then simulated by its module, started at `main`
(`Program.simulates_run`).

That settles both directions.  If the program runs to an end, so does the module.  If the module
runs to an end in `n` steps, then the program with fuel `n + 1` can neither be undefined, since the
machine would be stuck, nor unfinished, since the machine would take more than `n` steps
(`Simulates.done_of_halted`).

The main result, `compileSource_preserves_runs`, is about texts on both sides: the module is the one
whose words are in the text that compilation gives, as the format has them.
-/

namespace DLang

open IR (State Steps)

/-! ## Translated functions -/

/-- The function of the module that a function of the program is lowered to. -/
structure Translates (f : FunctionDecl) (g : IR.Function) : Prop where
  name : g.name = f.name
  params : g.params = f.paramList
  lines : ∃ c l, Stmt.lowerAll f.body c = .ok l ∧ g.lines = functionLines f.localList l.code true

lemma translates_of_lower {f : FunctionDecl} {c c' : Counters} {g : IR.Function}
    (h : f.lower true c = .ok (g, c')) : Translates f g := by
  obtain ⟨l, hl, _, rfl⟩ := FunctionDecl.lower_inv h
  exact ⟨rfl, rfl, c, l, hl, rfl⟩

lemma forall₂_translates_of_lowersTo {functions : List FunctionDecl} :
    ∀ {c c' : Counters} {list : List IR.Function},
      LowersTo (functions.map fun f => (f, true)) c list c' →
      List.Forall₂ Translates functions list := by
  induction functions with
  | nil =>
    rintro c c' list ⟨⟩
    exact .nil
  | cons f rest ih =>
    rintro c c' list (_ | ⟨hf, hrest⟩)
    exact .cons (translates_of_lower hf) (ih hrest)

/-- A function that is found by its name in the program has its translation found in the module. -/
lemma exists_find?_of_forall₂ {functions : List FunctionDecl} {list : List IR.Function}
    (h : List.Forall₂ Translates functions list) {name : String} {f : FunctionDecl}
    (hfind : (functions.find? fun f => f.name = name) = some f) :
    ∃ g, (list.find? fun g => g.name = name) = some g ∧ Translates f g := by
  induction h with
  | nil => cases hfind
  | @cons f' g' functions list hfirst _ ih =>
    rw [List.find?_cons] at hfind ⊢
    rw [hfirst.name]
    by_cases hname : f'.name = name
    · simp only [hname, decide_true] at hfind ⊢
      cases hfind
      exact ⟨g', rfl, hfirst⟩
    · simp only [hname, decide_false] at hfind ⊢
      exact ih hfind

lemma map_name_of_forall₂ {functions : List FunctionDecl} {list : List IR.Function}
    (h : List.Forall₂ Translates functions list) :
    list.map IR.Function.name = functions.map FunctionDecl.name := by
  induction h with
  | nil => rfl
  | cons hfirst _ ih => rw [List.map_cons, List.map_cons, hfirst.name, ih]

/-- What a module is made of: the translated functions, and `main` at the end. -/
lemma Program.exists_of_lower {p : Program} {m : IR.Module} {counters : Counters}
    (h : (p.lower true).result = .ok (m, counters)) :
    ∃ list main, m.functions = list ++ [main] ∧ List.Forall₂ Translates p.functions list ∧
      main.name = "main" ∧ main.params = [] ∧
      ∃ c l, Stmt.lowerAll p.body c = .ok l ∧ main.lines = functionLines p.varDefs l.code true := by
  obtain ⟨list, entry, c, hfunctions, hlist, hentry⟩ := Program.exists_entry_of_lower h
  obtain ⟨l, hl, _, rfl⟩ := FunctionDecl.lower_inv hentry
  exact ⟨list, _, hfunctions, forall₂_translates_of_lowersTo hlist, rfl, rfl, c, l, hl, rfl⟩

/-! ## Calls -/

namespace Program

variable {p : Program} {m : IR.Module} {counters : Counters}

/-- The functions of a program, by name and number of parameters. -/
def Declares (p : Program) (name : String) (arity : Nat) : Prop :=
  ∃ f ∈ p.functions, f.name = name ∧ f.paramList.length = arity

/-- A function can call only functions of its program. -/
lemma declares_of_callable {f : FunctionDecl} {before after : List Decl}
    (hsplit : p.declarationList = before ++ .function f :: after) {name : String} {arity : Nat}
    (h : (f.env before).callable name arity) : p.Declares name arity := by
  obtain ⟨⟨g, hg, hname, harity⟩, _⟩ := h
  refine ⟨g, ?_, hname, harity⟩
  rw [Program.functions_eq, hsplit, List.flatMap_append, List.flatMap_cons, ← List.append_assoc]
  exact List.mem_append_left _ hg

/-- The function that translates `f`, once entered, comes to a return with the value of `f`. -/
lemma simulates_translation (hwell : p.WellFormed) (hann : p.Annotated) (hplain : p.Plain)
    {bound : Nat} {calls : Calls} (hcalls : CallsSimulated m bound p.Declares calls)
    {f : FunctionDecl} (hf : f ∈ p.functions) {g : IR.Function} (htranslates : Translates f g)
    {args : List Int32} (hlength : f.paramList.length = args.length)
    {callers : List (Nat × IR.Frame)} {console : Console} :
    Simulates m bound (.running (g.enter args) callers console)
      (runBody calls bound f.body (activation f.paramList args f.localList)) console
      (Returning g.lines callers) := by
  obtain ⟨before, after, hsplit⟩ := p.mem_functions_iff.1 hf
  obtain ⟨_, hparams, c, l, hl, hlines⟩ := htranslates
  have hcalls' : CallsSimulated m bound (f.env before).callable calls :=
    fun name values hcallable => hcalls name values (declares_of_callable hsplit hcallable)
  rw [← hparams] at hlength ⊢
  refine simulates_runBody hcalls' (hplain.functions f hf) (hann.functions before f after hsplit) ?_
    ?_ hlength hl hlines
  · intro symbol hown
    rw [hparams]
    exact hown
  · rw [hparams]
    exact (hwell.functions before f after hsplit).distinct

/-- The call instruction does what a call in the program does. -/
theorem callsSimulated_callAt (hwell : p.WellFormed) (hann : p.Annotated) (hplain : p.Plain)
    (hlower : (p.lower true).result = .ok (m, counters)) :
    ∀ bound, CallsSimulated m bound p.Declares (callAt p.functions bound) := by
  obtain ⟨list, main, hfunctions, htranslates, _⟩ := Program.exists_of_lower hlower
  intro bound
  induction bound with
  | zero =>
    intro name values _ lines rest registers slots callers console into operands _
    exact ⟨0, _, Nat.le_refl 0, .refl _⟩
  | succ bound ih =>
    intro name values hdeclared lines rest registers slots callers console into operands hvalues
    cases hfind : p.functions.find? fun f => f.name = name with
    | none =>
      obtain ⟨f, hf, hname, _⟩ := hdeclared
      exact absurd (decide_eq_true hname) (List.find?_eq_none.1 hfind f hf)
    | some f =>
      obtain ⟨g, hg, htrans⟩ := exists_find?_of_forall₂ htranslates hfind
      have hg' : (m.functions.find? fun g => g.name = name) = some g := by
        rw [hfunctions, List.find?_append, hg]
        rfl
      have harity : g.params.length = f.paramList.length := congrArg List.length htrans.params
      rw [callAt, hfind]
      show Simulates m (bound + 1) _ (if f.paramList.length = values.length then _ else _) _ _
      by_cases hlength : f.paramList.length = values.length
      · rw [if_pos hlength, Nat.add_comm bound 1]
        refine Simulates.steps (.single (IR.step_call hvalues hg' (harity.trans hlength))) ?_
        refine Simulates.andThen (simulates_translation hwell hann hplain ih
          (List.mem_of_find?_eq_some hfind) htrans hlength) ?_
        rintro v console' _ ⟨value, tail, registers', slots', hvalue, rfl⟩
        exact ⟨1, _, .single (IR.step_ret_caller hvalue), rfl⟩
      · rw [if_neg hlength]
        refine ⟨0, _, .refl _, ?_, ?_⟩
        · exact IR.step_call_mismatch hvalues hg' fun h => hlength (harity.symm.trans h)
        · intro _ _ hhalted
          cases hhalted

/-! ## Programs -/

/-- A program is simulated by its module, started at `main`. -/
theorem simulates_run (hwell : p.WellFormed) (hann : p.Annotated) (hplain : p.Plain)
    (hlower : (p.lower true).result = .ok (m, counters)) :
    ∃ main, (m.functions.find? fun g => g.name = "main") = some main ∧
      ∀ fuel console, Simulates m fuel (.running (main.enter []) [] console) (p.run fuel) console
        fun v console' s' => s' = .halted v console' := by
  obtain ⟨list, main, hfunctions, htranslates, hname, hparams, c, l, hl, hlines⟩ :=
    Program.exists_of_lower hlower
  have hnone : (list.find? fun g => g.name = "main") = none := by
    rw [List.find?_eq_none]
    intro g hg hmain
    have hmem : g.name ∈ p.functions.map FunctionDecl.name := by
      rw [← map_name_of_forall₂ htranslates]
      exact List.mem_map_of_mem hg
    obtain ⟨f, hf, hfname⟩ := List.mem_map.1 hmem
    obtain ⟨before, after, hsplit⟩ := p.mem_functions_iff.1 hf
    refine (hwell.functions before f after hsplit).unreserved ?_
    rw [hfname, of_decide_eq_true hmain]
    decide
  refine ⟨main, ?_, fun fuel console => ?_⟩
  · rw [hfunctions, List.find?_append, hnone]
    simp [hname]
  · have hcalls : CallsSimulated m fuel p.env.callable (callAt p.functions fuel) :=
      fun name values hcallable =>
        callsSimulated_callAt hwell hann hplain hlower fuel name values hcallable.1
    have hrun : p.run fuel =
        runBody (callAt p.functions fuel) fuel p.body (activation main.params [] p.varDefs) := by
      rw [hparams]
      rfl
    have hown : ∀ symbol, p.env.own symbol →
        symbol ∈ main.params.map (fun param => .arg param .int) ++ p.varDefs.map VarDef.symbol := by
      rw [hparams]
      exact fun symbol h => h
    have hdistinct : (main.params ++ p.varDefs.map VarDef.name).Nodup := by
      rw [hparams]
      exact nodup_names_varDefs hwell.distinct
    rw [hrun]
    refine Simulates.andThen (simulates_runBody hcalls hplain.body hann.body hown hdistinct
      (congrArg List.length hparams) hl hlines) ?_
    rintro v console' _ ⟨value, tail, registers, slots, hvalue, rfl⟩
    exact ⟨1, _, .single (IR.step_ret_last hvalue), rfl⟩

end Program

/-- From a run of the machine that halts: the computation is done, with the same result. -/
lemma Simulates.done_of_halted {m : IR.Module} {n : Nat} {s : State} {x : Run Int32}
    {console console' : Console} {v : Int32}
    (h : Simulates m (n + 1) s x console fun v console' s' => s' = .halted v console')
    (hrun : Steps m n s (.halted v console')) : x console = .done (v, console') := by
  have hfinal : IR.step m (.halted v console') = none := rfl
  unfold Simulates at h
  cases hx : x console with
  | done result =>
    rw [hx] at h
    obtain ⟨k, _, hsteps, rfl⟩ := h
    cases hrun.final_unique hfinal hsteps rfl
    rfl
  | undefined =>
    rw [hx] at h
    obtain ⟨k, s', hsteps, hstuck, hnot⟩ := h
    exact absurd (hrun.final_unique hfinal hsteps hstuck).symm (hnot v console')
  | unfinished =>
    rw [hx] at h
    obtain ⟨k, s', hle, hsteps⟩ := h
    have hle' := (hrun.le_of_final hfinal hsteps).1
    omega

/-- A program and its module run to the same ends. -/
theorem Program.runs_iff_of_lower {p : Program} {m : IR.Module} {counters : Counters}
    (hwell : p.WellFormed) (hann : p.Annotated) (hplain : p.Plain)
    (hlower : (p.lower true).result = .ok (m, counters)) (input : Nat → Option Int32)
    (output : List Int32) (value : Int32) :
    p.Runs input output value ↔ m.Runs input output value := by
  obtain ⟨main, hmain, hsim⟩ := Program.simulates_run hwell hann hplain hlower
  constructor
  · rintro ⟨fuel, console, hrun, houtput⟩
    have hfuel := hsim fuel { input, output := [] }
    unfold Simulates at hfuel
    rw [hrun] at hfuel
    obtain ⟨n, _, hsteps, rfl⟩ := hfuel
    exact ⟨main, n, console, hmain, hsteps, houtput⟩
  · rintro ⟨main', n, console, hmain', hsteps, houtput⟩
    cases Option.some.inj (hmain.symm.trans hmain')
    exact ⟨n + 1, console, (hsim (n + 1) _).done_of_halted hsteps, houtput⟩

/-! ## Source texts -/

/-- Programs that differ in annotations only run to the same ends. -/
lemma Program.runs_iff_of_bare_eq {p p' : Program} (h : p'.bare = p.bare)
    (input : Nat → Option Int32) (output : List Int32) (value : Int32) :
    p'.Runs input output value ↔ p.Runs input output value := by
  have hrun : p'.run = p.run := by
    funext fuel
    rw [← p'.run_bare, ← p.run_bare, h]
  rw [Program.Runs, Program.Runs, hrun]

/-- **Compilation preserves meaning.**  If a source text compiles, with a final return in every
function and pointers in either style, then the result is the text of a module whose names are
identifiers, and of no other such module.  This module does, on every input, what the program of
the source text does: the one runs to an end printing `output` and ending with `value` if and only
if the other does. -/
theorem compileSource_preserves_runs (style : PointerStyle) {source text : String}
    (h : (compileSource { pointers := style, finalReturn := true } source).result = .ok text) :
    ∃ p illegals annotated m counters, (parseSource source).result = .ok (p, illegals) ∧
      p.analyze.result = .ok annotated ∧ (annotated.lower true).result = .ok (m, counters) ∧
      m.HasText style text ∧
      (∀ g ∈ m.functions, ∀ name ∈ g.mentioned, isIdentifier name = true) ∧
      (∀ m' : IR.Module, (∀ g ∈ m'.functions, ∀ name ∈ g.mentioned, isIdentifier name = true) →
        m'.HasText style text → m' = m) ∧
      ∀ input output value, p.Runs input output value ↔ m.Runs input output value := by
  obtain ⟨p, illegals, annotated, m, counters, hparse, hanalyze, hlower, htext⟩ :=
    exists_of_compileSource h
  obtain ⟨hbare, hwell, hann⟩ := Analyzer.of_result_eq_ok hanalyze
  have hplain : annotated.Plain := by
    rw [← annotated.plain_bare_iff, hbare, p.plain_bare_iff]
    exact plain_of_parseSource hparse
  have hnames :=
    Program.isIdentifier_of_annotated (isIdentifier_of_mem_identifiers hparse) hbare hlower
  have hformat : m.HasText style text := IR.Module.hasText_iff.2 htext
  refine ⟨p, illegals, annotated, m, counters, hparse, hanalyze, hlower, hformat, hnames, ?_, ?_⟩
  · exact fun m' hnames' hformat' => hformat'.eq hformat hnames' hnames
  · intro input output value
    rw [← Program.runs_iff_of_bare_eq hbare]
    exact Program.runs_iff_of_lower hwell hann hplain hlower input output value

/-- Reads a number and prints the factorials of the numbers from it down to one. -/
def factorialSource : String :=
  "fac(n); \x7b if (n == 0) \x7b return(1) \x7d else \x7b return(n * fac(n - 1)) \x7d \x7d " ++
    "int x, a[1]; \x7b read(x); " ++
    "while (x > 0) \x7b a[0] = fac(x); print(a[0]); x = x - 1 \x7d \x7d"

/-- The module of the factorials, given three, prints six, two and one. -/
theorem compileSource_preserves_runs_factorial :
    ∃ text m, (compileSource { pointers := .typed, finalReturn := true } factorialSource).result =
        .ok text ∧ IR.Module.HasText .typed m text ∧
      m.Runs (fun n => if n = 0 then some 3 else none) [6, 2, 1] 0 := by
  have hcompiles : (compileSource { pointers := .typed, finalReturn := true }
      factorialSource).result.toOption.isSome := by decide +kernel
  have hruns : ((parseSource factorialSource).result.toOption.bind fun parsed =>
      parsed.1.outcome? 6 fun n => if n = 0 then some 3 else none) = some ([6, 2, 1], 0) := by
    decide +kernel
  cases htext : (compileSource { pointers := .typed, finalReturn := true }
      factorialSource).result with
  | error error =>
    rw [htext] at hcompiles
    cases hcompiles
  | ok text =>
    obtain ⟨p, _, _, m, _, hparse, _, _, hmodule, _, _, hiff⟩ :=
      compileSource_preserves_runs .typed htext
    rw [hparse] at hruns
    exact ⟨text, m, rfl, hmodule, (hiff _ _ _).1 (Program.runs_of_outcome? hruns)⟩

end DLang
