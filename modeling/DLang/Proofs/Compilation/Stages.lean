import DLang.Compile
import DLang.Proofs.Grammar.Plain
import DLang.Proofs.Grammar.Soundness
import DLang.Proofs.Lowering.Shape

/-!
# The stages of a compilation

A compilation that succeeds has gone through all its stages: the source text has a tree, which the
grammar derives from its tokens; analysis annotates the tree; the annotated tree is lowered to a
module; and the result is the text of that module.
-/

namespace DLang

lemma eq_ok_of_mapError_eq_ok {ε ε' α : Type} {f : ε → ε'} {x : Except ε α} {a : α}
    (h : x.mapError f = .ok a) : x = .ok a := by
  cases x with
  | ok b => exact congrArg Except.ok (Except.ok.inj h)
  | error error => cases h

lemma eq_ok_of_toOption_eq_some {ε α : Type} {x : Except ε α} {a : α} (h : x.toOption = some a) :
    x = .ok a := by
  cases x with
  | ok b => exact congrArg Except.ok (Option.some.inj h)
  | error error => cases h

/-- The tree of a source text is that of its tokens. -/
lemma result_parseSource (source : String) : (parseSource source).result =
    ((parse (scan source).tokens).result.mapError .parse >>= fun p =>
      .ok (p, (scan source).illegals)) := by
  simp only [parseSource, Logged.result_bind]
  rfl

/-- The tree of a source text is derived from its tokens. -/
lemma derives_of_parseSource {source : String} {p : Program} {illegals : List IllegalCharacter}
    (h : (parseSource source).result = .ok (p, illegals)) :
    Derives (scan source).tokens (.program p) := by
  rw [result_parseSource] at h
  obtain ⟨p', hparse, h⟩ := exists_of_bind_eq_ok h
  cases h
  exact derives_of_parse (eq_ok_of_mapError_eq_ok hparse)

/-- The tree of a source text is plain. -/
lemma plain_of_parseSource {source : String} {p : Program} {illegals : List IllegalCharacter}
    (h : (parseSource source).result = .ok (p, illegals)) : p.Plain :=
  (derives_of_parseSource h).plain

/-- The analysis of a source text is that of its tree. -/
lemma result_analyzeSource (source : String) : (analyzeSource source).result =
    ((parseSource source).result >>= fun parsed =>
      parsed.1.analyze.result.mapError .semantic >>= fun annotated =>
        .ok (annotated, parsed.2)) := by
  simp only [analyzeSource, Logged.result_bind]
  rfl

/-- The analysis of a source text ends with a parse error, or with what analysis says of its
tree. -/
lemma analyzeSource_cases (source : String) :
    (∃ e, (analyzeSource source).result = .error (.parse e)) ∨
      ∃ p illegals, (parseSource source).result = .ok (p, illegals) ∧
        ((∃ annotated, (analyzeSource source).result = .ok (annotated, illegals)) ∨
          ∃ e, p.analyze.result = .error e ∧
            (analyzeSource source).result = .error (.semantic e)) := by
  have hparse := result_parseSource source
  cases hparsed : (parse (scan source).tokens).result with
  | error e =>
    rw [hparsed] at hparse
    rw [result_analyzeSource, hparse]
    exact .inl ⟨e, rfl⟩
  | ok p =>
    rw [hparsed] at hparse
    have hvisited : (analyzeSource source).result =
        (p.analyze.result.mapError CompileError.semantic >>= fun annotated =>
          .ok (annotated, (scan source).illegals)) := by
      rw [result_analyzeSource, hparse]
      rfl
    refine .inr ⟨p, (scan source).illegals, hparse, ?_⟩
    rw [hvisited]
    cases p.analyze.result with
    | ok annotated => exact .inl ⟨annotated, rfl⟩
    | error e => exact .inr ⟨e, rfl, rfl⟩

/-- Analyses a program and writes the text of its module. -/
def Program.compile (options : Options) (p : Program) : Except CompileError String :=
  p.analyze.result.mapError .semantic >>= fun annotated =>
    (annotated.generate options).result.mapError .lowering

/-- The compilation of a source text is that of its tree. -/
lemma result_compileSource (options : Options) (source : String) :
    (compileSource options source).result =
      ((parseSource source).result >>= fun parsed => parsed.1.compile options) := by
  simp only [compileSource, Logged.result_bind, result_analyzeSource, Program.compile, bind_assoc]
  rfl

/-- What a source text is compiled to depends on its tokens only: its tree, or the first error,
comes from parsing them, and no later stage looks at the source again. -/
lemma compileSource_of_tokens_eq {source source' : String}
    (h : (scan source').tokens = (scan source).tokens) (options : Options) :
    (compileSource options source').result = (compileSource options source).result := by
  rw [result_compileSource, result_compileSource, result_parseSource, result_parseSource, h]
  cases (parse (scan source).tokens).result <;> rfl

/-- To generate is to lower and to write the text of the module. -/
lemma Program.result_generate (p : Program) (options : Options) :
    (p.generate options).result =
      (p.lower options.finalReturn).result.map fun lowered => lowered.1.text options.pointers := by
  rw [Program.generate, Logged.result_bind]
  cases (p.lower options.finalReturn).result <;> rfl

/-- A generated text is that of the module that the program is lowered to. -/
lemma Program.exists_of_generate {p : Program} {options : Options} {text : String}
    (h : (p.generate options).result = .ok text) :
    ∃ m counters, (p.lower options.finalReturn).result = .ok (m, counters) ∧
      text = m.text options.pointers := by
  rw [Program.result_generate] at h
  cases hlower : (p.lower options.finalReturn).result with
  | error e =>
    rw [hlower] at h
    cases h
  | ok lowered =>
    rw [hlower] at h
    exact ⟨lowered.1, lowered.2, rfl, (Except.ok.inj h).symm⟩

/-- A program that compiles has been analysed and lowered. -/
lemma Program.exists_of_compile {options : Options} {p : Program} {text : String}
    (h : p.compile options = .ok text) :
    ∃ annotated m counters, p.analyze.result = .ok annotated ∧
      (annotated.lower options.finalReturn).result = .ok (m, counters) ∧
      text = m.text options.pointers := by
  obtain ⟨annotated, hannotated, h⟩ := exists_of_bind_eq_ok h
  obtain ⟨m, counters, hlower, htext⟩ := Program.exists_of_generate (eq_ok_of_mapError_eq_ok h)
  exact ⟨annotated, m, counters, eq_ok_of_mapError_eq_ok hannotated, hlower, htext⟩

/-- A compilation that succeeds has gone through all stages. -/
lemma exists_of_compileSource {options : Options} {source text : String}
    (h : (compileSource options source).result = .ok text) :
    ∃ p illegals annotated m counters, (parseSource source).result = .ok (p, illegals) ∧
      p.analyze.result = .ok annotated ∧
      (annotated.lower options.finalReturn).result = .ok (m, counters) ∧
      text = m.text options.pointers := by
  rw [result_compileSource] at h
  obtain ⟨⟨p, illegals⟩, hparse, h⟩ := exists_of_bind_eq_ok h
  obtain ⟨annotated, m, counters, hannotated, hlower, htext⟩ := Program.exists_of_compile h
  exact ⟨p, illegals, annotated, m, counters, hparse, hannotated, hlower, htext⟩

end DLang
