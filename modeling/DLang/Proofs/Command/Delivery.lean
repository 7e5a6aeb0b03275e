import DLang.Command.Invocation
import DLang.Proofs.Compilation.Stages
import DLang.Proofs.Lexing.Trimming

/-!
# A run delivers all or nothing

A run of the compile command reads its input, makes a text from it and writes the text to one
destination, in this order.  Reading changes nothing and making the text changes nothing; so all
that can fail has succeeded when something is first written, and there is only one write
(`Invocation.run_all_or_nothing`).  The steps are those of `Invocation.carryOut`, which the program
takes too; the assumption on its host is that a read or a write that fails has no effect.

The text is the one that the library makes of the source text (`Invocation.libraryText`).  The
command drops white space from the end of its input before, which no text shows.
-/

namespace DLang

/-! ## Writing to a store -/

namespace Store

/-- The location at which a path is written, if it can be. -/
def target (store : Store) (path : String) : Except FileError Location := do
  match ← store.locate path with
  | .directory => .error .isDirectory
  | .entry directory name =>
    if Path.endsInSlash path then .error .isDirectory
    else if nameLimit < name.utf8ByteSize then .error .nameTooLong
    else if store.isDirectory (directory ++ [name]) then .error .isDirectory
    else .ok (directory ++ [name])

/-- Whether a path can be written does not depend on the content. -/
lemma write_eq_map_target (store : Store) (path content : String) :
    store.write path content =
      (store.target path).map fun location => store.put location content := by
  rw [write, target]
  cases store.locate path with
  | error e => rfl
  | ok place =>
    cases place with
    | directory => rfl
    | entry directory name =>
      show (if _ then _ else _) = Except.map _ (if _ then _ else _)
      split
      · rfl
      split
      · rfl
      split <;> rfl

/-- Putting a file changes the content at its location and no other. -/
lemma content?_put (store : Store) (location other : Location) (content : String) :
    (store.put location content).content? other =
      if other = location then some content else store.content? other := by
  split
  · rename_i h
    rw [h, content?_put_self]
  · rename_i h
    exact content?_put_of_ne store content h

end Store

/-! ## The text -/

/-- The analysed tree of a source text depends on its tokens only. -/
lemma analyzeSource_of_tokens_eq {source source' : String}
    (h : (scan source').tokens = (scan source).tokens) :
    (analyzeSource source').result.map Prod.fst = (analyzeSource source).result.map Prod.fst := by
  rw [result_analyzeSource, result_analyzeSource, result_parseSource, result_parseSource, h]
  cases (parse (scan source).tokens).result with
  | error e => rfl
  | ok p =>
    show Except.map _ (p.analyze.result.mapError CompileError.semantic >>= _) =
      Except.map _ (p.analyze.result.mapError CompileError.semantic >>= _)
    cases p.analyze.result <;> rfl

namespace Invocation

/-- The text that the library makes of a source text: the lines of its tokens, its analysed tree or
its module, as far as there is one. -/
def libraryText (invocation : Invocation) (source : String) : Option String :=
  match invocation.emit with
  | .tokens => some (String.join ((scan source).tokens.map fun token => token.listing ++ "\n"))
  | .tree => (analyzeSource source).result.toOption.map fun analyzed => analyzed.1.text ++ "\n"
  | .module => (compileSource invocation.options source).result.toOption

/-- The command makes the text that the library makes, or fails where it fails. -/
lemma toOption_produce (invocation : Invocation) (content : String) :
    (invocation.produce content).result.toOption = invocation.libraryText content := by
  have htokens := tokens_scan_trimEnd content
  rw [produce, libraryText]
  cases invocation.emit with
  | tokens =>
    simp only [Logged.result_bind, lexSource]
    rw [← htokens]
    rfl
  | tree =>
    have htree := analyzeSource_of_tokens_eq htokens
    have hshown (x : Except CompileError (Program × List IllegalCharacter)) :
        x.toOption.map (fun analyzed => analyzed.1.text ++ "\n") =
          (x.map Prod.fst).toOption.map fun p => p.text ++ "\n" := by
      cases x <;> rfl
    simp only [Logged.result_bind, Logged.mapError]
    rw [hshown, ← htree]
    cases (analyzeSource (Text.trimEnd content)).result <;> rfl
  | module =>
    rw [← compileSource_of_tokens_eq htokens]
    simp only [Logged.mapError]
    cases (compileSource invocation.options (Text.trimEnd content)).result <;> rfl

end Invocation

/-! ## The outcome -/

/-- A text has gone to a destination and nowhere else: what was at any other place is there still,
and there is nothing at a place where nothing was. -/
def Outcome.Delivers (outcome : Outcome) (store : Store) (text : String) : Destination → Prop
  | .standardOutput => outcome.stdout = text ∧ outcome.store = store
  | .file path =>
    outcome.stdout = "" ∧ outcome.store.directories = store.directories ∧
      ∃ location, store.target path = .ok location ∧
        ∀ other, outcome.store.content? other =
          if other = location then some text else store.content? other

/-! ## Steps in a world -/

section Steps

variable {α β : Type} {step : ExceptT Report (StateM World) α}
  {next : α → ExceptT Report (StateM World) β} {world world' : World}

lemma bind_apply : (step >>= next) world = ExceptT.bindCont next (step world).1 (step world).2 :=
  rfl

/-- After a step that succeeds the rest goes on in the world that the step leaves. -/
lemma bind_of_ok {a : α} (h : step world = (.ok a, world')) :
    (step >>= next) world = next a world' := by
  rw [bind_apply, h]
  rfl

/-- A step that fails is the last one. -/
lemma bind_of_error {report : Report} (h : step world = (.error report, world')) :
    (step >>= next) world = (.error report, world') := by
  rw [bind_apply, h]
  rfl

/-- The cause of a failure becomes a report. -/
lemma adapt_of_eq {action : ExceptT String (StateM World) α} {result : Except String α}
    (h : action world = (result, world')) (report : String → Report) :
    action.adapt report world = (result.mapError report, world') := by
  have hadapt : action.adapt report world =
      ((action world).1.mapError report, (action world).2) := rfl
  rw [hadapt, h]

end Steps

namespace Invocation

variable (invocation : Invocation) (stdin : String) (store : Store) (refusal : Option String)

/-- The content of the input, from standard input or from a file of the store. -/
def Reads (content : String) : Prop :=
  match invocation.input with
  | .standard => content = stdin
  | .file path => store.read path = .ok content

/-- Standard output takes a text, or a path can be written. -/
def Writable : Destination → Prop
  | .standardOutput => refusal = none
  | .file path => ∃ location, store.target path = .ok location

/-- Standard output and the files after a text was written to a destination. -/
def Leaves (text stdout : String) (store' : Store) : Destination → Prop
  | .standardOutput => stdout = text ∧ store' = store
  | .file path =>
    stdout = "" ∧ ∃ location, store.target path = .ok location ∧ store' = store.put location text

/-- Reading changes nothing. -/
lemma readInput_cases (world : World) :
    (∃ content, invocation.Reads stdin world.store content ∧
        invocation.readInput (.ofWorld stdin refusal) world = (.ok content, world)) ∨
      (∀ content, ¬ invocation.Reads stdin world.store content) ∧
        ∃ report, invocation.readInput (.ofWorld stdin refusal) world = (.error report, world) := by
  unfold Reads readInput
  cases invocation.input with
  | standard => exact .inl ⟨stdin, rfl, rfl⟩
  | file path =>
    have hstep : (Host.ofWorld stdin refusal).readFile path world =
        ((world.store.read path).mapError FileError.message, world) := rfl
    cases hread : world.store.read path with
    | ok content =>
      rw [hread] at hstep
      exact .inl ⟨content, hread, adapt_of_eq hstep _⟩
    | error error =>
      rw [hread] at hstep
      refine .inr ⟨fun content hcontent => ?_, _, adapt_of_eq hstep _⟩
      cases hread.symm.trans hcontent

/-- The text is written to the destination, or nothing is changed. -/
lemma deliver_cases (text : String) {world : World} (hstdout : world.stdout = "") :
    (Writable world.store refusal invocation.destination ∧
        ∃ world', invocation.deliver (.ofWorld stdin refusal) text world = (.ok (), world') ∧
          Leaves world.store text world'.stdout world'.store invocation.destination) ∨
      ¬ Writable world.store refusal invocation.destination ∧
        ∃ report, invocation.deliver (.ofWorld stdin refusal) text world =
          (.error report, world) := by
  unfold deliver
  cases invocation.destination with
  | standardOutput =>
    cases refusal with
    | none =>
      have hstep : (Host.ofWorld stdin none).print text world =
          (.ok (), { world with stdout := world.stdout ++ text }) := rfl
      refine .inl ⟨rfl, _, adapt_of_eq hstep _, ?_, rfl⟩
      show world.stdout ++ text = text
      rw [hstdout, String.empty_append]
    | some cause =>
      have hstep : (Host.ofWorld stdin (some cause)).print text world = (.error cause, world) := rfl
      exact .inr ⟨Option.some_ne_none cause, _, adapt_of_eq hstep _⟩
  | file path =>
    have hwrite := world.store.write_eq_map_target path text
    cases htarget : world.store.target path with
    | ok location =>
      rw [htarget] at hwrite
      have hstep : (Host.ofWorld stdin refusal).writeFile path text world =
          (.ok (), { world with store := world.store.put location text }) := by
        simp only [Host.ofWorld, hwrite, Except.map]
      exact .inl ⟨⟨location, htarget⟩, _, bind_of_ok (adapt_of_eq hstep _), hstdout, location,
        htarget, rfl⟩
    | error error =>
      rw [htarget] at hwrite
      have hstep : (Host.ofWorld stdin refusal).writeFile path text world =
          (.error error.message, world) := by
        simp only [Host.ofWorld, hwrite, Except.map]
      refine .inr ⟨?_, _, bind_of_error (adapt_of_eq hstep _)⟩
      rintro ⟨location, hlocation⟩
      cases htarget.symm.trans hlocation

/-- All steps succeed. -/
def Succeeds (content text : String) : Prop :=
  invocation.Reads stdin store content ∧ invocation.libraryText content = some text ∧
    Writable store refusal invocation.destination

lemma Reads.unique {invocation : Invocation} {stdin : String} {store : Store}
    {content content' : String} (h : invocation.Reads stdin store content)
    (h' : invocation.Reads stdin store content') : content = content' := by
  unfold Reads at h h'
  cases hinput : invocation.input with
  | standard =>
    rw [hinput] at h h'
    exact h.trans h'.symm
  | file path =>
    rw [hinput] at h h'
    exact Except.ok.inj (h.symm.trans h')

/-- All steps succeed and leave the text at its destination, or one of them cannot and then standard
output and the files are as they were. -/
lemma carryOut_cases {world : World} (hstdout : world.stdout = "") :
    (∃ content text world', invocation.Succeeds stdin world.store refusal content text ∧
        invocation.carryOut (.ofWorld stdin refusal) world = (.ok (), world') ∧
        Leaves world.store text world'.stdout world'.store invocation.destination) ∨
      (∀ content text, ¬ invocation.Succeeds stdin world.store refusal content text) ∧
        ∃ report world', invocation.carryOut (.ofWorld stdin refusal) world =
            (.error report, world') ∧
          world'.stdout = "" ∧ world'.store = world.store := by
  rcases invocation.readInput_cases stdin refusal world with
    ⟨content, hreads, hread⟩ | ⟨hnone, report, hread⟩
  · let logged : World := { world with
      events := world.events ++ (invocation.produce content).events }
    have hcarry : invocation.carryOut (.ofWorld stdin refusal) world =
        (ExceptT.mk (pure (invocation.produce content).result) >>=
          invocation.deliver (.ofWorld stdin refusal)) logged := (bind_of_ok hread).trans rfl
    have hlibrary := invocation.toOption_produce content
    rw [hcarry]
    cases hproduce : (invocation.produce content).result with
    | error report =>
      rw [hproduce] at hlibrary
      refine .inr ⟨fun content' text h => ?_, report, logged, rfl, hstdout, rfl⟩
      obtain rfl := hreads.unique h.1
      cases hlibrary.trans h.2.1
    | ok text =>
      rw [hproduce] at hlibrary
      have hnext : (ExceptT.mk (pure (.ok text)) >>=
          invocation.deliver (.ofWorld stdin refusal)) logged =
            invocation.deliver (.ofWorld stdin refusal) text logged := rfl
      rw [hnext]
      rcases invocation.deliver_cases stdin refusal text (show logged.stdout = "" from hstdout) with
        ⟨hwritable, world', hdeliver, hleaves⟩ | ⟨hnot, report, hdeliver⟩
      · exact .inl ⟨content, text, world', ⟨hreads, hlibrary.symm, hwritable⟩, hdeliver, hleaves⟩
      · exact .inr ⟨fun _ _ h => hnot h.2.2, report, logged, hdeliver, hstdout, rfl⟩
  · exact .inr ⟨fun content _ h => hnone content h.1, report, world, bind_of_error hread, hstdout,
      rfl⟩

/-- A run succeeds if all its steps can, and leaves the text at its destination.  Otherwise it
leaves everything as it was. -/
lemma run_cases :
    (∃ content text, invocation.Succeeds stdin store refusal content text ∧
        (invocation.run stdin store refusal).exitCode = 0 ∧
        Leaves store text (invocation.run stdin store refusal).stdout
          (invocation.run stdin store refusal).store invocation.destination ∧
        ∃ events, (invocation.run stdin store refusal).stderr =
          renderLog (.ofVerbosity invocation.verbosity) events) ∨
      (∀ content text, ¬ invocation.Succeeds stdin store refusal content text) ∧
        (invocation.run stdin store refusal).exitCode = 1 ∧
        (invocation.run stdin store refusal).stdout = "" ∧
        (invocation.run stdin store refusal).store = store := by
  have hstart : (World.ofStore store).stdout = "" := rfl
  rcases invocation.carryOut_cases stdin refusal hstart with
    ⟨content, text, world', hsucceeds, hcarry, hleaves⟩ | ⟨hnot, report, world', hcarry, hkept⟩
  · refine .inl ⟨content, text, hsucceeds, ?_⟩
    rw [run, hcarry]
    exact ⟨rfl, hleaves, _, rfl⟩
  · refine .inr ⟨hnot, ?_⟩
    rw [run, hcarry]
    exact ⟨rfl, hkept⟩

lemma Leaves.delivers {store : Store} {text : String} {outcome : Outcome}
    {destination : Destination} (h : Leaves store text outcome.stdout outcome.store destination) :
    outcome.Delivers store text destination := by
  cases destination with
  | standardOutput => exact h
  | file path =>
    obtain ⟨hstdout, location, htarget, hstore⟩ := h
    refine ⟨hstdout, by rw [hstore]; rfl, location, htarget, fun other => ?_⟩
    rw [hstore, Store.content?_put]

/-- Without a given path, only a module of a file goes elsewhere than to standard output. -/
lemma destination_of_no_output {invocation : Invocation} (houtput : invocation.output = none)
    (h : invocation.emit = .module → invocation.input = .standard) :
    invocation.destination = .standardOutput := by
  rw [destination, houtput]
  cases hemit : invocation.emit with
  | module => rw [h hemit]
  | _ => rfl

/-- **A run delivers all or nothing.**  If it fails, nothing is written and every file is as it was.
If it succeeds, the whole text that the library makes of the content of the input has gone to one
destination: to the path that is given; else beside the source, if it is the module of a file; else
to standard output.  Apart from the log nothing else has changed.  It succeeds exactly if the input
can be read, the library makes a text of it, and the destination can be written. -/
theorem run_all_or_nothing :
    ((invocation.run stdin store refusal).exitCode ≠ 0 →
        (invocation.run stdin store refusal).stdout = "" ∧
        (invocation.run stdin store refusal).store = store) ∧
      ((invocation.run stdin store refusal).exitCode = 0 →
        (∃ events, (invocation.run stdin store refusal).stderr =
          renderLog (.ofVerbosity invocation.verbosity) events) ∧
        ∃ content text, invocation.Reads stdin store content ∧
          invocation.libraryText content = some text ∧
          (∀ path, invocation.output = some path →
            (invocation.run stdin store refusal).Delivers store text (.file path)) ∧
          (∀ path, invocation.output = none → invocation.emit = .module →
            invocation.input = .file path →
            (invocation.run stdin store refusal).Delivers store text
              (.file (Path.withExtension path "ll"))) ∧
          (invocation.output = none → (invocation.emit = .module → invocation.input = .standard) →
            (invocation.run stdin store refusal).Delivers store text .standardOutput)) ∧
      ((invocation.run stdin store refusal).exitCode = 0 ↔
        ∃ content text, invocation.Reads stdin store content ∧
          invocation.libraryText content = some text ∧
          (∀ path, invocation.destination = .file path →
            ∃ location, store.target path = .ok location) ∧
          (invocation.destination = .standardOutput → refusal = none)) := by
  have hwritable : Writable store refusal invocation.destination ↔
      (∀ path, invocation.destination = .file path → ∃ location, store.target path = .ok location) ∧
        (invocation.destination = .standardOutput → refusal = none) := by
    cases invocation.destination <;> simp [Writable]
  simp only [← hwritable]
  rcases invocation.run_cases stdin store refusal with
    ⟨content, text, hsucceeds, hexit, hleaves, hlog⟩ | ⟨hnot, hexit, hkept⟩
  · refine ⟨fun hne => absurd hexit hne, fun _ => ?_, fun _ => ⟨content, text, hsucceeds⟩,
      fun _ => hexit⟩
    have hdelivers := hleaves.delivers
    refine ⟨hlog, content, text, hsucceeds.1, hsucceeds.2.1, fun path houtput => ?_,
      fun path houtput hemit hinput => ?_, fun houtput hrest => ?_⟩
    · rwa [destination, houtput] at hdelivers
    · rwa [destination, houtput, hemit, hinput] at hdelivers
    · rwa [destination_of_no_output houtput hrest] at hdelivers
  · have hfailed : (invocation.run stdin store refusal).exitCode ≠ 0 := by
      rw [hexit]
      decide
    refine ⟨fun _ => hkept, fun hzero => absurd hzero hfailed, fun hzero => absurd hzero hfailed,
      ?_⟩
    rintro ⟨content, text, hsucceeds⟩
    exact absurd hsucceeds (hnot content text)

end Invocation

end DLang
