import DLang.Proofs.Command.Delivery
import DLang.Proofs.Lexing.Concatenation

/-!
# What becomes of the source file

Without a given path, the module of a file goes to the path that has the extension `ll` in place of
the one that the source has.  The two paths lead to one file exactly if the name of the source has
this extension already (`Store.target_withExtension_eq_iff`), and nothing compares them.  Then the
module takes the place of the source.  In every other run without a given path the source is left as
it was (`Invocation.source_kept_iff`).  This holds of stores without links, and ours have none: if
`x.ll` were a link to `x.dl`, the module of `x.dl` would take its place too.

What takes the place of the source is never the same text.  A module starts with two names in a row,
as no program does, so no source is compiled to itself (`ne_of_compileSource`).
-/

namespace DLang

/-! ## File names -/

namespace Path

/-- The name at the end of a path, after the last slash. -/
def fileName (path : String) : List Char :=
  (path.toList.reverse.takeWhile (· ≠ '/')).reverse

/-- The file name ends with a dot and the extension, and something stands before them. -/
def HasExtension (path extension : String) : Prop :=
  '.' :: extension.toList <:+ fileName path ∧ fileName path ≠ '.' :: extension.toList

instance (path extension : String) : Decidable (HasExtension path extension) :=
  inferInstanceAs (Decidable (_ ∧ _))

/-- The path is a parent, which is empty or ends in a slash, and a name without slashes. -/
structure Splits (path : String) (parent name : List Char) : Prop where
  joined : path.toList = parent ++ name
  slash_notMem : '/' ∉ name
  parent_ends : parent = [] ∨ ∃ front, parent = front ++ ['/']

variable {path extension : String} {parent name : List Char}

lemma ne_of_mem_reverse {c : Char} {run : List Char} (h : c ∉ run) :
    ∀ d ∈ run.reverse, decide (d ≠ c) = true := by
  intro d hd
  have hne : d ≠ c := fun heq => h (heq ▸ List.mem_reverse.1 hd)
  simpa using hne

lemma exists_splits (path : String) : ∃ parent, Splits path parent (fileName path) := by
  refine ⟨(path.toList.reverse.dropWhile (· ≠ '/')).reverse, ?_, ?_, ?_⟩
  · rw [fileName, ← List.reverse_append, List.takeWhile_append_dropWhile, List.reverse_reverse]
  · intro hmem
    have hslash := List.all_eq_true.1 List.all_takeWhile '/' (List.mem_reverse.1 hmem)
    simp at hslash
  · cases hrest : path.toList.reverse.dropWhile (· ≠ '/') with
    | nil => exact .inl rfl
    | cons c rest =>
      have hhead := List.head?_dropWhile_not (· ≠ '/') path.toList.reverse
      rw [hrest] at hhead
      obtain rfl : c = '/' := by simpa using hhead
      exact .inr ⟨rest.reverse, List.reverse_cons⟩

namespace Splits

lemma fileName_eq (h : Splits path parent name) : fileName path = name := by
  rw [fileName, h.joined, List.reverse_append,
    List.takeWhile_append_of_pos (ne_of_mem_reverse h.slash_notMem)]
  rcases h.parent_ends with rfl | ⟨front, rfl⟩ <;> simp

/-- Another name can stand after the same parent. -/
lemma rename (h : Splits path parent name) {name' : List Char} (hslash : '/' ∉ name') :
    Splits (String.ofList (parent ++ name')) parent name' :=
  ⟨String.toList_ofList, hslash, h.parent_ends⟩

/-- Only an empty path and one that ends in a slash have no file name. -/
lemma eq_empty_or_endsInSlash (h : Splits path parent []) :
    path = "" ∨ endsInSlash path = true := by
  have hjoined : path.toList = parent := h.joined.trans (List.append_nil parent)
  rcases h.parent_ends with hparent | ⟨front, hparent⟩
  · exact .inl (String.toList_inj.1 (hjoined.trans hparent))
  · exact .inr (by simp [endsInSlash, hjoined, hparent])

/-- A path is followed to its file name. -/
lemma getLast?_components (h : Splits path parent name) (hne : name ≠ []) :
    (components path).getLast? = some (String.ofList name) := by
  have hkept : String.ofList name ≠ "" := by
    intro hempty
    exact hne (by simpa using congrArg String.toList hempty)
  have hlast : ∃ pieces, path.toList.splitOn '/' = pieces ++ [name] := by
    rw [h.joined]
    rcases h.parent_ends with rfl | ⟨front, rfl⟩
    · exact ⟨[], List.splitOn_eq_singleton h.slash_notMem⟩
    · refine ⟨front.splitOn '/', ?_⟩
      rw [List.append_assoc, List.singleton_append, List.splitOn_append_cons_self,
        List.splitOn_eq_singleton h.slash_notMem]
  obtain ⟨pieces, hpieces⟩ := hlast
  rw [components, hpieces, List.map_append, List.filter_append]
  simp [hkept]

end Splits

/-! ## Extensions -/

/-- A stem is the whole name, or what stands before the last dot if that is not nothing. -/
lemma stem_cases (name : List Char) :
    stem name = name ∨ stem name ≠ [] ∧ ∃ after, name = stem name ++ '.' :: after := by
  have hname : name =
      (name.reverse.dropWhile (· ≠ '.')).reverse ++ (name.reverse.takeWhile (· ≠ '.')).reverse := by
    rw [← List.reverse_append, List.takeWhile_append_dropWhile, List.reverse_reverse]
  rw [stem]
  split
  · rename_i before hdrop
    split
    · exact .inl rfl
    · rename_i hne
      rw [hdrop, List.reverse_cons, List.append_assoc, List.singleton_append] at hname
      exact .inr ⟨List.reverse_ne_nil_iff.2 hne, _, hname⟩
  · exact .inl rfl

lemma stem_isPrefix (name : List Char) : stem name <+: name := by
  rcases stem_cases name with h | ⟨_, after, h⟩
  · exact ⟨[], (List.append_nil _).trans h⟩
  · exact ⟨_, h.symm⟩

lemma stem_ne_nil (h : name ≠ []) : stem name ≠ [] := by
  rcases stem_cases name with hstem | ⟨hstem, _⟩
  · rwa [hstem]
  · exact hstem

/-- The stem of a name with an extension is what stands before it. -/
lemma stem_append_dot {before after : List Char} (hbefore : before ≠ []) (hafter : '.' ∉ after) :
    stem (before ++ '.' :: after) = before := by
  have hdrop : (before ++ '.' :: after).reverse.dropWhile (· ≠ '.') = '.' :: before.reverse := by
    rw [List.reverse_append, List.reverse_cons, List.append_assoc,
      List.dropWhile_append_of_pos (ne_of_mem_reverse hafter)]
    rfl
  rw [stem, hdrop]
  simp [hbefore]

/-- With another extension, a path keeps its parent and the stem of its name. -/
lemma Splits.withExtension (h : Splits path parent name) (extension : String) :
    withExtension path extension = String.ofList (parent ++
      if stem name = ['.'] then ['.', '.'] else stem name ++ '.' :: extension.toList) := by
  obtain rfl := h.fileName_eq
  have hparent : path.toList.take (path.toList.length - (fileName path).length) = parent := by
    rw [h.joined, List.length_append, Nat.add_sub_cancel, List.take_left]
  rw [Path.withExtension, ← fileName, hparent]
  split
  · rename_i hstem
    rw [hstem, List.append_assoc]
    rfl
  · apply String.toList_inj.1
    simp

lemma fileName_withExtension (path : String) (hslash : '/' ∉ extension.toList) :
    fileName (withExtension path extension) =
      if stem (fileName path) = ['.'] then ['.', '.']
      else stem (fileName path) ++ '.' :: extension.toList := by
  obtain ⟨parent, hsplits⟩ := exists_splits path
  have hstem : '/' ∉ stem (fileName path) :=
    fun hmem => hsplits.slash_notMem ((stem_isPrefix _).subset hmem)
  rw [hsplits.withExtension]
  refine (hsplits.rename ?_).fileName_eq
  split
  · decide
  · simp [hstem, hslash]

/-- A path with its own extension anew is the path, unless its name is only dots without it. -/
lemma withExtension_of_hasExtension (h : HasExtension path extension)
    (hdot : '.' ∉ extension.toList) (hdots : stem (fileName path) ≠ ['.']) :
    withExtension path extension = path := by
  obtain ⟨parent, hsplits⟩ := exists_splits path
  obtain ⟨⟨before, hname⟩, hne⟩ := h
  have hbefore : before ≠ [] := by
    rintro rfl
    exact hne hname.symm
  have hstem : stem (fileName path) = before := by
    rw [← hname, stem_append_dot hbefore hdot]
  rw [hsplits.withExtension, if_neg hdots, hstem, hname, ← hsplits.joined, String.ofList_toList]

end Path

/-! ## Locations -/

namespace Store

variable {store : Store} {path extension content : String} {location location' : Location}

/-- An entry that a path leads to has the last component as its name, and that is not dots. -/
lemma name_of_locate {directory : Location} {name : String}
    (h : store.locate path = .ok (.entry directory name)) :
    path ≠ "" ∧ (Path.components path).getLast? = some name ∧ name ≠ ".." := by
  rw [locate] at h
  split at h
  · cases h
  rename_i hpath
  split at h
  · cases h
  obtain ⟨found, _, hplace⟩ := exists_of_bind_eq_ok h
  split at hplace
  · cases hplace
  · cases hplace
  · cases hplace
  · rename_i last _ hdots hlast
    cases hplace
    exact ⟨hpath, hlast, hdots⟩

/-- A path is written at a location whose last component is the file name. -/
lemma fileName_of_target (h : store.target path = .ok location) :
    Path.fileName path ≠ [] ∧ Path.fileName path ≠ ['.', '.'] ∧
      location.getLast? = some (String.ofList (Path.fileName path)) := by
  obtain ⟨parent, hsplits⟩ := Path.exists_splits path
  obtain ⟨place, hplace, h⟩ := exists_of_bind_eq_ok h
  cases place with
  | directory => cases h
  | entry directory name =>
    obtain ⟨hpath, hlast, hdots⟩ := name_of_locate hplace
    change (if _ then _ else _) = _ at h
    split at h
    · cases h
    rename_i hslash
    have hne : Path.fileName path ≠ [] := by
      intro hnil
      rw [hnil] at hsplits
      exact hsplits.eq_empty_or_endsInSlash.elim hpath hslash
    rw [hsplits.getLast?_components hne] at hlast
    obtain rfl := Option.some.inj hlast
    split at h
    · cases h
    split at h
    · cases h
    cases h
    exact ⟨hne, fun hname => hdots (by rw [hname]), List.getLast?_concat⟩

/-- A file is read at the location at which it would be written. -/
lemma read_eq_ok_iff :
    store.read path = .ok content ↔
      ∃ location, store.target path = .ok location ∧ store.content? location = some content := by
  rw [read, target]
  cases store.locate path with
  | error e => simp [bind, Except.bind]
  | ok place =>
    cases place with
    | directory => simp [bind, Except.bind]
    | entry directory name =>
      by_cases hslash : Path.endsInSlash path = true <;>
        by_cases hlong : nameLimit < name.utf8ByteSize <;>
        by_cases hdirectory : store.isDirectory (directory ++ [name]) = true <;>
        cases hcontent : store.content? (directory ++ [name]) <;>
        simp [bind, Except.bind, hslash, hlong, hdirectory, hcontent]

/-! ## Putting a file -/

/-- Whether a directory can be entered does not depend on the files. -/
lemma enter_put {directory found : Location} {name : String}
    (h : store.enter directory name = .ok found) (other : Location) (text : String) :
    (store.put other text).enter directory name = .ok found := by
  have hsame : (store.put other text).isDirectory (directory ++ [name]) =
      store.isDirectory (directory ++ [name]) := rfl
  rw [enter] at h ⊢
  rw [hsame]
  split_ifs at h ⊢ <;> simp_all

lemma foldlM_enter_put {names : List String} {start found : Location}
    (h : names.foldlM store.enter start = .ok found) (other : Location) (text : String) :
    names.foldlM (store.put other text).enter start = .ok found := by
  induction names generalizing start with
  | nil => exact h
  | cons name names ih =>
    rw [List.foldlM_cons] at h ⊢
    obtain ⟨next, hnext, h⟩ := exists_of_bind_eq_ok h
    rw [enter_put hnext]
    exact ih h

lemma locate_put {place : Place} (h : store.locate path = .ok place) (other : Location)
    (text : String) : (store.put other text).locate path = .ok place := by
  rw [locate] at h ⊢
  split at h
  · cases h
  rename_i hempty
  split at h
  · cases h
  rename_i hlong
  obtain ⟨directory, hdirectory, h⟩ := exists_of_bind_eq_ok h
  rw [if_neg hempty, if_neg hlong]
  show List.foldlM _ _ _ >>= _ = _
  rw [foldlM_enter_put hdirectory]
  exact h

/-- A path that can be written leads to the same location after a file has been put. -/
lemma target_put (h : store.target path = .ok location) (other : Location) (text : String) :
    (store.put other text).target path = .ok location := by
  obtain ⟨place, hplace, h⟩ := exists_of_bind_eq_ok h
  rw [target, locate_put hplace]
  exact h

/-- What is read at a path changes only if something is put at its location. -/
lemma read_put (hread : store.read path = .ok content) (htarget : store.target path = .ok location)
    (other : Location) (text : String) :
    (store.put other text).read path = .ok (if location = other then text else content) := by
  obtain ⟨found, hfound, hcontent⟩ := read_eq_ok_iff.1 hread
  obtain rfl : location = found := Except.ok.inj (htarget.symm.trans hfound)
  refine read_eq_ok_iff.2 ⟨location, target_put htarget other text, ?_⟩
  rw [content?_put]
  split
  · rfl
  · exact hcontent

/-- A path with another extension leads to the same location exactly if it has that extension. -/
lemma target_withExtension_eq_iff (hdot : '.' ∉ extension.toList) (hslash : '/' ∉ extension.toList)
    (h : store.target path = .ok location)
    (h' : store.target (Path.withExtension path extension) = .ok location') :
    location = location' ↔ Path.HasExtension path extension := by
  obtain ⟨hne, _, hlast⟩ := fileName_of_target h
  obtain ⟨_, hdots, hlast'⟩ := fileName_of_target h'
  rw [Path.fileName_withExtension path hslash] at hdots hlast'
  have hstem : Path.stem (Path.fileName path) ≠ ['.'] := fun heq => hdots (if_pos heq)
  rw [if_neg hstem] at hlast'
  constructor
  · rintro rfl
    have hname := String.ofList_injective (Option.some.inj (hlast.symm.trans hlast'))
    refine ⟨⟨_, hname.symm⟩, fun hbare => Path.stem_ne_nil hne ?_⟩
    exact List.append_left_eq_self.1 (hname.symm.trans hbare)
  · intro hextension
    rw [Path.withExtension_of_hasExtension hextension hdot hstem] at h'
    exact Except.ok.inj (h.symm.trans h')

end Store

/-! ## A module is no source -/

/-- The tokens of a text start with those of its first line, if that leaves no comment open. -/
lemma tokens_scan_isPrefix {line : String} (h : OpenersClosed (segments line.toList))
    (below : String) : (scan line).tokens <+: (scan (line ++ "\n" ++ below)).tokens := by
  have htext : (line ++ "\n" ++ below).toList = line.toList ++ '\n' :: below.toList := by simp
  rw [scan, scan, htext, segments_append_lineFeed h, (Scan.ofSegments_append 1 _ _).1]
  exact List.prefix_append _ _

/-- The text of a module starts with two names. -/
lemma IR.Module.twoNames_isPrefix (m : Module) (style : PointerStyle) :
    [.identifier, .identifier] <+: (scan (m.text style)).tokens.map Token.kind := by
  have hline : ∃ line below, m.text style = line ++ "\n" ++ below ∧
      OpenersClosed (segments line.toList) ∧
      [.identifier, .identifier] <+: (scan line).tokens.map Token.kind := by
    refine ⟨_, _, String.join_cons, ?_⟩
    cases style <;> decide +kernel
  obtain ⟨line, below, htext, hclosed, hnames⟩ := hline
  rw [htext]
  exact hnames.trans ((tokens_scan_isPrefix hclosed below).map Token.kind)

/-- No program starts with two names. -/
lemma not_parse_of_twoNames_isPrefix {tokens : List Token} {p : Program}
    (hnames : [.identifier, .identifier] <+: tokens.map Token.kind) :
    (parse tokens).result ≠ .ok p := by
  intro h
  match tokens, hnames with
  | ⟨.identifier, text, line⟩ :: ⟨.identifier, text', line'⟩ :: more, _ =>
    obtain ⟨_, _, _, hprogram, _⟩ := Reading.andThen_gives.1 (⟨h, rfl⟩ : Reading.Gives _ _ _)
    obtain ⟨_, _, _, hdeclarations, _⟩ := Reading.andThen_gives.1 hprogram
    obtain ⟨_, hdecls, _⟩ := Reading.map_gives.1 hdeclarations
    rw [readDecls] at hdecls
    obtain ⟨_, _, _, hfunction, _⟩ := Reading.andThen_gives.1 (Reading.after_gives.1 hdecls)
    obtain ⟨_, _, _, hparen, _⟩ := Reading.andThen_gives.1 hfunction
    -- After the first name a function needs its opening parenthesis.
    obtain ⟨hnext, hkind⟩ := readKind_gives.1 hparen
    cases hnext
    cases hkind

/-- A source text that can be compiled is not the module it is compiled to. -/
lemma ne_of_compileSource {options : Options} {source text : String}
    (h : (compileSource options source).result = .ok text) : text ≠ source := by
  rintro rfl
  obtain ⟨p, illegals, _, m, _, hparse, _, _, htext⟩ := exists_of_compileSource h
  have hnames := m.twoNames_isPrefix options.pointers
  rw [result_parseSource] at hparse
  obtain ⟨p', hp, _⟩ := exists_of_bind_eq_ok hparse
  rw [← htext] at hnames
  exact not_parse_of_twoNames_isPrefix hnames (eq_ok_of_mapError_eq_ok hp)

/-! ## The source after a run -/

namespace Invocation

variable {invocation : Invocation} {stdin : String} {store : Store} {path : String}
  {refusal : Option String}

/-- Without a given path, nothing but a module is written to a file. -/
lemma store_run_of_emit_ne_module (houtput : invocation.output = none)
    (hemit : invocation.emit ≠ .module) : (invocation.run stdin store refusal).store = store := by
  rcases invocation.run_cases stdin store refusal with
    ⟨_, text, _, _, hleaves, _⟩ | ⟨_, _, _, hstore⟩
  · rw [destination_of_no_output houtput fun h => absurd h hemit] at hleaves
    exact hleaves.2
  · exact hstore

/-- A run that writes the module of a file leaves the module in place of the source if the source
has the extension of a module, and otherwise the source. -/
lemma read_run_of_emit_module (hinput : invocation.input = .file path)
    (houtput : invocation.output = none) (hemit : invocation.emit = .module)
    (hexit : (invocation.run stdin store refusal).exitCode = 0) :
    ∃ content text, store.read path = .ok content ∧
      (compileSource invocation.options content).result = .ok text ∧
      (invocation.run stdin store refusal).store.read path =
        .ok (if Path.HasExtension path "ll" then text else content) := by
  have hdestination : invocation.destination = .file (Path.withExtension path "ll") := by
    rw [destination, houtput, hemit, hinput]
  rcases invocation.run_cases stdin store refusal with
    ⟨content, text, ⟨hreads, htext, _⟩, _, hleaves, _⟩ | ⟨_, hfailed, _⟩
  case inr =>
    rw [hfailed] at hexit
    cases hexit
  rw [Reads, hinput] at hreads
  rw [libraryText, hemit] at htext
  rw [hdestination] at hleaves
  obtain ⟨_, location', htarget', hstore⟩ := hleaves
  obtain ⟨location, htarget, _⟩ := Store.read_eq_ok_iff.1 hreads
  have hsame : location = location' ↔ Path.HasExtension path "ll" :=
    Store.target_withExtension_eq_iff (by decide) (by decide) htarget htarget'
  refine ⟨content, text, hreads, eq_ok_of_toOption_eq_some htext, ?_⟩
  rw [hstore, Store.read_put hreads htarget]
  simp only [hsame]

/-- **The source after a run.**  A run on a file without a given path leaves the source as it was,
whether it succeeds or fails, unless it succeeds in writing a module and the name of the source has
the extension of a module already.  Then, and only then, the source is lost: the module that was
made of its content is in its place. -/
theorem source_kept_iff (invocation : Invocation) (stdin : String) (store : Store)
    (refusal : Option String) {path : String} (hinput : invocation.input = .file path)
    (houtput : invocation.output = none) :
    ((invocation.run stdin store refusal).store.read path = store.read path ↔
        ¬ ((invocation.run stdin store refusal).exitCode = 0 ∧ invocation.emit = .module ∧
          Path.HasExtension path "ll")) ∧
      ((invocation.run stdin store refusal).exitCode = 0 → invocation.emit = .module →
        Path.HasExtension path "ll" →
        ∃ content text, store.read path = .ok content ∧
          (compileSource invocation.options content).result = .ok text ∧
          (invocation.run stdin store refusal).store.read path = .ok text) := by
  by_cases hwritten : (invocation.run stdin store refusal).exitCode = 0 ∧ invocation.emit = .module
  · obtain ⟨hexit, hemit⟩ := hwritten
    obtain ⟨content, text, hread, htext, hafter⟩ :=
      read_run_of_emit_module hinput houtput hemit hexit
    by_cases hextension : Path.HasExtension path "ll"
    · rw [if_pos hextension] at hafter
      refine ⟨iff_of_false ?_ (not_not_intro ⟨hexit, hemit, hextension⟩), ?_⟩
      · rw [hafter, hread]
        exact fun h => ne_of_compileSource htext (Except.ok.inj h)
      · exact fun _ _ _ => ⟨content, text, hread, htext, hafter⟩
    · rw [if_neg hextension] at hafter
      refine ⟨iff_of_true (hafter.trans hread.symm) fun h => hextension h.2.2, ?_⟩
      exact fun _ _ h => absurd h hextension
  · have hstore : (invocation.run stdin store refusal).store = store := by
      rcases not_and_or.1 hwritten with hexit | hemit
      · rcases invocation.run_cases stdin store refusal with ⟨_, _, _, hzero, _⟩ | ⟨_, _, _, hstore⟩
        · exact absurd hzero hexit
        · exact hstore
      · exact store_run_of_emit_ne_module houtput hemit
    refine ⟨iff_of_true (by rw [hstore]) fun h => hwritten ⟨h.1, h.2.1⟩, ?_⟩
    exact fun hexit hemit _ => absurd ⟨hexit, hemit⟩ hwritten

/-- The invocation with a file and nothing else. -/
def ofFile (path : String) : Invocation :=
  { input := .file path, output := none, emit := .module, options := {}, verbosity := 0 }

/-- The source may stand in a directory whose name has the extension, and have it before its own. -/
theorem source_kept_inner_extension :
    (ofFile "v.ll/a.ll.d").input = .file "v.ll/a.ll.d" ∧ (ofFile "v.ll/a.ll.d").output = none ∧
      ((ofFile "v.ll/a.ll.d").run "" (.single "v.ll/a.ll.d" "\x7b\x7d")).exitCode = 0 ∧
      ((ofFile "v.ll/a.ll.d").run "" (.single "v.ll/a.ll.d" "\x7b\x7d")).store.read "v.ll/a.ll.d" =
        .ok "\x7b\x7d" := by
  have hextension : ¬ Path.HasExtension "v.ll/a.ll.d" "ll" := by decide +kernel
  obtain ⟨hkept, _⟩ :=
    source_kept_iff (ofFile "v.ll/a.ll.d") "" (.single "v.ll/a.ll.d" "\x7b\x7d") none rfl rfl
  have hread := hkept.2 fun h => hextension h.2.2
  exact ⟨rfl, rfl, by decide +kernel, hread.trans (by decide +kernel)⟩

/-- A source with the extension of a module is lost. -/
theorem source_overwritten :
    ((ofFile "x.ll").run "" (.single "x.ll" "\x7b print(1) \x7d")).exitCode = 0 ∧
      (Store.single "x.ll" "\x7b print(1) \x7d").read "x.ll" = .ok "\x7b print(1) \x7d" ∧
      ((ofFile "x.ll").run "" (.single "x.ll" "\x7b print(1) \x7d")).store.read "x.ll" ≠
        .ok "\x7b print(1) \x7d" := by
  decide +kernel

end Invocation

end DLang
