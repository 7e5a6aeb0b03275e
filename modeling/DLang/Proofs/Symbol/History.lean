import DLang.Symbol.Table
import Mathlib.Data.List.Count
import Mathlib.Data.List.Forall2
import Mathlib.Data.List.Infix
import Mathlib.Data.List.Nodup
import Mathlib.Data.List.Perm.Basic

/-!
# A symbol table and its history

Everything that a symbol table answers is determined by the operations made on it, in order: scopes
entered, scopes left, symbols added.  This file says how, in terms of the history alone.  An
operation is known by its place in the history, and a scope by the place where it was entered.

* A scope is open if, since it was entered, scopes were never left more often than entered
  (`IsOpen`).  The innermost one is the open scope that was entered last.
* A symbol is added to the scope that is innermost at that time (`AddedTo`).  If there is none, it
  is added to no scope.
* A name stands for the latest symbol added under it to the innermost open scope that has one
  (`StandsFor`).

A history may leave more scopes than it enters and may add symbols while no scope is open; such
operations do nothing.  `Tracks` relates the places of the open scopes to the stack of a table, one
by one.  Each operation preserves the relation (`Tracks.apply`), so it holds after every history,
and the answers of the table are read off it (`after_reflects_history`).
-/

namespace DLang

namespace SymbolTable

/-! ## Histories -/

/-- An operation that may change a table. -/
inductive Op where
  | enter
  | exit
  | add (symbol : Symbol)
  deriving DecidableEq

/-- The table after an operation.  Adding a symbol while no scope is open fails and leaves the table
as it is. -/
def apply (table : SymbolTable) : Op → SymbolTable
  | .enter => table.enter
  | .exit => table.exit
  | .add symbol => (table.add? symbol).getD table

/-- The table after some operations on the empty one. -/
def after (history : List Op) : SymbolTable :=
  history.foldl apply .empty

/-- At no point of a run have more scopes been left than entered. -/
def StaysInside (run : List Op) : Prop :=
  ∀ front, front <+: run → front.count .exit ≤ front.count .enter

instance (run : List Op) : Decidable (StaysInside run) :=
  decidable_of_iff (∀ front ∈ run.inits, front.count .exit ≤ front.count .enter)
    (forall_congr' fun front => by rw [List.mem_inits])

/-- A run that stays inside and leaves every scope that it enters. -/
def Balanced (run : List Op) : Prop :=
  StaysInside run ∧ run.count .exit = run.count .enter

/-- The operation at `i` has entered a scope, and the scope is still open at the end. -/
def IsOpen (history : List Op) (i : Nat) : Prop :=
  history[i]? = some .enter ∧ StaysInside (history.drop (i + 1))

instance (history : List Op) (i : Nat) : Decidable (IsOpen history i) :=
  inferInstanceAs (Decidable (_ ∧ _))

/-- The scope entered at `i` is the innermost one that is still open at the end. -/
def IsInnermost (history : List Op) (i : Nat) : Prop :=
  IsOpen history i ∧ ∀ j, IsOpen history j → j ≤ i

/-- The operation at `k` adds a symbol to the scope entered at `i`. -/
def AddedTo (history : List Op) (i k : Nat) (symbol : Symbol) : Prop :=
  history[k]? = some (.add symbol) ∧ IsInnermost (history.take k) i

/-- The latest symbol that was added under a name to the scope entered at `i`. -/
def IsLatest (history : List Op) (i : Nat) (name : String) (symbol : Symbol) : Prop :=
  symbol.name = name ∧ ∃ k, AddedTo history i k symbol ∧
    ∀ k' other, AddedTo history i k' other → other.name = name → k' ≤ k

/-- Nothing was added under a name to the scope entered at `i`. -/
def NeverAdded (history : List Op) (i : Nat) (name : String) : Prop :=
  ∀ k symbol, AddedTo history i k symbol → symbol.name ≠ name

/-- What a name stands for after a history: the latest symbol added under it to the innermost scope,
or to the innermost of the open scopes that have one. -/
def StandsFor (history : List Op) (name : String) : Reach → Symbol → Prop
  | .innermost, symbol => ∃ i, IsInnermost history i ∧ IsLatest history i name symbol
  | .enclosing, symbol =>
    ∃ i, IsOpen history i ∧ IsLatest history i name symbol ∧
      ∀ j, IsOpen history j → i < j → NeverAdded history j name

/-! ## Histories with one more operation -/

variable {history run : List Op} {op : Op} {i j k : Nat} {symbol : Symbol} {name : String}

lemma after_snoc (history : List Op) (op : Op) :
    after (history ++ [op]) = (after history).apply op := by
  rw [after, List.foldl_append]
  rfl

lemma StaysInside.count_le (h : StaysInside run) : run.count .exit ≤ run.count .enter :=
  h run List.prefix_rfl

lemma staysInside_nil : StaysInside [] := by
  intro front hfront
  rw [List.prefix_nil.1 hfront]
  exact Nat.le_refl _

lemma staysInside_snoc :
    StaysInside (run ++ [op]) ↔
      StaysInside run ∧ (run ++ [op]).count .exit ≤ (run ++ [op]).count .enter := by
  constructor
  · intro h
    refine ⟨fun front hfront => h front ?_, h.count_le⟩
    exact hfront.trans (List.prefix_append run [op])
  · rintro ⟨h, hcount⟩ front hfront
    rcases List.prefix_concat_iff.1 hfront with rfl | hprefix
    · exact hcount
    · exact h front hprefix

/-- A scope stays open unless it is left: then no scope that was entered after it is open. -/
lemma isOpen_snoc :
    IsOpen (history ++ [op]) i ↔
      (IsOpen history i ∧ (op = .exit →
        (history.drop (i + 1)).count .exit < (history.drop (i + 1)).count .enter)) ∨
      (op = .enter ∧ i = history.length) := by
  unfold IsOpen
  rcases Nat.lt_trichotomy i history.length with hlt | rfl | hgt
  · have hne : i ≠ history.length := Nat.ne_of_lt hlt
    have hdrop : (history ++ [op]).drop (i + 1) = history.drop (i + 1) ++ [op] :=
      List.drop_append_of_le_length hlt
    rw [List.getElem?_append_left hlt, hdrop, staysInside_snoc]
    simp only [hne, and_false, or_false, and_assoc]
    refine and_congr_right fun _ => and_congr_right fun hinside => ?_
    have hcount := hinside.count_le
    rw [List.count_append, List.count_append]
    cases op with
    | enter => simp; omega
    | exit => exact ⟨fun h _ => h, fun h => h rfl⟩
    | add symbol => simpa using hcount
  · simp [staysInside_nil]
  · have hnone : history[i]? = none := List.getElem?_eq_none (Nat.le_of_lt hgt)
    have hnone' : (history ++ [op])[i]? = none :=
      List.getElem?_eq_none (by rw [List.length_append]; exact hgt)
    have hne : i ≠ history.length := Nat.ne_of_gt hgt
    simp [hnone, hnone', hne]

lemma IsOpen.lt_length (h : IsOpen history i) : i < history.length :=
  (List.getElem?_eq_some_iff.1 h.1).1

lemma addedTo_snoc :
    AddedTo (history ++ [op]) i k symbol ↔
      AddedTo history i k symbol ∨
        (op = .add symbol ∧ k = history.length ∧ IsInnermost history i) := by
  unfold AddedTo
  rcases Nat.lt_trichotomy k history.length with hlt | rfl | hgt
  · have hne : k ≠ history.length := Nat.ne_of_lt hlt
    rw [List.getElem?_append_left hlt, List.take_append_of_le_length (Nat.le_of_lt hlt)]
    simp [hne]
  · simp
  · have hnone : history[k]? = none := List.getElem?_eq_none (Nat.le_of_lt hgt)
    have hnone' : (history ++ [op])[k]? = none :=
      List.getElem?_eq_none (by rw [List.length_append]; exact hgt)
    have hne : k ≠ history.length := Nat.ne_of_gt hgt
    simp [hnone, hnone', hne]

lemma AddedTo.lt_length (h : AddedTo history i k symbol) : k < history.length :=
  (List.getElem?_eq_some_iff.1 h.1).1

/-- A symbol is added to a scope only after the scope was entered. -/
lemma AddedTo.lt (h : AddedTo history i k symbol) : i < k := by
  have hlt := h.2.1.lt_length
  rw [List.length_take] at hlt
  omega

/-- An operation that adds nothing to a scope does not change which symbols were added to it. -/
lemma addedTo_snoc_of_not (h : ∀ symbol, op = .add symbol → ¬ IsInnermost history i) :
    AddedTo (history ++ [op]) i k symbol ↔ AddedTo history i k symbol := by
  rw [addedTo_snoc]
  refine or_iff_left ?_
  rintro ⟨hop, _, hinnermost⟩
  exact h symbol hop hinnermost

lemma IsLatest.unique {symbol' : Symbol} (h : IsLatest history i name symbol)
    (h' : IsLatest history i name symbol') : symbol' = symbol := by
  obtain ⟨hname, k, hadded, hlast⟩ := h
  obtain ⟨hname', k', hadded', hlast'⟩ := h'
  obtain rfl : k' = k :=
    Nat.le_antisymm (hlast k' symbol' hadded' hname') (hlast' k symbol hadded hname)
  have hsame := hadded'.1.symm.trans hadded.1
  exact Op.add.inj (Option.some.inj hsame)

lemma IsLatest.not_neverAdded (h : IsLatest history i name symbol) :
    ¬ NeverAdded history i name := by
  obtain ⟨hname, k, hadded, _⟩ := h
  exact fun hnever => hnever k symbol hadded hname

/-! ## Tables that track a history -/

/-- A scope finds under each name what was added to the scope entered at `i`. -/
structure Scope.Tracks (history : List Op) (i : Nat) (scope : Scope) : Prop where
  latest : ∀ name symbol, scope.find? name = some symbol → IsLatest history i name symbol
  never : ∀ name, scope.find? name = none → NeverAdded history i name

/-- The scopes of a table are the open scopes of a history, which were entered at `places`. -/
structure Tracks (history : List Op) (places : List Nat) (table : SymbolTable) : Prop where
  mem_iff : ∀ i, i ∈ places ↔ IsOpen history i
  descending : places.Pairwise (· > ·)
  /-- As many scopes were entered after a scope and are still open as stand in front of it. -/
  inside : ∀ m i, places[m]? = some i →
    (history.drop (i + 1)).count .enter = (history.drop (i + 1)).count .exit + m
  scopes : List.Forall₂ (Scope.Tracks history) places table.scopes

variable {places : List Nat} {table : SymbolTable} {scope : Scope}

lemma Scope.Tracks.snoc (h : Scope.Tracks history i scope)
    (hop : ∀ symbol, op = .add symbol → ¬ IsInnermost history i) :
    Scope.Tracks (history ++ [op]) i scope := by
  constructor
  · intro name symbol hfind
    obtain ⟨hname, k, hadded, hlast⟩ := h.latest name symbol hfind
    refine ⟨hname, k, (addedTo_snoc_of_not hop).2 hadded, fun k' other hother => ?_⟩
    exact hlast k' other ((addedTo_snoc_of_not hop).1 hother)
  · intro name hfind k symbol hadded
    exact h.never name hfind k symbol ((addedTo_snoc_of_not hop).1 hadded)

/-- A scope that was just entered is empty. -/
lemma Scope.tracks_nil : Scope.Tracks (history ++ [.enter]) history.length [] := by
  refine ⟨fun _ _ hfind => (nomatch hfind), fun name _ k symbol hadded => ?_⟩
  have hlt := hadded.lt
  have hlt' := hadded.lt_length
  rw [List.length_append, List.length_singleton] at hlt'
  omega

/-- The innermost scope gets the symbol that is added. -/
lemma Scope.Tracks.add (h : Scope.Tracks history i scope) (hinnermost : IsInnermost history i)
    (symbol : Symbol) : Scope.Tracks (history ++ [.add symbol]) i (symbol :: scope) := by
  have hnew : AddedTo (history ++ [.add symbol]) i history.length symbol :=
    addedTo_snoc.2 (.inr ⟨rfl, rfl, hinnermost⟩)
  -- Whatever else was added was added before.
  have hold : ∀ {k other}, AddedTo (history ++ [.add symbol]) i k other →
      AddedTo history i k other ∨ (other = symbol ∧ k = history.length) := by
    intro k other hadded
    rcases addedTo_snoc.1 hadded with hadded | ⟨hop, hk, _⟩
    · exact .inl hadded
    · exact .inr ⟨(Op.add.inj hop).symm, hk⟩
  constructor
  · intro name found hfind
    by_cases hname : symbol.name = name
    · have hfound : found = symbol := by
        simpa [Scope.find?, hname, eq_comm] using hfind
      subst hfound
      refine ⟨hname, history.length, hnew, fun k other hadded _ => ?_⟩
      rcases hold hadded with hadded | ⟨_, rfl⟩
      · exact Nat.le_of_lt hadded.lt_length
      · exact Nat.le_refl _
    · have hfind : scope.find? name = some found := by
        simpa [Scope.find?, hname] using hfind
      obtain ⟨hfound, k, hadded, hlast⟩ := h.latest name found hfind
      refine ⟨hfound, k, addedTo_snoc.2 (.inl hadded), fun k' other hother hother' => ?_⟩
      rcases hold hother with hother | ⟨rfl, _⟩
      · exact hlast k' other hother hother'
      · exact absurd hother' hname
  · intro name hfind k other hadded
    have hname : symbol.name ≠ name := by
      rintro rfl
      simp [Scope.find?] at hfind
    have hfind : scope.find? name = none := by
      simpa [Scope.find?, hname] using hfind
    rcases hold hadded with hadded | ⟨rfl, _⟩
    · exact h.never name hfind k other hadded
    · exact hname

lemma tracks_empty : Tracks [] [] .empty := by
  refine ⟨fun i => ?_, .nil, fun m i h => (nomatch h), .nil⟩
  simp [IsOpen]

namespace Tracks

lemma isInnermost_iff (h : Tracks history (i :: places) table) :
    IsInnermost history j ↔ j = i := by
  have hopen : IsOpen history i := (h.mem_iff i).1 List.mem_cons_self
  have hlast : ∀ j, IsOpen history j → j ≤ i := by
    intro j hj
    rcases List.mem_cons.1 ((h.mem_iff j).2 hj) with rfl | hj
    · exact Nat.le_refl _
    · exact Nat.le_of_lt ((List.pairwise_cons.1 h.descending).1 j hj)
  constructor
  · rintro ⟨hj, hall⟩
    exact Nat.le_antisymm (hlast j hj) (hall i hopen)
  · rintro rfl
    exact ⟨hopen, hlast⟩

lemma not_isInnermost (h : Tracks history [] table) : ¬ IsInnermost history i :=
  fun hinnermost => nomatch (h.mem_iff i).2 hinnermost.1

/-- What the scope in front has seen is balanced, and what any other has seen is not. -/
lemma mem_tail_iff (h : Tracks history places table) :
    i ∈ places.tail ↔ IsOpen history i ∧
      (history.drop (i + 1)).count .exit < (history.drop (i + 1)).count .enter := by
  constructor
  · intro hi
    obtain ⟨m, hm⟩ := List.mem_iff_getElem?.1 hi
    rw [List.getElem?_tail] at hm
    have hcount := h.inside (m + 1) i hm
    exact ⟨(h.mem_iff i).1 (List.mem_of_mem_tail hi), by omega⟩
  · rintro ⟨hopen, hlt⟩
    obtain ⟨m, hm⟩ := List.mem_iff_getElem?.1 ((h.mem_iff i).2 hopen)
    have hcount := h.inside m i hm
    obtain ⟨n, rfl⟩ : ∃ n, m = n + 1 := Nat.exists_eq_succ_of_ne_zero (by omega)
    rw [← List.getElem?_tail] at hm
    exact List.mem_of_getElem? hm

lemma enter (h : Tracks history places table) :
    Tracks (history ++ [.enter]) (history.length :: places) table.enter := by
  refine ⟨fun i => ?_, ?_, ?_, ?_⟩
  · rw [isOpen_snoc, List.mem_cons, h.mem_iff]
    simp [or_comm]
  · refine List.pairwise_cons.2 ⟨fun i hi => ?_, h.descending⟩
    exact ((h.mem_iff i).1 hi).lt_length
  · intro m i hm
    cases m with
    | zero =>
      obtain rfl : history.length = i := Option.some.inj hm
      simp
    | succ m =>
      have hi : places[m]? = some i := hm
      have hlt := ((h.mem_iff i).1 (List.mem_of_getElem? hi)).lt_length
      have hcount := h.inside m i hi
      rw [List.drop_append_of_le_length hlt]
      simp
      omega
  · refine .cons Scope.tracks_nil (h.scopes.imp fun i scope hscope => ?_)
    exact hscope.snoc (by simp)

lemma exit (h : Tracks history places table) :
    Tracks (history ++ [.exit]) places.tail table.exit := by
  refine ⟨fun i => ?_, h.descending.tail, ?_, ?_⟩
  · rw [isOpen_snoc, h.mem_tail_iff]
    simp
  · intro m i hm
    rw [List.getElem?_tail] at hm
    have hlt := ((h.mem_iff i).1 (List.mem_of_getElem? hm)).lt_length
    have hcount := h.inside (m + 1) i hm
    rw [List.drop_append_of_le_length hlt]
    simp
    omega
  · obtain ⟨scopes⟩ := table
    cases h.scopes with
    | nil => exact .nil
    | cons _ hrest => exact hrest.imp fun i scope hscope => hscope.snoc (by simp)

lemma add (h : Tracks history places table) (symbol : Symbol) :
    Tracks (history ++ [.add symbol]) places ((table.add? symbol).getD table) := by
  refine ⟨fun i => ?_, h.descending, ?_, ?_⟩
  · rw [isOpen_snoc, h.mem_iff]
    simp
  · intro m i hm
    have hlt := ((h.mem_iff i).1 (List.mem_of_getElem? hm)).lt_length
    have hcount := h.inside m i hm
    rw [List.drop_append_of_le_length hlt]
    simpa using hcount
  · obtain ⟨scopes⟩ := table
    cases h.scopes with
    | nil => exact .nil
    | @cons i scope rest outer hscope hrest =>
      have hinnermost : IsInnermost history i := h.isInnermost_iff.2 rfl
      refine .cons (hscope.add hinnermost symbol) ?_
      rw [List.forall₂_iff_zip] at hrest ⊢
      refine ⟨hrest.1, fun {j scope'} hmem => (hrest.2 hmem).snoc fun _ _ hj => ?_⟩
      have hj : j = i := h.isInnermost_iff.1 hj
      have hlt := (List.pairwise_cons.1 h.descending).1 j (List.of_mem_zip hmem).1
      omega

/-- Every operation keeps a table in step with its history. -/
lemma apply (h : Tracks history places table) (op : Op) :
    ∃ places', Tracks (history ++ [op]) places' (table.apply op) := by
  cases op with
  | enter => exact ⟨_, h.enter⟩
  | exit => exact ⟨_, h.exit⟩
  | add symbol => exact ⟨_, h.add symbol⟩

end Tracks

/-- After every history the table is in step with it. -/
lemma exists_tracks_after (history : List Op) :
    ∃ places, Tracks history places (after history) := by
  induction history using List.reverseRecOn with
  | nil => exact ⟨[], tracks_empty⟩
  | append_singleton history op ih =>
    obtain ⟨places, h⟩ := ih
    rw [after_snoc]
    exact h.apply op

/-! ## Answers -/

lemma Scope.Tracks.find?_eq_some_iff (h : Scope.Tracks history i scope) :
    scope.find? name = some symbol ↔ IsLatest history i name symbol := by
  refine ⟨h.latest name symbol, fun hlatest => ?_⟩
  cases hfind : scope.find? name with
  | none => exact absurd (h.never name hfind) hlatest.not_neverAdded
  | some found => rw [hlatest.unique (h.latest name found hfind)]

lemma Scope.Tracks.find?_eq_none_iff (h : Scope.Tracks history i scope) :
    scope.find? name = none ↔ NeverAdded history i name := by
  refine ⟨h.never name, fun hnever => ?_⟩
  cases hfind : scope.find? name with
  | none => rfl
  | some found => exact absurd hnever (h.latest name found hfind).not_neverAdded

/-- The scopes are searched from the front, where the latest ones stand. -/
lemma findSome?_eq_some_iff {scopes : List Scope}
    (h : List.Forall₂ (Scope.Tracks history) places scopes) (hplaces : places.Pairwise (· > ·)) :
    scopes.findSome? (fun scope => scope.find? name) = some symbol ↔
      ∃ i ∈ places, IsLatest history i name symbol ∧
        ∀ j ∈ places, i < j → NeverAdded history j name := by
  induction h with
  | nil => simp
  | @cons i scope rest outer hscope _ ih =>
    obtain ⟨hfront, hrest⟩ := List.pairwise_cons.1 hplaces
    rw [List.findSome?_cons]
    cases hfind : scope.find? name with
    | some found =>
      have hlatest := hscope.latest name found hfind
      constructor
      · rintro ⟨⟩
        refine ⟨i, List.mem_cons_self, hlatest, fun j hj hlt => ?_⟩
        rcases List.mem_cons.1 hj with rfl | hj
        · exact absurd hlt (Nat.lt_irrefl _)
        · exact absurd (hfront j hj) (Nat.lt_asymm hlt)
      · rintro ⟨j, hj, hj', hnever⟩
        rcases List.mem_cons.1 hj with rfl | hj
        · rw [hj'.unique hlatest]
        · exact absurd (hnever i List.mem_cons_self (hfront j hj)) hlatest.not_neverAdded
    | none =>
      have hnever := hscope.never name hfind
      rw [ih hrest]
      constructor
      · rintro ⟨j, hj, hlatest, hothers⟩
        exact ⟨j, List.mem_cons_of_mem i hj, hlatest,
          List.forall_mem_cons.2 ⟨fun _ => hnever, hothers⟩⟩
      · rintro ⟨j, hj, hlatest, hothers⟩
        rcases List.mem_cons.1 hj with rfl | hj
        · exact absurd hnever hlatest.not_neverAdded
        · exact ⟨j, hj, hlatest, (List.forall_mem_cons.1 hothers).2⟩

lemma findSome?_eq_none_iff {scopes : List Scope}
    (h : List.Forall₂ (Scope.Tracks history) places scopes) :
    scopes.findSome? (fun scope => scope.find? name) = none ↔
      ∀ i ∈ places, NeverAdded history i name := by
  induction h with
  | nil => simp
  | cons hscope _ ih =>
    rw [List.forall_mem_cons, ← ih, ← hscope.find?_eq_none_iff, List.findSome?_eq_none_iff,
      List.findSome?_eq_none_iff, List.forall_mem_cons]

namespace Tracks

variable (h : Tracks history places table)

include h

lemma find?_eq_some_iff :
    table.find? name = some symbol ↔ StandsFor history name .enclosing symbol := by
  unfold StandsFor
  rw [SymbolTable.find?, findSome?_eq_some_iff h.scopes h.descending]
  simp only [h.mem_iff]

lemma find?_eq_none_iff :
    table.find? name = none ↔ ∀ i, IsOpen history i → NeverAdded history i name := by
  rw [SymbolTable.find?, findSome?_eq_none_iff h.scopes]
  simp only [h.mem_iff]

lemma findLocal?_eq_some_iff :
    table.findLocal? name = some symbol ↔ StandsFor history name .innermost symbol := by
  unfold StandsFor
  obtain ⟨scopes⟩ := table
  cases h.scopes with
  | nil =>
    have hnone : ∀ i, ¬ IsInnermost history i := fun i => h.not_isInnermost
    simp [findLocal?, hnone]
  | @cons i scope rest outer hscope hrest =>
    simp only [h.isInnermost_iff, exists_eq_left]
    exact hscope.find?_eq_some_iff

lemma findLocal?_eq_none_iff :
    table.findLocal? name = none ↔ ∀ i, IsInnermost history i → NeverAdded history i name := by
  obtain ⟨scopes⟩ := table
  cases h.scopes with
  | nil =>
    have hnone : ∀ i, ¬ IsInnermost history i := fun i => h.not_isInnermost
    simp [findLocal?, hnone]
  | @cons i scope rest outer hscope hrest =>
    simp only [h.isInnermost_iff, forall_eq]
    exact hscope.find?_eq_none_iff

lemma depth_eq :
    table.depth = (List.range history.length).countP fun i => IsOpen history i := by
  have hnodup : places.Nodup := h.descending.imp Nat.ne_of_gt
  have hperm : (List.range history.length).filter (fun i => IsOpen history i) |>.Perm places := by
    refine (List.perm_ext_iff_of_nodup (List.nodup_range.filter _) hnodup).2 fun i => ?_
    rw [List.mem_filter, List.mem_range, decide_eq_true_iff, h.mem_iff]
    exact and_iff_right_of_imp IsOpen.lt_length
  rw [List.countP_eq_length_filter, hperm.length_eq, SymbolTable.depth, h.scopes.length_eq]

end Tracks

/-- What a table finds under a name within a reach. -/
def findWithin (table : SymbolTable) (name : String) : Reach → Option Symbol
  | .innermost => table.findLocal? name
  | .enclosing => table.find? name

lemma Tracks.findWithin_eq_some_iff (h : Tracks history places table) {reach : Reach} :
    table.findWithin name reach = some symbol ↔ StandsFor history name reach symbol := by
  cases reach with
  | innermost => exact h.findLocal?_eq_some_iff
  | enclosing => exact h.find?_eq_some_iff

section Resolve

variable {kinds : List SymbolKind} {reach : Reach}

lemma resolve_eq_match :
    table.resolve name kinds reach =
      match table.findWithin name reach with
      | some symbol => if symbol.kind ∈ kinds then .found symbol else .wrongKind symbol
      | none => .notFound := by
  cases reach <;> rfl

lemma resolve_eq_found_iff :
    table.resolve name kinds reach = .found symbol ↔
      table.findWithin name reach = some symbol ∧ symbol.kind ∈ kinds := by
  rw [resolve_eq_match]
  cases table.findWithin name reach with
  | none => simp
  | some found =>
    by_cases hkind : found.kind ∈ kinds
    · simp only [hkind, if_true, Resolution.found.injEq, Option.some.injEq]
      exact ⟨fun h => ⟨h, h ▸ hkind⟩, fun h => h.1⟩
    · simp only [hkind, if_false, reduceCtorEq, Option.some.injEq, false_iff, not_and]
      exact fun h => h ▸ hkind

lemma resolve_eq_wrongKind_iff :
    table.resolve name kinds reach = .wrongKind symbol ↔
      table.findWithin name reach = some symbol ∧ symbol.kind ∉ kinds := by
  rw [resolve_eq_match]
  cases table.findWithin name reach with
  | none => simp
  | some found =>
    by_cases hkind : found.kind ∈ kinds
    · simp only [hkind, if_true, reduceCtorEq, Option.some.injEq, false_iff, not_and, not_not]
      exact fun h => h ▸ hkind
    · simp only [hkind, if_false, Resolution.wrongKind.injEq, Option.some.injEq]
      exact ⟨fun h => ⟨h, h ▸ hkind⟩, fun h => h.1⟩

lemma resolve_eq_notFound_iff :
    table.resolve name kinds reach = .notFound ↔ table.findWithin name reach = none := by
  rw [resolve_eq_match]
  cases table.findWithin name reach with
  | none => simp
  | some found =>
    simp only [reduceCtorEq, iff_false]
    split <;> simp

end Resolve

/-! ## Scopes that are entered and left -/

/-- A run that stays inside a scope touches nothing around that scope. -/
lemma exists_opened (table : SymbolTable) (h : StaysInside run) :
    ∃ opened, (run.foldl apply table.enter).scopes = opened ++ table.scopes ∧
      opened.length + run.count .exit = run.count .enter + 1 := by
  induction run using List.reverseRecOn with
  | nil => exact ⟨[[]], rfl, rfl⟩
  | append_singleton run op ih =>
    obtain ⟨hrun, hcount⟩ := staysInside_snoc.1 h
    obtain ⟨opened, hscopes, hlength⟩ := ih hrun
    rw [List.foldl_append, List.foldl_cons, List.foldl_nil]
    generalize run.foldl apply table.enter = inner at hscopes ⊢
    obtain ⟨scopes⟩ := inner
    obtain rfl : scopes = opened ++ table.scopes := hscopes
    rw [List.count_append, List.count_append] at hcount ⊢
    cases op with
    | enter =>
      refine ⟨[] :: opened, rfl, ?_⟩
      simp
      omega
    | exit =>
      cases opened with
      | nil =>
        simp at hlength hcount
        omega
      | cons innermost opened =>
        refine ⟨opened, rfl, ?_⟩
        simp at hlength ⊢
        omega
    | add symbol =>
      cases opened with
      | nil =>
        simp at hlength hcount
        omega
      | cons innermost opened =>
        exact ⟨(symbol :: innermost) :: opened, rfl, by simpa using hlength⟩

/-- What happens between entering a scope and leaving it again leaves no trace. -/
lemma exit_foldl_enter (table : SymbolTable) (h : Balanced run) :
    (run.foldl apply table.enter).exit = table := by
  obtain ⟨hinside, hcount⟩ := h
  obtain ⟨opened, hscopes, hlength⟩ := exists_opened table hinside
  obtain ⟨scope, rfl⟩ := List.length_eq_one_iff.1 (by omega : opened.length = 1)
  rw [exit, hscopes]
  rfl

/-! ## The table and its history -/

/-- The answers of a table are those that a history determines. -/
structure Reflects (history : List Op) (table : SymbolTable) : Prop where
  /-- The depth is the number of scopes that were entered and not left. -/
  depth : table.depth = (List.range history.length).countP fun i => IsOpen history i
  find : ∀ name symbol,
    table.find? name = some symbol ↔ StandsFor history name .enclosing symbol
  find_none : ∀ name,
    table.find? name = none ↔ ∀ i, IsOpen history i → NeverAdded history i name
  findLocal : ∀ name symbol,
    table.findLocal? name = some symbol ↔ StandsFor history name .innermost symbol
  findLocal_none : ∀ name,
    table.findLocal? name = none ↔ ∀ i, IsInnermost history i → NeverAdded history i name
  declaresLocally : ∀ name,
    table.declaresLocally name = true ↔ ∃ symbol, StandsFor history name .innermost symbol
  /-- Whatever is found under a name has that name. -/
  name_eq : ∀ name symbol,
    table.find? name = some symbol ∨ table.findLocal? name = some symbol → symbol.name = name
  /-- The symbol that the name stands for is judged by its kind; it is never passed over for another
  one of a kind that is admitted. -/
  found : ∀ name kinds reach symbol,
    table.resolve name kinds reach = .found symbol ↔
      StandsFor history name reach symbol ∧ symbol.kind ∈ kinds
  wrongKind : ∀ name kinds reach symbol,
    table.resolve name kinds reach = .wrongKind symbol ↔
      StandsFor history name reach symbol ∧ symbol.kind ∉ kinds
  notFound : ∀ name kinds reach,
    table.resolve name kinds reach = .notFound ↔ ∀ symbol, ¬ StandsFor history name reach symbol
  /-- Adding a symbol fails exactly while no scope is open. -/
  add_none : ∀ symbol, table.add? symbol = none ↔ ∀ i, ¬ IsOpen history i

lemma Tracks.reflects (h : Tracks history places table) : Reflects history table where
  depth := h.depth_eq
  find _ _ := h.find?_eq_some_iff
  find_none _ := h.find?_eq_none_iff
  findLocal _ _ := h.findLocal?_eq_some_iff
  findLocal_none _ := h.findLocal?_eq_none_iff
  declaresLocally name := by
    rw [SymbolTable.declaresLocally, Option.isSome_iff_exists]
    simp only [h.findLocal?_eq_some_iff]
  name_eq name symbol := by
    rintro (hfind | hfind)
    · exact name_of_find? hfind
    · obtain ⟨i, _, hlatest⟩ := h.findLocal?_eq_some_iff.1 hfind
      exact hlatest.1
  found name kinds reach symbol := by rw [resolve_eq_found_iff, h.findWithin_eq_some_iff]
  wrongKind name kinds reach symbol := by rw [resolve_eq_wrongKind_iff, h.findWithin_eq_some_iff]
  notFound name kinds reach := by
    rw [resolve_eq_notFound_iff, Option.eq_none_iff_forall_ne_some]
    simp only [ne_eq, h.findWithin_eq_some_iff]
  add_none symbol := by
    obtain ⟨scopes⟩ := table
    cases h.scopes with
    | nil =>
      have hnone : ∀ i, ¬ IsOpen history i := fun i hi => nomatch (h.mem_iff i).2 hi
      simp [add?, hnone]
    | @cons i scope rest outer _ _ =>
      have hopen : IsOpen history i := (h.mem_iff i).1 List.mem_cons_self
      simp only [add?, reduceCtorEq, false_iff, not_forall, not_not]
      exact ⟨i, hopen⟩

/-- **The table refines its history.**  After every sequence of operations, also with scopes left
while none is open and symbols that cannot be added, the table answers as the history says.  And
whatever happens in a scope between entering and leaving it, the table is afterwards what it was
before. -/
theorem after_reflects_history (history : List Op) :
    Reflects history (after history) ∧
      ∀ run, Balanced run → after (history ++ .enter :: (run ++ [.exit])) = after history := by
  obtain ⟨places, h⟩ := exists_tracks_after history
  refine ⟨h.reflects, fun run hrun => ?_⟩
  rw [after, List.foldl_append, List.foldl_cons, List.foldl_append]
  exact exit_foldl_enter (after history) hrun

example :
    (after [.exit, .add (.var "x" .int), .enter, .add (.var "x" .int), .enter, .add (.arg "y" .int),
      .exit, .add (.array "x" .int 3), .enter]).find? "x" = some (.array "x" .int 3) := by
  decide

end SymbolTable

end DLang
