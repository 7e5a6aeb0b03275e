import DLang.Proofs.Grammar.Identifiers
import DLang.Proofs.Lexing.Numerals
import DLang.Proofs.Module.Lines
import DLang.Proofs.Tree.Notation

/-!
# The text of a tree determines the tree

A node is written as its name with its parts between parentheses, and the names of a program stand
in the text as they are.  As long as no such name has a parenthesis or a comma in it, the text can
be taken apart again: two programs with the same text are the same up to annotations
(`Program.text_eq_iff_bare_eq`).

The argument goes one node at a time.  A *part* is a text that closes all parentheses it opens and
has no comma outside of them.  Where a part ends, a comma or a closing parenthesis follows, and
neither can stand inside the part at that depth; so of two parts at the head of one text neither is
longer than the other (`IsPart.append_inj`).  It follows that a node determines its name and its
parts (`nodeText_inj`).  Every text in the notation is a part, and then each kind of tree is settled
by its nodes: their names tell the constructors apart, and where a list is left out, the number of
the parts or the name of the next one tells so.
-/

namespace DLang

/-! ## Parts -/

/-- How deep in parentheses a text is after a character.  There is no answer if the character closes
a parenthesis that was not opened, or is a comma outside of all. -/
def depthStep (depth : Nat) (c : Char) : Option Nat :=
  if c = '(' then some (depth + 1)
  else if c = ')' then if depth = 0 then none else some (depth - 1)
  else if c = ',' then if depth = 0 then none else some depth
  else some depth

/-- How deep in parentheses a text is after some characters. -/
def depthAfter (depth : Nat) (text : List Char) : Option Nat :=
  text.foldlM depthStep depth

/-- The text closes all parentheses that it opens and has no comma outside of them. -/
def IsPart (text : String) : Prop :=
  depthAfter 0 text.toList = some 0

/-- A part that is not empty.  Every node is one, and a name need not be. -/
def IsFullPart (text : String) : Prop :=
  IsPart text ∧ text ≠ ""

/-- The text has no parenthesis and no comma. -/
def isUnbracketed (text : String) : Bool :=
  text.toList.all fun c => c != '(' && c != ')' && c != ','

lemma depthAfter_append (depth : Nat) (u v : List Char) :
    depthAfter depth (u ++ v) = (depthAfter depth u).bind fun d => depthAfter d v :=
  List.foldlM_append

lemma depthStep_succ {depth d : Nat} {c : Char} (h : depthStep depth c = some d) :
    depthStep (depth + 1) c = some (d + 1) := by
  unfold depthStep at h ⊢
  grind

/-- Deeper inside, the same parentheses are closed. -/
lemma depthAfter_succ {depth d : Nat} {u : List Char} (h : depthAfter depth u = some d) :
    depthAfter (depth + 1) u = some (d + 1) := by
  induction u generalizing depth with
  | nil =>
    cases h
    rfl
  | cons c u ih =>
    obtain ⟨d', hstep, hrest⟩ := Option.bind_eq_some_iff.1 h
    exact Option.bind_eq_some_iff.2 ⟨d' + 1, depthStep_succ hstep, ih hrest⟩

namespace IsPart

/-- A part leaves a text as deep as it was. -/
lemma depthAfter_eq {text : String} (h : IsPart text) (depth : Nat) :
    depthAfter depth text.toList = some depth := by
  induction depth with
  | zero => exact h
  | succ depth ih => exact depthAfter_succ ih

lemma of_isUnbracketed {text : String} (h : isUnbracketed text = true) : IsPart text := by
  unfold IsPart
  unfold isUnbracketed at h
  generalize text.toList = u at h ⊢
  induction u with
  | nil => rfl
  | cons c u ih =>
    simp only [List.all_cons, Bool.and_eq_true, bne_iff_ne] at h
    obtain ⟨⟨⟨hopen, hclose⟩, hcomma⟩, hrest⟩ := h
    have hstep : depthStep 0 c = some 0 := by
      simp [depthStep, hopen, hclose, hcomma]
    refine Option.bind_eq_some_iff.2 ⟨0, hstep, ih ?_⟩
    simpa using hrest

end IsPart

/-- What can follow a part: nothing, a comma or a closing parenthesis. -/
def EndsPart (t : List Char) : Prop :=
  ∀ c ∈ t.head?, c = ',' ∨ c = ')'

/-- A part cannot be longer than another one at the same place. -/
lemma IsPart.eq_nil_of_append {u v : List Char} (hu : depthAfter 0 u = some 0)
    (huv : depthAfter 0 (u ++ v) = some 0) {t : List Char} (hends : EndsPart (v ++ t)) :
    v = [] := by
  cases v with
  | nil => rfl
  | cons c v =>
    rw [depthAfter_append, hu, Option.bind_some] at huv
    obtain ⟨d, hstep, _⟩ := Option.bind_eq_some_iff.1 huv
    rcases hends c rfl with rfl | rfl <;> cases hstep

/-- A text that begins with a part determines the part and what follows it. -/
lemma IsPart.append_inj {u u' : String} {t t' : List Char} (hu : IsPart u) (hu' : IsPart u')
    (ht : EndsPart t) (ht' : EndsPart t') (h : u.toList ++ t = u'.toList ++ t') :
    u = u' ∧ t = t' := by
  rcases List.append_eq_append_iff.1 h with ⟨v, hv, hrest⟩ | ⟨v, hv, hrest⟩
  · have hnil : v = [] := IsPart.eq_nil_of_append hu (hv ▸ hu') (hrest ▸ ht)
    subst hnil
    exact ⟨String.ext (by simpa using hv.symm), by simpa using hrest⟩
  · have hnil : v = [] := IsPart.eq_nil_of_append hu' (hv ▸ hu) (hrest ▸ ht')
    subst hnil
    exact ⟨String.ext (by simpa using hv), by simpa using hrest.symm⟩

/-! ## Nodes -/

/-- The parts of a node stand one deep in parentheses, and so do the commas between them. -/
lemma depthAfter_intercalate {parts : List String} (h : ∀ part ∈ parts, IsPart part) :
    depthAfter 1 (", ".intercalate parts).toList = some 1 := by
  induction parts with
  | nil => rfl
  | cons part rest ih =>
    obtain ⟨hpart, hrest⟩ := List.forall_mem_cons.1 h
    cases rest with
    | nil =>
      rw [String.intercalate_singleton]
      exact hpart.depthAfter_eq 1
    | cons next rest =>
      rw [String.intercalate_cons_cons, String.toList_append, String.toList_append,
        depthAfter_append, depthAfter_append, hpart.depthAfter_eq 1]
      exact ih hrest

/-- A node is a full part if what stands between its parentheses keeps the depth. -/
lemma isFullPart_of_inside {name inside : String} (hname : isUnbracketed name = true)
    (h : depthAfter 1 inside.toList = some 1) : IsFullPart (name ++ "(" ++ inside ++ ")") := by
  refine ⟨?_, fun hempty => by simpa using congrArg String.toList hempty⟩
  unfold IsPart
  simp only [String.toList_append, depthAfter_append]
  rw [IsPart.of_isUnbracketed hname]
  have hopen : depthAfter 0 "(".toList = some 1 := rfl
  rw [Option.bind_some, hopen, Option.bind_some, h]
  rfl

lemma isFullPart_nodeText {name : String} {parts : List String} (hname : isUnbracketed name = true)
    (h : ∀ part ∈ parts, IsPart part) : IsFullPart (nodeText name parts) :=
  isFullPart_of_inside hname (depthAfter_intercalate h)

/-- Two texts up to their first opening parenthesis. -/
lemma append_cons_inj_of_notMem {c : Char} {u u' t t' : List Char} (hu : c ∉ u) (hu' : c ∉ u')
    (h : u ++ c :: t = u' ++ c :: t') : u = u' ∧ t = t' := by
  rcases List.append_eq_append_iff.1 h with ⟨v, rfl, hrest⟩ | ⟨v, rfl, hrest⟩
  · cases v with
    | nil => simpa using hrest
    | cons d v =>
      obtain ⟨rfl, _⟩ := List.cons.inj hrest
      exact absurd (List.mem_append_right u List.mem_cons_self) hu'
  · cases v with
    | nil => simpa using hrest.symm
    | cons d v =>
      obtain ⟨rfl, _⟩ := List.cons.inj hrest
      exact absurd (List.mem_append_right u' List.mem_cons_self) hu

/-- A node determines its name and what stands between its parentheses. -/
lemma inside_inj {name name' inside inside' : String} (hname : isUnbracketed name = true)
    (hname' : isUnbracketed name' = true)
    (h : name ++ "(" ++ inside ++ ")" = name' ++ "(" ++ inside' ++ ")") :
    name = name' ∧ inside = inside' := by
  have hopen : ∀ {text : String}, isUnbracketed text = true → '(' ∉ text.toList := by
    intro text htext hmem
    exact absurd (List.all_eq_true.1 htext '(' hmem) (by decide)
  have hlist : name.toList ++ '(' :: (inside.toList ++ [')']) =
      name'.toList ++ '(' :: (inside'.toList ++ [')']) := by
    simpa using congrArg String.toList h
  obtain ⟨hnames, hinside⟩ := append_cons_inj_of_notMem (hopen hname) (hopen hname') hlist
  exact ⟨String.ext hnames, String.ext (List.append_cancel_right hinside)⟩

lemma toList_intercalate_cons (part : String) (rest : List String) :
    (", ".intercalate (part :: rest)).toList =
      part.toList ++ rest.flatMap fun next => ',' :: ' ' :: next.toList := by
  induction rest generalizing part with
  | nil => simp
  | cons next rest ih => simp [String.intercalate_cons_cons, ih next]

lemma endsPart_flatMap (rest : List String) :
    EndsPart (rest.flatMap fun next => ',' :: ' ' :: next.toList) := by
  cases rest with
  | nil => exact fun c hc => by cases hc
  | cons next rest => exact fun c hc => .inl (Option.some.inj hc).symm

/-- Parts with commas between them can be told apart. -/
lemma intercalate_inj {parts parts' : List String} (hne : parts ≠ []) (hne' : parts' ≠ [])
    (hparts : ∀ part ∈ parts, IsPart part) (hparts' : ∀ part ∈ parts', IsPart part)
    (h : ", ".intercalate parts = ", ".intercalate parts') : parts = parts' := by
  obtain ⟨part, rest, rfl⟩ := List.exists_cons_of_ne_nil hne
  obtain ⟨part', rest', rfl⟩ := List.exists_cons_of_ne_nil hne'
  have hlist := congrArg String.toList h
  rw [toList_intercalate_cons, toList_intercalate_cons] at hlist
  clear h hne hne'
  induction rest generalizing part part' rest' with
  | nil =>
    obtain ⟨hpart, _⟩ := List.forall_mem_cons.1 hparts
    obtain ⟨hpart', _⟩ := List.forall_mem_cons.1 hparts'
    obtain ⟨rfl, htail⟩ :=
      hpart.append_inj hpart' (endsPart_flatMap []) (endsPart_flatMap rest') hlist
    cases rest' with
    | nil => rfl
    | cons next' rest' => cases htail
  | cons next rest ih =>
    obtain ⟨hpart, hrest⟩ := List.forall_mem_cons.1 hparts
    obtain ⟨hpart', hrest'⟩ := List.forall_mem_cons.1 hparts'
    obtain ⟨rfl, htail⟩ :=
      hpart.append_inj hpart' (endsPart_flatMap (next :: rest)) (endsPart_flatMap rest') hlist
    cases rest' with
    | nil => cases htail
    | cons next' rest' =>
      have hmore : next.toList ++ (rest.flatMap fun next => ',' :: ' ' :: next.toList) =
          next'.toList ++ rest'.flatMap fun next => ',' :: ' ' :: next.toList := by
        simpa using htail
      rw [ih next hrest next' rest' hrest' hmore]

/-- A node determines its name and its parts, if there are any. -/
lemma nodeText_inj {name name' : String} {parts parts' : List String}
    (hname : isUnbracketed name = true) (hname' : isUnbracketed name' = true) (hne : parts ≠ [])
    (hne' : parts' ≠ []) (hparts : ∀ part ∈ parts, IsPart part)
    (hparts' : ∀ part ∈ parts', IsPart part) (h : nodeText name parts = nodeText name' parts') :
    name = name' ∧ parts = parts' := by
  obtain ⟨hnames, hinside⟩ := inside_inj hname hname' h
  exact ⟨hnames, intercalate_inj hne hne' hparts hparts' hinside⟩

/-- Parts that are not empty can be told apart also from no parts at all. -/
lemma intercalate_inj_of_full {parts parts' : List String}
    (hparts : ∀ part ∈ parts, IsFullPart part)
    (hparts' : ∀ part ∈ parts', IsFullPart part)
    (h : ", ".intercalate parts = ", ".intercalate parts') : parts = parts' := by
  have hempty : ∀ {part : String} {rest : List String},
      (∀ p ∈ part :: rest, IsFullPart p) → ", ".intercalate (part :: rest) ≠ "" := by
    intro part rest hall heq
    have hlist := congrArg String.toList heq
    rw [toList_intercalate_cons] at hlist
    exact (hall part List.mem_cons_self).2 (String.ext (List.append_eq_nil_iff.1 hlist).1)
  cases parts with
  | nil =>
    cases parts' with
    | nil => rfl
    | cons part' rest' => exact absurd h.symm (hempty hparts')
  | cons part rest =>
    cases parts' with
    | nil => exact absurd h (hempty hparts)
    | cons part' rest' =>
      exact intercalate_inj (List.cons_ne_nil part rest) (List.cons_ne_nil part' rest')
        (fun p hp => (hparts p hp).1) (fun p hp => (hparts' p hp).1) h

lemma nodeText_inj_of_full {name name' : String} {parts parts' : List String}
    (hname : isUnbracketed name = true) (hname' : isUnbracketed name' = true)
    (hparts : ∀ part ∈ parts, IsFullPart part)
    (hparts' : ∀ part ∈ parts', IsFullPart part)
    (h : nodeText name parts = nodeText name' parts') : name = name' ∧ parts = parts' := by
  obtain ⟨hnames, hinside⟩ := inside_inj hname hname' h
  exact ⟨hnames, intercalate_inj_of_full hparts hparts' hinside⟩

/-! ## Names and numerals -/

lemma isUnbracketed_toString (n : Nat) : isUnbracketed (toString n) = true := by
  refine List.all_eq_true.2 fun c hc => ?_
  have hdigit := Text.isDigit_of_mem_toString hc
  have hne : ∀ d : Char, d.isDigit = false → c ≠ d := by
    rintro d hd rfl
    exact absurd hdigit (by simp [hd])
  simp [hne '(' rfl, hne ')' rfl, hne ',' rfl]

lemma isUnbracketed_decimal (value : Int32) : isUnbracketed (Text.decimal value) = true := by
  unfold Text.decimal
  cases value.toInt with
  | ofNat n => exact isUnbracketed_toString n
  | negSucc n =>
    have hsign : isUnbracketed ("-" ++ toString (n + 1)) = isUnbracketed (toString (n + 1)) := by
      simp [isUnbracketed]
    exact hsign.trans (isUnbracketed_toString (n + 1))

lemma isFullPart_variableText {name : String} (h : isUnbracketed name = true) :
    IsFullPart (variableText name) :=
  isFullPart_nodeText rfl (List.forall_mem_singleton.2 (.of_isUnbracketed h))

lemma variableText_inj {name name' : String} (h : isUnbracketed name = true)
    (h' : isUnbracketed name' = true) (heq : variableText name = variableText name') :
    name = name' := by
  obtain ⟨_, hparts⟩ := nodeText_inj rfl rfl (List.cons_ne_nil name []) (List.cons_ne_nil name' [])
    (List.forall_mem_singleton.2 (.of_isUnbracketed h))
    (List.forall_mem_singleton.2 (.of_isUnbracketed h')) heq
  exact List.head_eq_of_cons_eq hparts

/-- If the members of two lists are the same up to annotations as soon as they have the same text,
so are the lists. -/
lemma map_eq_of_map_text_eq {α β : Type} {text : α → String} {bare : α → β} {list list' : List α}
    (h : ∀ a ∈ list, ∀ a' ∈ list', text a = text a' → bare a = bare a')
    (heq : list.map text = list'.map text) : list.map bare = list'.map bare := by
  induction list generalizing list' with
  | nil =>
    obtain rfl := List.map_eq_nil_iff.1 heq.symm
    rfl
  | cons a rest ih =>
    obtain ⟨a', rest', rfl, hhead, htail⟩ := List.map_eq_cons_iff.1 heq.symm
    have hfirst : bare a = bare a' := h a List.mem_cons_self a' List.mem_cons_self hhead.symm
    have hrest : rest.map bare = rest'.map bare := ih
      (fun b hb b' hb' => h b (List.mem_cons_of_mem a hb) b' (List.mem_cons_of_mem a' hb'))
      htail.symm
    rw [List.map_cons, List.map_cons, hfirst, hrest]

/-- The same for lists that may be absent, where each list that is there makes a node. -/
lemma optionMap_eq_of_node_eq {α β : Type} {text : α → String} {bare : α → β} (heading : String)
    {list list' : Option (List α)} (hheading : isUnbracketed heading = true)
    (hlist : ∀ a ∈ list.getD [], IsFullPart (text a))
    (hlist' : ∀ a ∈ list'.getD [], IsFullPart (text a))
    (h : ∀ a ∈ list.getD [], ∀ a' ∈ list'.getD [], text a = text a' → bare a = bare a')
    (heq : list.map (fun list => nodeText heading (list.map text)) =
      list'.map fun list => nodeText heading (list.map text)) :
    list.map (List.map bare) = list'.map (List.map bare) := by
  cases list with
  | none =>
    obtain rfl := Option.map_eq_none_iff.1 heq.symm
    rfl
  | some list =>
    obtain ⟨list', rfl, hnode⟩ := Option.map_eq_some_iff.1 heq.symm
    obtain ⟨_, htexts⟩ := nodeText_inj_of_full hheading hheading
      (List.forall_mem_map.2 hlist) (List.forall_mem_map.2 hlist') hnode.symm
    exact congrArg some (map_eq_of_map_text_eq h htexts)

/-! ## Expressions -/

lemma ArithOp.text_inj {op op' : ArithOp} (h : op.text = op'.text) : op = op' := by
  cases op <;> cases op' <;> simp [ArithOp.text] at h ⊢

lemma RelOp.text_inj {op op' : RelOp} (h : op.text = op'.text) : op = op' := by
  cases op <;> cases op' <;> simp [RelOp.text] at h ⊢

namespace Expr

/-- The name of the node of an expression. -/
def heading : Expr → String
  | .integer .. => "Integer"
  | .var .. => "Variable"
  | .element .. => "ArrayIndex"
  | .arith .. => "BinOp"
  | .compare .. => "RelOp"
  | .call .. => "FunctionCall"

/-- The parts of the node of an expression. -/
def parts : Expr → List String
  | .integer value _ => [Text.decimal value]
  | .var name _ _ => [name]
  | .element name index _ _ => [variableText name, index.text]
  | .arith op left right _ => [op.text, left.text, right.text]
  | .compare op left right _ => [op.text, left.text, right.text]
  | .call name args _ =>
    name :: (args.map fun args => nodeText "Arguments" (args.map Expr.text)).toList

lemma text_eq_node (e : Expr) : e.text = nodeText e.heading e.parts := by
  cases e with
  | call name args ty =>
    cases args with
    | none => rfl
    | some args => rw [Expr.text, Expr.texts_eq_map]; rfl
  | _ => simp only [Expr.text, heading, parts, variableText]

lemma isUnbracketed_heading (e : Expr) : isUnbracketed e.heading = true := by
  unfold heading
  split <;> rfl

lemma parts_ne_nil (e : Expr) : e.parts ≠ [] := by
  cases e <;> exact List.cons_ne_nil _ _

/-- An expression is a full part if its own parts are parts. -/
lemma isFullPart_of_parts {e : Expr} (h : ∀ part ∈ e.parts, IsPart part) : IsFullPart e.text :=
  e.text_eq_node ▸ isFullPart_nodeText e.isUnbracketed_heading h

lemma isPart_parts {e : Expr} (h : ∀ name ∈ e.mentioned, isUnbracketed name = true) :
    ∀ part ∈ e.parts, IsPart part := by
  induction e with
  | integer value ty =>
    exact List.forall_mem_singleton.2 (.of_isUnbracketed (isUnbracketed_decimal value))
  | var name symbol ty =>
    exact List.forall_mem_singleton.2 (.of_isUnbracketed (h name List.mem_cons_self))
  | element name index symbol ty ih =>
    obtain ⟨hname, hindex⟩ := List.forall_mem_cons.1 h
    have hvariable : IsPart (variableText name) := (isFullPart_variableText hname).1
    simpa [parts, hvariable] using (isFullPart_of_parts (ih hindex)).1
  | arith op left right ty ihl ihr =>
    obtain ⟨hleft, hright⟩ := List.forall_mem_append.1 h
    have hop : IsPart op.text := .of_isUnbracketed (by cases op <;> rfl)
    simpa [parts, hop] using
      ⟨(isFullPart_of_parts (ihl hleft)).1, (isFullPart_of_parts (ihr hright)).1⟩
  | compare op left right ty ihl ihr =>
    obtain ⟨hleft, hright⟩ := List.forall_mem_append.1 h
    have hop : IsPart op.text := .of_isUnbracketed (by cases op <;> rfl)
    simpa [parts, hop] using
      ⟨(isFullPart_of_parts (ihl hleft)).1, (isFullPart_of_parts (ihr hright)).1⟩
  | call name args ty ih =>
    rw [Expr.mentioned_call, Expr.mentionedAll_eq_flatMap] at h
    obtain ⟨hname, hmentioned⟩ := List.forall_mem_cons.1 h
    have hargs := List.forall_mem_flatMap.1 hmentioned
    refine List.forall_mem_cons.2 ⟨.of_isUnbracketed hname, ?_⟩
    cases args with
    | none => exact fun part hpart => by cases hpart
    | some args =>
      refine List.forall_mem_singleton.2 (isFullPart_nodeText rfl (List.forall_mem_map.2 ?_)).1
      exact fun e he => (isFullPart_of_parts (ih e he (hargs e he))).1

lemma isFullPart_text {e : Expr} (h : ∀ name ∈ e.mentioned, isUnbracketed name = true) :
    IsFullPart e.text :=
  isFullPart_of_parts (isPart_parts h)

/-- The text of an expression determines its node. -/
lemma node_inj {e e' : Expr} (h : ∀ name ∈ e.mentioned, isUnbracketed name = true)
    (h' : ∀ name ∈ e'.mentioned, isUnbracketed name = true) (htext : e.text = e'.text) :
    e.heading = e'.heading ∧ e.parts = e'.parts := by
  rw [e.text_eq_node, e'.text_eq_node] at htext
  exact nodeText_inj e.isUnbracketed_heading e'.isUnbracketed_heading e.parts_ne_nil
    e'.parts_ne_nil (isPart_parts h) (isPart_parts h') htext

/-- An expression is determined by its text, up to annotations. -/
lemma bare_eq_of_text_eq {e e' : Expr} (h : ∀ name ∈ e.mentioned, isUnbracketed name = true)
    (h' : ∀ name ∈ e'.mentioned, isUnbracketed name = true) (htext : e.text = e'.text) :
    e.bare = e'.bare := by
  induction e generalizing e' with
  | integer value ty =>
    obtain ⟨hheading, hparts⟩ := node_inj h h' htext
    cases e' with
    | integer value' ty' =>
      rw [Expr.bare, Expr.bare, Text.decimal_inj (List.head_eq_of_cons_eq hparts)]
    | _ => simp [heading] at hheading
  | var name symbol ty =>
    obtain ⟨hheading, hparts⟩ := node_inj h h' htext
    cases e' with
    | var name' symbol' ty' => rw [Expr.bare, Expr.bare, List.head_eq_of_cons_eq hparts]
    | _ => simp [heading] at hheading
  | element name index symbol ty ih =>
    obtain ⟨hheading, hparts⟩ := node_inj h h' htext
    cases e' with
    | element name' index' symbol' ty' =>
      simp only [parts, List.cons.injEq, and_true] at hparts
      obtain ⟨hvariable, hindex⟩ := hparts
      obtain ⟨hname, hmentioned⟩ := List.forall_mem_cons.1 h
      obtain ⟨hname', hmentioned'⟩ := List.forall_mem_cons.1 h'
      rw [Expr.bare, Expr.bare, variableText_inj hname hname' hvariable,
        ih hmentioned hmentioned' hindex]
    | _ => simp [heading] at hheading
  | arith op left right ty ihl ihr =>
    obtain ⟨hheading, hparts⟩ := node_inj h h' htext
    cases e' with
    | arith op' left' right' ty' =>
      simp only [parts, List.cons.injEq, and_true] at hparts
      obtain ⟨hop, hleft, hright⟩ := hparts
      obtain ⟨hl, hr⟩ := List.forall_mem_append.1 h
      obtain ⟨hl', hr'⟩ := List.forall_mem_append.1 h'
      rw [Expr.bare, Expr.bare, ArithOp.text_inj hop, ihl hl hl' hleft, ihr hr hr' hright]
    | _ => simp [heading] at hheading
  | compare op left right ty ihl ihr =>
    obtain ⟨hheading, hparts⟩ := node_inj h h' htext
    cases e' with
    | compare op' left' right' ty' =>
      simp only [parts, List.cons.injEq, and_true] at hparts
      obtain ⟨hop, hleft, hright⟩ := hparts
      obtain ⟨hl, hr⟩ := List.forall_mem_append.1 h
      obtain ⟨hl', hr'⟩ := List.forall_mem_append.1 h'
      rw [Expr.bare, Expr.bare, RelOp.text_inj hop, ihl hl hl' hleft, ihr hr hr' hright]
    | _ => simp [heading] at hheading
  | call name args ty ih =>
    obtain ⟨hheading, hparts⟩ := node_inj h h' htext
    cases e' with
    | call name' args' ty' =>
      obtain ⟨rfl, hnode⟩ := List.cons.inj hparts
      have hnodes := by simpa using congrArg List.head? hnode
      rw [Expr.mentioned_call, Expr.mentionedAll_eq_flatMap] at h h'
      have hargs := List.forall_mem_flatMap.1 (List.forall_mem_cons.1 h).2
      have hargs' := List.forall_mem_flatMap.1 (List.forall_mem_cons.1 h').2
      rw [Expr.bare_call, Expr.bare_call]
      refine congrArg (Expr.call name · none) ?_
      exact optionMap_eq_of_node_eq "Arguments" rfl
        (fun e he => isFullPart_text (hargs e he)) (fun e he => isFullPart_text (hargs' e he))
        (fun e he e' he' => ih e he (hargs e he) (hargs' e' he')) hnodes
    | _ => simp [heading] at hheading

end Expr

/-! ## Statements -/

namespace Target

/-- A target is written as the expression that reads it. -/
def toExpr : Target → Expr
  | .var name symbol => .var name symbol none
  | .element name index symbol => .element name index symbol none

lemma text_toExpr (t : Target) : t.toExpr.text = t.text := by
  cases t with
  | var name symbol => rfl
  | element name index symbol => simp only [toExpr, Expr.text, Target.text]

lemma mentioned_toExpr (t : Target) : t.toExpr.mentioned = t.mentioned := by
  cases t with
  | var name symbol => rfl
  | element name index symbol => rfl

lemma bare_eq_of_toExpr_bare_eq {t t' : Target} (h : t.toExpr.bare = t'.toExpr.bare) :
    t.bare = t'.bare := by
  cases t <;> cases t' <;> simp_all [toExpr, Expr.bare, Target.bare]

lemma bare_eq_of_text_eq {t t' : Target} (h : ∀ name ∈ t.mentioned, isUnbracketed name = true)
    (h' : ∀ name ∈ t'.mentioned, isUnbracketed name = true) (htext : t.text = t'.text) :
    t.bare = t'.bare := by
  rw [← mentioned_toExpr] at h h'
  rw [← text_toExpr, ← text_toExpr] at htext
  exact bare_eq_of_toExpr_bare_eq (Expr.bare_eq_of_text_eq h h' htext)

lemma isFullPart_text {t : Target} (h : ∀ name ∈ t.mentioned, isUnbracketed name = true) :
    IsFullPart t.text := by
  rw [← mentioned_toExpr] at h
  rw [← text_toExpr]
  exact Expr.isFullPart_text h

end Target

lemma blockText_eq_node (body : List Stmt) :
    blockText body = nodeText "Block" (body.map Stmt.text) := by
  rw [blockText, Stmt.texts_eq_map]

lemma isFullPart_blockText {body : List Stmt} (h : ∀ s ∈ body, IsFullPart s.text) :
    IsFullPart (blockText body) := by
  rw [blockText_eq_node]
  exact isFullPart_nodeText rfl (List.forall_mem_map.2 fun s hs => (h s hs).1)

namespace Stmt

/-- The name of the node of a statement. -/
def heading : Stmt → String
  | .assign .. => "Assign"
  | .print .. => "Print"
  | .read .. => "Read"
  | .ret .. => "Return"
  | .branch .. => "If"
  | .loop .. => "While"
  | .block .. => "Block"

/-- The parts of the node of a statement. -/
def parts : Stmt → List String
  | .assign target value _ _ => [target.text, value.text]
  | .print value => [value.text]
  | .read name _ => [variableText name]
  | .ret value => [value.text]
  | .branch condition yes no => condition.text :: blockText yes :: (no.map blockText).toList
  | .loop condition body => [condition.text, blockText body]
  | .block body => body.map Stmt.text

lemma text_eq_node (s : Stmt) : s.text = nodeText s.heading s.parts := by
  cases s with
  | branch condition yes no => cases no <;> simp only [Stmt.text, heading, parts, blockText] <;> rfl
  | block body => rw [Stmt.text, Stmt.texts_eq_map]; rfl
  | _ => simp only [Stmt.text, heading, parts, blockText]

lemma isUnbracketed_heading (s : Stmt) : isUnbracketed s.heading = true := by
  unfold heading
  split <;> rfl

/-- A statement is a full part if its own parts are. -/
lemma isFullPart_of_parts {s : Stmt} (h : ∀ part ∈ s.parts, IsFullPart part) : IsFullPart s.text :=
  s.text_eq_node ▸ isFullPart_nodeText s.isUnbracketed_heading fun part hpart => (h part hpart).1

lemma isFullPart_parts {s : Stmt} (h : ∀ name ∈ s.mentioned, isUnbracketed name = true) :
    ∀ part ∈ s.parts, IsFullPart part := by
  induction s with
  | assign target value targetTy ty =>
    obtain ⟨htarget, hvalue⟩ := List.forall_mem_append.1 h
    exact List.forall_mem_cons.2 ⟨Target.isFullPart_text htarget,
      List.forall_mem_singleton.2 (Expr.isFullPart_text hvalue)⟩
  | print value => exact List.forall_mem_singleton.2 (Expr.isFullPart_text h)
  | read name symbol =>
    exact List.forall_mem_singleton.2 (isFullPart_variableText (h name List.mem_cons_self))
  | ret value => exact List.forall_mem_singleton.2 (Expr.isFullPart_text h)
  | branch condition yes no ihyes ihno =>
    rw [Stmt.mentioned_branch, Stmt.mentionedAll_eq_flatMap, Stmt.mentionedAll_eq_flatMap] at h
    obtain ⟨hcondition, hblocks⟩ := List.forall_mem_append.1 h
    obtain ⟨hyes, hno⟩ := List.forall_mem_append.1 hblocks
    have hyes' := fun s hs => isFullPart_of_parts (ihyes s hs (List.forall_mem_flatMap.1 hyes s hs))
    have hno' := fun s hs => isFullPart_of_parts (ihno s hs (List.forall_mem_flatMap.1 hno s hs))
    refine List.forall_mem_cons.2 ⟨Expr.isFullPart_text hcondition,
      List.forall_mem_cons.2 ⟨isFullPart_blockText hyes', ?_⟩⟩
    cases no with
    | none => exact fun part hpart => by cases hpart
    | some no => exact List.forall_mem_singleton.2 (isFullPart_blockText hno')
  | loop condition body ih =>
    rw [Stmt.mentioned, Stmt.mentionedAll_eq_flatMap] at h
    obtain ⟨hcondition, hbody⟩ := List.forall_mem_append.1 h
    have hbody' := fun s hs => isFullPart_of_parts (ih s hs (List.forall_mem_flatMap.1 hbody s hs))
    exact List.forall_mem_cons.2 ⟨Expr.isFullPart_text hcondition,
      List.forall_mem_singleton.2 (isFullPart_blockText hbody')⟩
  | block body ih =>
    rw [Stmt.mentioned, Stmt.mentionedAll_eq_flatMap] at h
    refine List.forall_mem_map.2 fun s hs => ?_
    exact isFullPart_of_parts (ih s hs (List.forall_mem_flatMap.1 h s hs))

lemma isFullPart_text {s : Stmt} (h : ∀ name ∈ s.mentioned, isUnbracketed name = true) :
    IsFullPart s.text :=
  isFullPart_of_parts (isFullPart_parts h)

/-- The text of a statement determines its node. -/
lemma node_inj {s s' : Stmt} (h : ∀ name ∈ s.mentioned, isUnbracketed name = true)
    (h' : ∀ name ∈ s'.mentioned, isUnbracketed name = true) (htext : s.text = s'.text) :
    s.heading = s'.heading ∧ s.parts = s'.parts := by
  rw [s.text_eq_node, s'.text_eq_node] at htext
  exact nodeText_inj_of_full s.isUnbracketed_heading s'.isUnbracketed_heading
    (isFullPart_parts h) (isFullPart_parts h') htext

/-- A block whose statements are determined by their texts is determined by its text. -/
lemma map_bare_eq_of_blockText_eq {body body' : List Stmt}
    (h : ∀ s ∈ body, IsFullPart s.text) (h' : ∀ s ∈ body', IsFullPart s.text)
    (hbare : ∀ s ∈ body, ∀ s' ∈ body', s.text = s'.text → s.bare = s'.bare)
    (heq : blockText body = blockText body') : body.map Stmt.bare = body'.map Stmt.bare := by
  rw [blockText_eq_node, blockText_eq_node] at heq
  obtain ⟨_, htexts⟩ := nodeText_inj_of_full rfl rfl (List.forall_mem_map.2 h)
    (List.forall_mem_map.2 h') heq
  exact map_eq_of_map_text_eq hbare htexts

/-- A statement is determined by its text, up to annotations. -/
lemma bare_eq_of_text_eq {s s' : Stmt} (h : ∀ name ∈ s.mentioned, isUnbracketed name = true)
    (h' : ∀ name ∈ s'.mentioned, isUnbracketed name = true) (htext : s.text = s'.text) :
    s.bare = s'.bare := by
  induction s generalizing s' with
  | assign target value targetTy ty =>
    obtain ⟨hheading, hparts⟩ := node_inj h h' htext
    cases s' with
    | assign target' value' targetTy' ty' =>
      simp only [parts, List.cons.injEq, and_true] at hparts
      obtain ⟨htarget, hvalue⟩ := hparts
      obtain ⟨ht, hv⟩ := List.forall_mem_append.1 h
      obtain ⟨ht', hv'⟩ := List.forall_mem_append.1 h'
      rw [Stmt.bare, Stmt.bare, Target.bare_eq_of_text_eq ht ht' htarget,
        Expr.bare_eq_of_text_eq hv hv' hvalue]
    | _ => simp [heading] at hheading
  | print value =>
    obtain ⟨hheading, hparts⟩ := node_inj h h' htext
    cases s' with
    | print value' =>
      rw [Stmt.bare, Stmt.bare, Expr.bare_eq_of_text_eq h h' (List.head_eq_of_cons_eq hparts)]
    | _ => simp [heading] at hheading
  | read name symbol =>
    obtain ⟨hheading, hparts⟩ := node_inj h h' htext
    cases s' with
    | read name' symbol' =>
      rw [Stmt.bare, Stmt.bare, variableText_inj (h name List.mem_cons_self)
        (h' name' List.mem_cons_self) (List.head_eq_of_cons_eq hparts)]
    | _ => simp [heading] at hheading
  | ret value =>
    obtain ⟨hheading, hparts⟩ := node_inj h h' htext
    cases s' with
    | ret value' =>
      rw [Stmt.bare, Stmt.bare, Expr.bare_eq_of_text_eq h h' (List.head_eq_of_cons_eq hparts)]
    | _ => simp [heading] at hheading
  | branch condition yes no ihyes ihno =>
    obtain ⟨hheading, hparts⟩ := node_inj h h' htext
    cases s' with
    | branch condition' yes' no' =>
      simp only [parts, List.cons.injEq] at hparts
      obtain ⟨hcondition, hyes, hno⟩ := hparts
      have hnode := by simpa using congrArg List.head? hno
      rw [funext blockText_eq_node] at hnode
      rw [Stmt.mentioned_branch, Stmt.mentionedAll_eq_flatMap, Stmt.mentionedAll_eq_flatMap,
        List.forall_mem_append, List.forall_mem_append, List.forall_mem_flatMap,
        List.forall_mem_flatMap] at h h'
      have hyesBare := map_bare_eq_of_blockText_eq (fun s hs => isFullPart_text (h.2.1 s hs))
        (fun s hs => isFullPart_text (h'.2.1 s hs))
        (fun s hs s' hs' => ihyes s hs (h.2.1 s hs) (h'.2.1 s' hs')) hyes
      have hnoBare := optionMap_eq_of_node_eq "Block" rfl
        (fun s hs => isFullPart_text (h.2.2 s hs)) (fun s hs => isFullPart_text (h'.2.2 s hs))
        (fun s hs s' hs' => ihno s hs (h.2.2 s hs) (h'.2.2 s' hs')) hnode
      rw [Stmt.bare_branch, Stmt.bare_branch, Expr.bare_eq_of_text_eq h.1 h'.1 hcondition,
        hyesBare, hnoBare]
    | _ => simp [heading] at hheading
  | loop condition body ih =>
    obtain ⟨hheading, hparts⟩ := node_inj h h' htext
    cases s' with
    | loop condition' body' =>
      simp only [parts, List.cons.injEq, and_true] at hparts
      obtain ⟨hcondition, hbody⟩ := hparts
      rw [Stmt.mentioned, Stmt.mentionedAll_eq_flatMap, List.forall_mem_append,
        List.forall_mem_flatMap] at h h'
      have hbodyBare := map_bare_eq_of_blockText_eq (fun s hs => isFullPart_text (h.2 s hs))
        (fun s hs => isFullPart_text (h'.2 s hs))
        (fun s hs s' hs' => ih s hs (h.2 s hs) (h'.2 s' hs')) hbody
      rw [Stmt.bare, Stmt.bare, Stmt.bareAll_eq_map, Stmt.bareAll_eq_map,
        Expr.bare_eq_of_text_eq h.1 h'.1 hcondition, hbodyBare]
    | _ => simp [heading] at hheading
  | block body ih =>
    obtain ⟨hheading, hparts⟩ := node_inj h h' htext
    cases s' with
    | block body' =>
      rw [Stmt.mentioned, Stmt.mentionedAll_eq_flatMap, List.forall_mem_flatMap] at h h'
      rw [Stmt.bare, Stmt.bare, Stmt.bareAll_eq_map, Stmt.bareAll_eq_map,
        map_eq_of_map_text_eq (fun s hs s' hs' => ih s hs (h s hs) (h' s' hs')) hparts]
    | _ => simp [heading] at hheading

lemma bareAll_eq_of_blockText_eq {body body' : List Stmt}
    (h : ∀ name ∈ Stmt.mentionedAll body, isUnbracketed name = true)
    (h' : ∀ name ∈ Stmt.mentionedAll body', isUnbracketed name = true)
    (heq : blockText body = blockText body') : Stmt.bareAll body = Stmt.bareAll body' := by
  rw [Stmt.mentionedAll_eq_flatMap, List.forall_mem_flatMap] at h h'
  rw [Stmt.bareAll_eq_map, Stmt.bareAll_eq_map]
  exact map_bare_eq_of_blockText_eq (fun s hs => isFullPart_text (h s hs))
    (fun s hs => isFullPart_text (h' s hs))
    (fun s hs s' hs' => bare_eq_of_text_eq (h s hs) (h' s' hs')) heq

end Stmt

/-! ## Declarations and programs -/

namespace VarDef

/-- The name of the node of a definition. -/
def heading : VarDef → String
  | .scalar _ => "Variable"
  | .array .. => "ArrayIndex"

/-- The parts of the node of a definition. -/
def parts : VarDef → List String
  | .scalar name => [name]
  | .array name size => [variableText name, nodeText "Integer" [toString size]]

lemma text_eq_node (v : VarDef) : v.text = nodeText v.heading v.parts := by
  cases v <;> rfl

lemma isUnbracketed_heading (v : VarDef) : isUnbracketed v.heading = true := by
  unfold heading
  split <;> rfl

lemma isPart_size (size : Nat) : ∀ part ∈ [toString size], IsPart part :=
  List.forall_mem_singleton.2 (.of_isUnbracketed (isUnbracketed_toString size))

lemma isPart_parts {v : VarDef} (h : isUnbracketed v.name = true) :
    ∀ part ∈ v.parts, IsPart part := by
  cases v with
  | scalar name => exact List.forall_mem_singleton.2 (.of_isUnbracketed h)
  | array name size =>
    exact List.forall_mem_cons.2 ⟨(isFullPart_variableText h).1,
      List.forall_mem_singleton.2 (isFullPart_nodeText rfl (isPart_size size)).1⟩

lemma isFullPart_text {v : VarDef} (h : isUnbracketed v.name = true) : IsFullPart v.text :=
  v.text_eq_node ▸ isFullPart_nodeText v.isUnbracketed_heading (isPart_parts h)

/-- A definition is determined by its text. -/
lemma eq_of_text_eq {v v' : VarDef} (h : isUnbracketed v.name = true)
    (h' : isUnbracketed v'.name = true) (htext : v.text = v'.text) : v = v' := by
  rw [v.text_eq_node, v'.text_eq_node] at htext
  obtain ⟨hheading, hparts⟩ := nodeText_inj v.isUnbracketed_heading v'.isUnbracketed_heading
    (by cases v <;> exact List.cons_ne_nil _ _) (by cases v' <;> exact List.cons_ne_nil _ _)
    (isPart_parts h) (isPart_parts h') htext
  cases v with
  | scalar name =>
    cases v' with
    | scalar name' => rw [List.head_eq_of_cons_eq hparts]
    | array name' size' => simp [heading] at hheading
  | array name size =>
    cases v' with
    | scalar name' => simp [heading] at hheading
    | array name' size' =>
      simp only [parts, List.cons.injEq, and_true] at hparts
      obtain ⟨hname, hsize⟩ := hparts
      obtain ⟨_, hnumeral⟩ := nodeText_inj rfl rfl (List.cons_ne_nil _ []) (List.cons_ne_nil _ [])
        (isPart_size size) (isPart_size size') hsize
      obtain rfl : name = name' := variableText_inj h h' hname
      rw [Text.eq_of_toString_eq (List.head_eq_of_cons_eq hnumeral)]

end VarDef

/-- A variable group is one node.  What stands after the type need not be a part, and is taken apart
after the type is dropped. -/
lemma variablesText_eq_inside (group : List VarDef) :
    variablesText group =
      "VariableDeclarations" ++ "(" ++ ("INT, " ++ ", ".intercalate (group.map VarDef.text)) ++
        ")" := by
  simp [variablesText, nodeText, String.intercalate_cons_cons, String.append_assoc]

lemma isFullPart_variablesText {group : List VarDef}
    (h : ∀ v ∈ group, isUnbracketed v.name = true) : IsFullPart (variablesText group) := by
  rw [variablesText_eq_inside]
  refine isFullPart_of_inside rfl ?_
  have hgroup : depthAfter 1 (", ".intercalate (group.map VarDef.text)).toList = some 1 :=
    depthAfter_intercalate (List.forall_mem_map.2 fun v hv => (VarDef.isFullPart_text (h v hv)).1)
  rw [String.toList_append, depthAfter_append]
  exact hgroup

lemma variablesText_inj {group group' : List VarDef}
    (h : ∀ v ∈ group, isUnbracketed v.name = true) (h' : ∀ v ∈ group', isUnbracketed v.name = true)
    (heq : variablesText group = variablesText group') : group = group' := by
  rw [variablesText_eq_inside, variablesText_eq_inside] at heq
  obtain ⟨_, hinside⟩ := inside_inj rfl rfl heq
  have hgroups : ", ".intercalate (group.map VarDef.text) =
      ", ".intercalate (group'.map VarDef.text) :=
    (String.append_right_inj "INT, ").1 hinside
  have htexts := intercalate_inj_of_full
    (List.forall_mem_map.2 fun v hv => VarDef.isFullPart_text (h v hv))
    (List.forall_mem_map.2 fun v hv => VarDef.isFullPart_text (h' v hv)) hgroups
  have hmap : group.map id = group'.map id := map_eq_of_map_text_eq
    (fun v hv v' hv' => VarDef.eq_of_text_eq (h v hv) (h' v' hv')) htexts
  simpa using hmap

/-- Of two parts that may both be left out, it is seen which ones are there. -/
lemma toList_append_toList_inj {α : Type} {a a' b b' : Option α} (h : ∀ x ∈ a, ∀ y ∈ b', x ≠ y)
    (h' : ∀ x ∈ a', ∀ y ∈ b, x ≠ y) (heq : a.toList ++ b.toList = a'.toList ++ b'.toList) :
    a = a' ∧ b = b' := by
  cases a <;> cases b <;> cases a' <;> cases b' <;> simp_all

namespace FunctionDecl

/-- The parts of a declaration between its name and its body: the parameters and the local
variables, as far as they are there. -/
def listTexts (f : FunctionDecl) : List String :=
  (f.params.map fun params => nodeText "Arguments" (params.map variableText)).toList ++
    (f.locals.map variablesText).toList

lemma text_eq_node (f : FunctionDecl) :
    f.text = nodeText "FunctionDeclaration" (f.name :: (f.listTexts ++ [blockText f.body])) := by
  simp [FunctionDecl.text, listTexts]

lemma forall_mem_mentioned {f : FunctionDecl} {P : String → Prop} :
    (∀ name ∈ f.mentioned, P name) ↔ P f.name ∧ (∀ name ∈ f.params.getD [], P name) ∧
      (∀ v ∈ f.locals.getD [], P v.name) ∧ ∀ name ∈ Stmt.mentionedAll f.body, P name := by
  simp [mentioned, innerNames, paramList, localList, or_imp, forall_and]

lemma isPart_parts {f : FunctionDecl} (h : ∀ name ∈ f.mentioned, isUnbracketed name = true) :
    ∀ part ∈ f.name :: (f.listTexts ++ [blockText f.body]), IsPart part := by
  obtain ⟨hname, hparams, hlocals, hbody⟩ := forall_mem_mentioned.1 h
  rw [Stmt.mentionedAll_eq_flatMap, List.forall_mem_flatMap] at hbody
  have hblock : IsPart (blockText f.body) :=
    (isFullPart_blockText fun s hs => Stmt.isFullPart_text (hbody s hs)).1
  have hlists : ∀ part ∈ f.listTexts, IsPart part := by
    refine List.forall_mem_append.2 ⟨?_, ?_⟩
    · rintro part hpart
      obtain ⟨params, hf, rfl⟩ := Option.map_eq_some_iff.1 (Option.mem_toList.1 hpart)
      rw [hf] at hparams
      exact (isFullPart_nodeText rfl (List.forall_mem_map.2 fun name hname =>
        (isFullPart_variableText (hparams name hname)).1)).1
    · rintro part hpart
      obtain ⟨group, hf, rfl⟩ := Option.map_eq_some_iff.1 (Option.mem_toList.1 hpart)
      rw [hf] at hlocals
      exact (isFullPart_variablesText hlocals).1
  exact List.forall_mem_cons.2 ⟨.of_isUnbracketed hname,
    List.forall_mem_append.2 ⟨hlists, List.forall_mem_singleton.2 hblock⟩⟩

lemma isFullPart_text {f : FunctionDecl} (h : ∀ name ∈ f.mentioned, isUnbracketed name = true) :
    IsFullPart f.text :=
  f.text_eq_node ▸ isFullPart_nodeText rfl (isPart_parts h)

/-- A list of parameters is never taken for a group of variables. -/
lemma arguments_ne_variablesText (parts : List String) (group : List VarDef) :
    nodeText "Arguments" parts ≠ variablesText group := by
  intro h
  rw [variablesText_eq_inside] at h
  exact absurd (inside_inj rfl rfl h).1 (by decide)

/-- The parameters and the local variables of a function are determined by their texts. -/
lemma lists_eq_of_listTexts_eq {f f' : FunctionDecl}
    (h : ∀ name ∈ f.mentioned, isUnbracketed name = true)
    (h' : ∀ name ∈ f'.mentioned, isUnbracketed name = true) (heq : f.listTexts = f'.listTexts) :
    f.params = f'.params ∧ f.locals = f'.locals := by
  obtain ⟨_, hparams, hlocals, _⟩ := forall_mem_mentioned.1 h
  obtain ⟨_, hparams', hlocals', _⟩ := forall_mem_mentioned.1 h'
  have hne : ∀ g g' : FunctionDecl,
      ∀ x ∈ g.params.map fun params => nodeText "Arguments" (params.map variableText),
      ∀ y ∈ g'.locals.map variablesText, x ≠ y := by
    rintro g g' x hx y hy
    obtain ⟨params, _, rfl⟩ := Option.map_eq_some_iff.1 hx
    obtain ⟨group, _, rfl⟩ := Option.map_eq_some_iff.1 hy
    exact arguments_ne_variablesText _ group
  obtain ⟨hfirst, hsecond⟩ := toList_append_toList_inj (hne f f') (hne f' f) heq
  constructor
  · have hnames := optionMap_eq_of_node_eq "Arguments" rfl
      (fun name hname => isFullPart_variableText (hparams name hname))
      (fun name hname => isFullPart_variableText (hparams' name hname))
      (fun name hname name' hname' => variableText_inj (hparams name hname) (hparams' name' hname'))
      hfirst
    simpa using hnames
  · cases hgroup : f.locals with
    | none =>
      rw [hgroup] at hsecond
      exact (Option.map_eq_none_iff.1 hsecond.symm).symm
    | some group =>
      rw [hgroup] at hsecond
      obtain ⟨group', hgroup', htext⟩ := Option.map_eq_some_iff.1 hsecond.symm
      rw [hgroup] at hlocals
      rw [hgroup'] at hlocals' ⊢
      exact congrArg some (variablesText_inj hlocals hlocals' htext.symm)

/-- A function is determined by its text, up to annotations. -/
lemma bare_eq_of_text_eq {f f' : FunctionDecl}
    (h : ∀ name ∈ f.mentioned, isUnbracketed name = true)
    (h' : ∀ name ∈ f'.mentioned, isUnbracketed name = true) (htext : f.text = f'.text) :
    f.bare = f'.bare := by
  rw [f.text_eq_node, f'.text_eq_node] at htext
  obtain ⟨_, hparts⟩ := nodeText_inj rfl rfl (List.cons_ne_nil _ _) (List.cons_ne_nil _ _)
    (isPart_parts h) (isPart_parts h') htext
  obtain ⟨hname, hrest⟩ := List.cons.inj hparts
  obtain ⟨hlists, hblock⟩ := List.append_inj' hrest rfl
  obtain ⟨hparams, hlocals⟩ := lists_eq_of_listTexts_eq h h' hlists
  have hbody : Stmt.bareAll f.body = Stmt.bareAll f'.body :=
    Stmt.bareAll_eq_of_blockText_eq (forall_mem_mentioned.1 h).2.2.2
      (forall_mem_mentioned.1 h').2.2.2 (List.head_eq_of_cons_eq hblock)
  rw [FunctionDecl.bare, FunctionDecl.bare, hname, hparams, hlocals, hbody]

end FunctionDecl

namespace Decl

lemma isFullPart_text {d : Decl} (h : ∀ name ∈ d.identifiers, isUnbracketed name = true) :
    IsFullPart d.text := by
  cases d with
  | vars group => exact isFullPart_variablesText (List.forall_mem_map.1 h)
  | function f => exact FunctionDecl.isFullPart_text h

/-- A group of variables is never taken for a function. -/
lemma variablesText_ne_text (group : List VarDef) (f : FunctionDecl) :
    variablesText group ≠ f.text := by
  intro h
  rw [variablesText_eq_inside, f.text_eq_node] at h
  exact absurd (inside_inj rfl rfl h).1 (by decide)

lemma bare_eq_of_text_eq {d d' : Decl} (h : ∀ name ∈ d.identifiers, isUnbracketed name = true)
    (h' : ∀ name ∈ d'.identifiers, isUnbracketed name = true) (htext : d.text = d'.text) :
    d.bare = d'.bare := by
  cases d with
  | vars group =>
    cases d' with
    | vars group' =>
      rw [variablesText_inj (List.forall_mem_map.1 h) (List.forall_mem_map.1 h') htext]
    | function f' => exact absurd htext (variablesText_ne_text group f')
  | function f =>
    cases d' with
    | vars group' => exact absurd htext.symm (variablesText_ne_text group' f)
    | function f' => rw [Decl.bare, Decl.bare, FunctionDecl.bare_eq_of_text_eq h h' htext]

end Decl

namespace Program

variable {p q : Program}

lemma isFullPart_parts (h : ∀ name ∈ p.identifiers, isUnbracketed name = true) :
    ∀ part ∈ (p.declarations.map fun ds => nodeText "Declarations" (ds.map Decl.text)).toList ++
      [blockText p.body], IsFullPart part := by
  obtain ⟨hdeclarations, hbody⟩ := List.forall_mem_append.1 h
  rw [List.forall_mem_flatMap] at hdeclarations
  rw [Stmt.mentionedAll_eq_flatMap, List.forall_mem_flatMap] at hbody
  refine List.forall_mem_append.2 ⟨?_, List.forall_mem_singleton.2
    (isFullPart_blockText fun s hs => Stmt.isFullPart_text (hbody s hs))⟩
  intro part hpart
  obtain ⟨list, hp, rfl⟩ := Option.map_eq_some_iff.1 (Option.mem_toList.1 hpart)
  rw [declarationList, hp] at hdeclarations
  exact isFullPart_nodeText rfl
    (List.forall_mem_map.2 fun d hd => (Decl.isFullPart_text (hdeclarations d hd)).1)

/-- Programs in whose names there is no parenthesis and no comma have the same text only if they
are the same up to annotations.  An absent list and an empty one are told apart. -/
theorem text_eq_iff_bare_eq (hp : ∀ name ∈ p.identifiers, isUnbracketed name = true)
    (hq : ∀ name ∈ q.identifiers, isUnbracketed name = true) :
    p.text = q.text ↔ p.bare = q.bare := by
  refine ⟨fun htext => ?_, text_eq_of_bare_eq⟩
  obtain ⟨_, hparts⟩ := nodeText_inj_of_full rfl rfl (isFullPart_parts hp) (isFullPart_parts hq)
    htext
  obtain ⟨hnodes, hblock⟩ := List.append_inj' hparts rfl
  obtain ⟨hdeclarations, hbody⟩ := List.forall_mem_append.1 hp
  obtain ⟨hdeclarations', hbody'⟩ := List.forall_mem_append.1 hq
  rw [List.forall_mem_flatMap] at hdeclarations hdeclarations'
  have hlists := optionMap_eq_of_node_eq "Declarations" rfl
    (fun d hd => Decl.isFullPart_text (hdeclarations d hd))
    (fun d hd => Decl.isFullPart_text (hdeclarations' d hd))
    (fun d hd d' hd' => Decl.bare_eq_of_text_eq (hdeclarations d hd) (hdeclarations' d' hd'))
    (by simpa using congrArg List.head? hnodes)
  have hbodies : Stmt.bareAll p.body = Stmt.bareAll q.body :=
    Stmt.bareAll_eq_of_blockText_eq hbody hbody' (List.head_eq_of_cons_eq hblock)
  rw [bare, bare, hbodies]
  exact congrArg (Program.mk · _) hlists

/-- A function without parameters and with an empty group of variables is written differently from
one with an empty list of parameters and without variables, and an empty alternative differently
from an empty block inside. -/
theorem text_ne_of_lists_left_out :
    (∀ name ∈ (Program.mk (some [.function ⟨"f", none, some [], []⟩])
      [.branch (.var "f" none none) [.block []] none]).identifiers, isUnbracketed name = true) ∧
    (∀ name ∈ (Program.mk (some [.function ⟨"f", some [], none, []⟩])
      [.branch (.var "f" none none) [] (some [])]).identifiers, isUnbracketed name = true) ∧
    (Program.mk (some [.function ⟨"f", none, some [], []⟩])
      [.branch (.var "f" none none) [.block []] none]).text ≠
    (Program.mk (some [.function ⟨"f", some [], none, []⟩])
      [.branch (.var "f" none none) [] (some [])]).text := by
  refine ⟨by decide, by decide, ?_⟩
  rw [Ne, text_eq_iff_bare_eq (by decide) (by decide)]
  simp [bare, Decl.bare, FunctionDecl.bare]

end Program

end DLang
