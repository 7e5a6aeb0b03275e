import DLang.Proofs.Grammar.Derivation
import DLang.Proofs.Static.Bare

/-!
# The trees of the grammar

A tree may hold a comparison wherever it holds an expression.  The grammar derives fewer trees: a
comparison stands only as the condition of a branch or a loop, and the condition is always one.
`Plain` says that a tree is of this sort.  It does not depend on annotations, so it holds of the
annotated tree of a derived program too (`Program.plain_bare_iff`).
-/

namespace DLang

/-! ## Plain trees -/

/-- Expressions without comparisons. -/
inductive Expr.Plain : Expr → Prop
  | integer {value : Int32} {ty : Option Ty} : Plain (.integer value ty)
  | var {name : String} {symbol : Option Symbol} {ty : Option Ty} : Plain (.var name symbol ty)
  | element {name : String} {index : Expr} {symbol : Option Symbol} {ty : Option Ty} :
      Plain index → Plain (.element name index symbol ty)
  | arith {op : ArithOp} {left right : Expr} {ty : Option Ty} :
      Plain left → Plain right → Plain (.arith op left right ty)
  | call {name : String} {args : Option (List Expr)} {ty : Option Ty} :
      (∀ e ∈ args.getD [], Plain e) → Plain (.call name args ty)

/-- Comparisons of expressions without comparisons. -/
inductive Expr.PlainCondition : Expr → Prop
  | compare {op : RelOp} {left right : Expr} {ty : Option Ty} :
      left.Plain → right.Plain → PlainCondition (.compare op left right ty)

/-- Statements whose conditions are comparisons, and that have no other ones. -/
inductive Stmt.Plain : Stmt → Prop
  | assignVar {name : String} {symbol : Option Symbol} {value : Expr} {targetTy ty : Option Ty} :
      value.Plain → Plain (.assign (.var name symbol) value targetTy ty)
  | assignElement {name : String} {index : Expr} {symbol : Option Symbol} {value : Expr}
      {targetTy ty : Option Ty} :
      index.Plain → value.Plain → Plain (.assign (.element name index symbol) value targetTy ty)
  | print {value : Expr} : value.Plain → Plain (.print value)
  | read {name : String} {symbol : Option Symbol} : Plain (.read name symbol)
  | ret {value : Expr} : value.Plain → Plain (.ret value)
  | branch {condition : Expr} {yes : List Stmt} {no : Option (List Stmt)} :
      condition.PlainCondition → (∀ s ∈ yes, Plain s) → (∀ s ∈ no.getD [], Plain s) →
      Plain (.branch condition yes no)
  | loop {condition : Expr} {body : List Stmt} :
      condition.PlainCondition → (∀ s ∈ body, Plain s) → Plain (.loop condition body)
  | block {body : List Stmt} : (∀ s ∈ body, Plain s) → Plain (.block body)

/-- Programs of plain statements. -/
structure Program.Plain (p : Program) : Prop where
  functions : ∀ f ∈ p.functions, ∀ s ∈ f.body, s.Plain
  body : ∀ s ∈ p.body, s.Plain

/-- A plain expression is an integer. -/
lemma Expr.Plain.typeOf {e : Expr} (h : e.Plain) : e.typeOf = .int := by
  cases h <;> rfl

/-! ## Annotations -/

lemma Expr.plain_bare_iff (e : Expr) : e.bare.Plain ↔ e.Plain := by
  induction e with
  | integer value ty => exact ⟨fun _ => .integer, fun _ => .integer⟩
  | var name symbol ty => exact ⟨fun _ => .var, fun _ => .var⟩
  | element name index symbol ty ih =>
    constructor
    · rintro (_ | _ | hindex)
      exact .element (ih.1 hindex)
    · rintro (_ | _ | hindex)
      exact .element (ih.2 hindex)
  | arith op left right ty ihl ihr =>
    constructor
    · rintro (_ | _ | _ | ⟨hl, hr⟩)
      exact .arith (ihl.1 hl) (ihr.1 hr)
    · rintro (_ | _ | _ | ⟨hl, hr⟩)
      exact .arith (ihl.2 hl) (ihr.2 hr)
  | compare op left right ty _ _ =>
    constructor
    · intro h
      cases h
    · intro h
      cases h
  | call name args ty ih =>
    have hargs : (∀ e ∈ (args.getD []).map Expr.bare, e.Plain) ↔ ∀ e ∈ args.getD [], e.Plain := by
      rw [List.forall_mem_map]
      exact forall₂_congr ih
    rw [Expr.bare_call]
    constructor
    · rintro (_ | _ | _ | _ | h)
      rw [getD_map_map] at h
      exact .call (hargs.1 h)
    · rintro (_ | _ | _ | _ | h)
      refine .call ?_
      rw [getD_map_map]
      exact hargs.2 h

lemma Expr.plainCondition_bare_iff (e : Expr) : e.bare.PlainCondition ↔ e.PlainCondition := by
  cases e with
  | compare op left right ty =>
    constructor
    · rintro ⟨hl, hr⟩
      exact .compare (left.plain_bare_iff.1 hl) (right.plain_bare_iff.1 hr)
    · rintro ⟨hl, hr⟩
      exact .compare (left.plain_bare_iff.2 hl) (right.plain_bare_iff.2 hr)
  | call name args ty =>
    constructor
    · cases args <;> exact fun h => nomatch h
    · exact fun h => nomatch h
  | _ =>
    constructor
    · exact fun h => nomatch h
    · exact fun h => nomatch h

lemma Stmt.forall_plain_map_bare {list : List Stmt} (h : ∀ s ∈ list, (s.bare.Plain ↔ s.Plain)) :
    (∀ s ∈ list.map Stmt.bare, s.Plain) ↔ ∀ s ∈ list, s.Plain := by
  rw [List.forall_mem_map]
  exact forall₂_congr h

lemma Stmt.plain_bare_iff (s : Stmt) : s.bare.Plain ↔ s.Plain := by
  induction s with
  | assign target value targetTy ty =>
    cases target with
    | var name symbol =>
      constructor
      · rintro ⟨hvalue⟩
        exact .assignVar (value.plain_bare_iff.1 hvalue)
      · rintro ⟨hvalue⟩
        exact .assignVar (value.plain_bare_iff.2 hvalue)
    | element name index symbol =>
      constructor
      · rintro (_ | ⟨hindex, hvalue⟩)
        exact .assignElement (index.plain_bare_iff.1 hindex) (value.plain_bare_iff.1 hvalue)
      · rintro (_ | ⟨hindex, hvalue⟩)
        exact .assignElement (index.plain_bare_iff.2 hindex) (value.plain_bare_iff.2 hvalue)
  | print value =>
    constructor
    · rintro (_ | _ | hvalue)
      exact .print (value.plain_bare_iff.1 hvalue)
    · rintro (_ | _ | hvalue)
      exact .print (value.plain_bare_iff.2 hvalue)
  | read name symbol => exact ⟨fun _ => .read, fun _ => .read⟩
  | ret value =>
    constructor
    · rintro (_ | _ | _ | _ | hvalue)
      exact .ret (value.plain_bare_iff.1 hvalue)
    · rintro (_ | _ | _ | _ | hvalue)
      exact .ret (value.plain_bare_iff.2 hvalue)
  | branch condition yes no ihyes ihno =>
    have hyes := Stmt.forall_plain_map_bare ihyes
    have hno := Stmt.forall_plain_map_bare ihno
    rw [Stmt.bare_branch]
    constructor
    · rintro (_ | _ | _ | _ | _ | ⟨hcond, hy, hn⟩)
      rw [getD_map_map] at hn
      exact .branch (condition.plainCondition_bare_iff.1 hcond) (hyes.1 hy) (hno.1 hn)
    · rintro (_ | _ | _ | _ | _ | ⟨hcond, hy, hn⟩)
      refine .branch (condition.plainCondition_bare_iff.2 hcond) (hyes.2 hy) ?_
      rw [getD_map_map]
      exact hno.2 hn
  | loop condition body ih =>
    have hbody := Stmt.forall_plain_map_bare ih
    rw [Stmt.bare, Stmt.bareAll_eq_map]
    constructor
    · rintro (_ | _ | _ | _ | _ | _ | ⟨hcond, hb⟩)
      exact .loop (condition.plainCondition_bare_iff.1 hcond) (hbody.1 hb)
    · rintro (_ | _ | _ | _ | _ | _ | ⟨hcond, hb⟩)
      exact .loop (condition.plainCondition_bare_iff.2 hcond) (hbody.2 hb)
  | block body ih =>
    have hbody := Stmt.forall_plain_map_bare ih
    rw [Stmt.bare, Stmt.bareAll_eq_map]
    constructor
    · rintro (_ | _ | _ | _ | _ | _ | _ | hb)
      exact .block (hbody.1 hb)
    · rintro (_ | _ | _ | _ | _ | _ | _ | hb)
      exact .block (hbody.2 hb)

lemma Stmt.forall_plain_bare_iff (list : List Stmt) :
    (∀ s ∈ Stmt.bareAll list, s.Plain) ↔ ∀ s ∈ list, s.Plain := by
  rw [Stmt.bareAll_eq_map]
  exact Stmt.forall_plain_map_bare fun s _ => s.plain_bare_iff

lemma Program.plain_bare_iff (p : Program) : p.bare.Plain ↔ p.Plain := by
  have hfunctions : (∀ f ∈ p.bare.functions, ∀ s ∈ f.body, s.Plain) ↔
      ∀ f ∈ p.functions, ∀ s ∈ f.body, s.Plain := by
    rw [Program.functions_bare, List.forall_mem_map]
    exact forall₂_congr fun f _ => Stmt.forall_plain_bare_iff f.body
  have hbody := Stmt.forall_plain_bare_iff p.body
  exact ⟨fun h => ⟨hfunctions.1 h.functions, hbody.1 h.body⟩,
    fun h => ⟨hfunctions.2 h.functions, hbody.2 h.body⟩⟩

/-! ## Derivations -/

/-- The trees of a phrase are plain. -/
def Phrase.Plain : Phrase → Prop
  | .program p => p.Plain
  | .declarations list => ∀ f ∈ list.flatMap Decl.functions, ∀ s ∈ f.body, s.Plain
  | .declaration d => ∀ f ∈ d.functions, ∀ s ∈ f.body, s.Plain
  | .function f => ∀ s ∈ f.body, s.Plain
  | .block body => ∀ s ∈ body, s.Plain
  | .statements body => ∀ s ∈ body, s.Plain
  | .statement s => ∀ s' ∈ s.toList, s'.Plain
  | .alternative no => ∀ s ∈ no.getD [], s.Plain
  | .assignment s => s.Plain
  | .comparison e => e.PlainCondition
  | .expression e => e.Plain
  | .term e => e.Plain
  | .factor e => e.Plain
  | .args list => ∀ e ∈ list.getD [], e.Plain
  | .expressions list => ∀ e ∈ list, e.Plain
  | _ => True

/-- The grammar derives plain trees only. -/
lemma Derives.plain {w : List Token} {phrase : Phrase} (h : Derives w phrase) : phrase.Plain := by
  induction h with
  | bareProgram _ ih => exact ⟨fun f hf => (nomatch hf), ih⟩
  | @program u v list body _ _ ihu ihv =>
    refine ⟨?_, ihv⟩
    rw [Program.functions_eq]
    exact ihu
  | lastDeclaration _ ih => simpa [Phrase.Plain] using ih
  | moreDeclarations _ _ ihu ihv =>
    intro f hf
    rcases List.mem_append.1 hf with hf | hf
    · exact ihu f hf
    · exact ihv f hf
  | variablesDeclaration _ _ => exact fun f hf => nomatch hf
  | functionDeclaration _ ih => simpa [Phrase.Plain, Decl.functions] using ih
  | function _ _ _ _ _ _ _ _ _ ih => exact ih
  | block _ _ _ ih => exact ih
  | lastStatement _ ih => exact ih
  | moreStatements _ _ _ ihu ihv =>
    intro s hs
    rcases List.mem_append.1 hs with hs | hs
    · exact ihu s hs
    · exact ihv s hs
  | emptyStatement => exact fun s hs => nomatch hs
  | assignmentStatement _ ih => simpa [Phrase.Plain] using ih
  | blockStatement _ ih => simpa [Phrase.Plain] using Stmt.Plain.block ih
  | print _ _ _ _ ih => simpa [Phrase.Plain] using Stmt.Plain.print ih
  | read => simpa [Phrase.Plain] using Stmt.Plain.read
  | ret _ _ ih => simpa [Phrase.Plain] using Stmt.Plain.ret ih
  | loop _ _ _ _ _ ihu ihv => simpa [Phrase.Plain] using Stmt.Plain.loop ihu ihv
  | branch _ _ _ _ _ _ ihu ihv ihw => simpa [Phrase.Plain] using Stmt.Plain.branch ihu ihv ihw
  | noAlternative => exact fun s hs => nomatch hs
  | alternative _ _ ih => exact ih
  | assignVariable _ _ _ ih => exact .assignVar ih
  | assignElement _ _ _ _ _ _ ihu ihv => exact .assignElement ihu ihv
  | comparison _ _ _ ihu ihv => exact .compare ihu ihv
  | firstTerm _ ih => exact ih
  | sum _ _ _ ihu ihv => exact .arith ihu ihv
  | firstFactor _ ih => exact ih
  | product _ _ _ ihu ihv => exact .arith ihu ihv
  | number => exact .integer
  | name => exact .var
  | element _ _ _ _ ih => exact .element ih
  | call _ _ _ _ ih => exact .call ih
  | parenthesised _ _ _ ih => exact ih
  | noArgs => exact fun e he => nomatch he
  | args _ ih => exact ih
  | lastExpression _ ih => simpa [Phrase.Plain] using ih
  | moreExpressions _ _ _ ihu ihv =>
    intro e he
    rcases List.mem_cons.1 he with rfl | he
    · exact ihu
    · exact ihv e he
  | _ => exact trivial

end DLang
