import DLang.Proofs.Module.Format
import DLang.Proofs.Module.Lines
import DLang.Proofs.Module.Spelling

/-!
# Reading a module from its text

A text is the text of one module at most, if the names in it are identifiers: no two instructions
have the same words.  The words of a line are what its blanks separate, and none of them has a blank
in it, so they are those that the line was joined from.  What an instruction does is one of its
words, which leaves the instructions of one operation to be told apart.

Lines are told apart by their words, functions by their heads and the braces at their ends, and
modules by their functions (`Module.HasText.eq`).
-/

namespace DLang

/-- The words of a line, which are what its blanks separate. -/
def Text.words (line : String) : List String :=
  (line.toList.splitOn ' ').map String.ofList

/-- The words of a line are those it was joined from. -/
lemma Text.words_intercalate {words : List String} (hne : words ≠ [])
    (h : ∀ word ∈ words, ' ' ∉ word.toList) : Text.words (" ".intercalate words) = words := by
  have hblank : " ".toList = [' '] := rfl
  have hwords : ∀ word ∈ words.map String.toList, ' ' ∉ word := by simpa using h
  rw [Text.words, String.toList_intercalate, hblank,
    List.splitOn_intercalate ' ' hwords (by simpa using hne), List.map_map]
  simp

namespace IR

/-! ## Words -/

lemma machine_inj {ty ty' : Ty} (h : ty.machine = ty'.machine) : ty = ty' := by
  cases ty <;> cases ty' <;> simp [Ty.machine] at h ⊢

lemma Register.text_inj {r r' : Register} (hr : ∀ name ∈ r.mentioned, isIdentifier name = true)
    (hr' : ∀ name ∈ r'.mentioned, isIdentifier name = true) (h : r.text = r'.text) : r = r' := by
  cases r with
  | named name =>
    have hdot := dot_notMem_of_isIdentifier (hr name List.mem_cons_self)
    cases r' with
    | named name' => rw [Register.text_named_inj.1 h]
    | temporary n => exact absurd h (Register.text_named_ne_temporary hdot n)
  | temporary n =>
    cases r' with
    | named name' =>
      have hdot := dot_notMem_of_isIdentifier (hr' name' List.mem_cons_self)
      exact absurd h.symm (Register.text_named_ne_temporary hdot n)
    | temporary n' => rw [Register.text_temporary_inj.1 h]

lemma Opcode.text_inj {op op' : Opcode} (h : op.text = op'.text) : op = op' := by
  cases op <;> cases op' <;> simp [Opcode.text] at h ⊢

lemma Predicate.text_inj {predicate predicate' : Predicate}
    (h : predicate.text = predicate'.text) : predicate = predicate' := by
  cases predicate <;> cases predicate' <;> simp [Predicate.text] at h ⊢

lemma Mark.text_inj {mark mark' : Mark} (h : mark.text = mark'.text) : mark = mark' := by
  cases mark <;> cases mark' <;> simp [Mark.text] at h ⊢

/-- The numeral of a constant does not start like a register. -/
lemma decimal_ne_register (value : Int32) (r : Register) : Text.decimal value ≠ r.text := by
  intro h
  have hmem : '%' ∈ (Text.decimal value).toList := by
    rw [h]
    cases r <;> simp [Register.text]
  rcases Text.isDigit_or_eq_minus_of_mem_decimal hmem with hdigit | hminus
  · exact absurd hdigit (by decide)
  · exact absurd hminus (by decide)

lemma Operand.text_inj {x x' : Operand} (hx : ∀ name ∈ x.mentioned, isIdentifier name = true)
    (hx' : ∀ name ∈ x'.mentioned, isIdentifier name = true) (h : x.text = x'.text) : x = x' := by
  cases x with
  | constant value =>
    cases x' with
    | constant value' => rw [Text.decimal_inj h]
    | register r' => exact absurd h (decimal_ne_register value r')
  | register r =>
    cases x' with
    | constant value' => exact absurd h.symm (decimal_ne_register value' r)
    | register r' => rw [Register.text_inj hx hx' h]

lemma Label.text_inj {l l' : Label} (h : l.text = l'.text) : l = l' := by
  have hnumber := Label.number_eq_of_text_eq h
  cases l with
  | entry =>
    cases l' with
    | entry => rfl
    | numbered mark' number' =>
      obtain rfl : 0 = number' := hnumber
      cases mark' <;> exact absurd h (by decide)
  | numbered mark number =>
    cases l' with
    | entry =>
      obtain rfl : number = 0 := hnumber
      cases mark <;> exact absurd h (by decide)
    | numbered mark' number' =>
      obtain rfl : number = number' := hnumber
      rw [Mark.text_inj ((String.append_left_inj _).1 ((String.append_left_inj _).1 h))]

/-! ## Instructions -/

/-- The word of what an instruction does; the operations of arithmetic have one word. -/
def Instr.operation : Instr → String
  | reserve _ | reserveArray .. => "alloca"
  | store .. => "store"
  | load .. => "load"
  | elementAddress .. => "getelementptr"
  | arith .. => "arith"
  | compare .. => "icmp"
  | widen .. => "zext"
  | call .. | print .. | read .. => "call"
  | jump _ | branch .. => "br"
  | ret _ => "ret"

/-- The word of what is done, from the words of an instruction: it comes after the register of the
result, if there is one. -/
def operationOf (words : List String) : Option String :=
  let word := if words[1]? = some "=" then words[2]? else words[0]?
  if word ∈ [some "add", some "sub", some "mul", some "udiv"] then some "arith" else word

lemma Instr.HasWords.operationOf_eq {style : PointerStyle} {i : Instr} {words : List String}
    (h : i.HasWords style words) : operationOf words = some i.operation := by
  cases h with
  | arith into hop => cases hop <;> rfl
  | print into hcall => cases hcall <;> rfl
  | read into slot hcall => cases hcall <;> rfl
  | _ => rfl

lemma ArgumentWords.eq {args args' : List Operand} {words : List String}
    (h : ArgumentWords args words) (h' : ArgumentWords args' words)
    (hargs : ∀ name ∈ args.flatMap Operand.mentioned, isIdentifier name = true)
    (hargs' : ∀ name ∈ args'.flatMap Operand.mentioned, isIdentifier name = true) :
    args = args' := by
  generalize hwords : words = words' at h'
  induction h generalizing args' words' with
  | @last arg word h =>
    cases h' with
    | @last arg' word' h' =>
      simp only [List.cons.injEq, String.append_left_inj, and_true] at hwords
      simp only [List.flatMap_singleton] at hargs hargs'
      rw [Operand.text_inj hargs hargs' (by rw [← h.eq_text, ← h'.eq_text, hwords])]
    | cons h' hrest' => simp at hwords
  | @cons arg word args words h hrest ih =>
    cases h' with
    | last h' => simp at hwords
    | @cons arg' word' args' words' h' hrest' =>
      simp only [List.cons.injEq, String.append_left_inj, true_and] at hwords
      obtain ⟨hfirst, hrests⟩ := List.forall_mem_append.1 hargs
      obtain ⟨hfirst', hrests'⟩ := List.forall_mem_append.1 hargs'
      rw [Operand.text_inj hfirst hfirst' (by rw [← h.eq_text, ← h'.eq_text, hwords.1]),
        ih hrests hrests' _ hwords.2 hrest']

lemma CallWords.eq {function function' : String} {args args' : List Operand} {words : List String}
    (h : CallWords function args words) (h' : CallWords function' args' words)
    (hargs : ∀ name ∈ args.flatMap Operand.mentioned, isIdentifier name = true)
    (hargs' : ∀ name ∈ args'.flatMap Operand.mentioned, isIdentifier name = true) :
    function = function' ∧ args = args' := by
  generalize hwords : words = words' at h'
  cases h with
  | empty =>
    cases h' with
    | empty => simpa using hwords
    | args h' => cases h' <;> simp at hwords
  | args h =>
    cases h' with
    | empty => cases h <;> simp at hwords
    | args h' =>
      simp only [List.cons.injEq, String.append_left_inj, String.append_right_inj] at hwords
      obtain ⟨rfl, rfl⟩ := hwords
      exact ⟨rfl, h.eq h' hargs hargs'⟩

/-- The first word of a function and its arguments starts like a global name. -/
lemma CallWords.head_of_mem_head? {function : String} {args : List Operand} {words : List String}
    (h : CallWords function args words) : ∀ word ∈ words.head?, word.toList.head? = some '@' := by
  cases h <;> simp

/-- A call of a function of the module is none of the functions for output and input. -/
lemma CallWords.ne_formatted {function function' : String} {args : List Operand}
    {style : PointerStyle} {words words' : List String} (h : CallWords function args words)
    (h' : FormattedCallWords function' style words') (back : List String) :
    "call" :: "i32" :: words ≠ words' ++ back := by
  have hhead := h.head_of_mem_head?
  intro heq
  cases h' with
  | typed =>
    rw [(List.cons.inj (List.cons.inj heq).2).2] at hhead
    exact absurd (hhead _ rfl) (by decide)
  | untyped =>
    rw [(List.cons.inj (List.cons.inj heq).2).2] at hhead
    exact absurd (hhead _ rfl) (by decide)

/-- The words of an instruction are those of no other. -/
lemma Instr.HasWords.eq {style : PointerStyle} {i i' : Instr} {words : List String}
    (h : i.HasWords style words) (h' : i'.HasWords style words)
    (hi : ∀ name ∈ i.mentioned, isIdentifier name = true)
    (hi' : ∀ name ∈ i'.mentioned, isIdentifier name = true) : i = i' := by
  have hop : i.operation = i'.operation :=
    Option.some.inj (h.operationOf_eq.symm.trans h'.operationOf_eq)
  generalize hwords : words = words' at h'
  cases h with
  | reserve slot =>
    cases h' with
    | reserve slot' =>
      simp only [List.cons.injEq, String.append_right_inj, and_true] at hwords
      rw [hwords]
    | reserveArray slot' size' => simp at hwords
    | _ => simp [Instr.operation] at hop
  | reserveArray slot size =>
    cases h' with
    | reserve slot' => simp at hwords
    | reserveArray slot' size' =>
      simp only [List.cons.injEq, String.append_right_inj, and_true, true_and] at hwords
      rw [hwords.1, Text.eq_of_toString_eq hwords.2]
    | _ => simp [Instr.operation] at hop
  | store hvalue hpointer haddress =>
    cases h' with
    | store hvalue' hpointer' haddress' =>
      simp only [List.cons.injEq, String.append_left_inj, and_true, true_and] at hwords
      obtain ⟨hv, ha⟩ := List.forall_mem_append.1 hi
      obtain ⟨hv', ha'⟩ := List.forall_mem_append.1 hi'
      rw [hvalue.eq_text, hvalue'.eq_text, haddress.eq_text, haddress'.eq_text] at hwords
      rw [Operand.text_inj hv hv' hwords.1, Register.text_inj ha ha' hwords.2.2]
    | _ => simp [Instr.operation] at hop
  | load into hpointer haddress =>
    cases h' with
    | load into' hpointer' haddress' =>
      simp only [List.cons.injEq, String.append_right_inj, and_true, true_and] at hwords
      rw [haddress.eq_text, haddress'.eq_text] at hwords
      rw [Text.eq_of_toString_eq hwords.1, Register.text_inj hi hi' hwords.2.2]
    | _ => simp [Instr.operation] at hop
  | @elementAddress into size array index p iw hpointer hindex =>
    cases h' with
    | elementAddress into' size' array' hpointer' hindex' =>
      obtain ⟨_, hx⟩ := List.forall_mem_cons.1 hi
      obtain ⟨_, hx'⟩ := List.forall_mem_cons.1 hi'
      rw [hindex.eq_text, hindex'.eq_text] at hwords
      cases hpointer <;> cases hpointer' <;>
        simp only [List.cons_append, List.nil_append, List.cons.injEq, String.append_right_inj,
          String.append_left_inj, and_true, true_and] at hwords
      · rw [Text.eq_of_toString_eq hwords.1, Text.eq_of_toString_eq hwords.2.1, hwords.2.2.2.1,
          Operand.text_inj hx hx' hwords.2.2.2.2]
      · rw [Text.eq_of_toString_eq hwords.1, Text.eq_of_toString_eq hwords.2.1, hwords.2.2.1,
          Operand.text_inj hx hx' hwords.2.2.2]
    | _ => simp [Instr.operation] at hop
  | arith into hopcode hleft hright =>
    cases h' with
    | arith into' hopcode' hleft' hright' =>
      simp only [List.cons.injEq, String.append_right_inj, String.append_left_inj, and_true,
        true_and] at hwords
      obtain ⟨hl, hr⟩ := List.forall_mem_append.1 hi
      obtain ⟨hl', hr'⟩ := List.forall_mem_append.1 hi'
      rw [hopcode.eq_text, hopcode'.eq_text, hleft.eq_text, hleft'.eq_text, hright.eq_text,
        hright'.eq_text] at hwords
      rw [Text.eq_of_toString_eq hwords.1, Opcode.text_inj hwords.2.1,
        Operand.text_inj hl hl' hwords.2.2.1, Operand.text_inj hr hr' hwords.2.2.2]
    | _ => simp [Instr.operation] at hop
  | compare into hpredicate hty hleft hright =>
    cases h' with
    | compare into' hpredicate' hty' hleft' hright' =>
      simp only [List.cons.injEq, String.append_right_inj, String.append_left_inj, and_true,
        true_and] at hwords
      obtain ⟨hl, hr⟩ := List.forall_mem_append.1 hi
      obtain ⟨hl', hr'⟩ := List.forall_mem_append.1 hi'
      rw [hpredicate.eq_text, hpredicate'.eq_text, hty.eq_machine, hty'.eq_machine, hleft.eq_text,
        hleft'.eq_text, hright.eq_text, hright'.eq_text] at hwords
      rw [Text.eq_of_toString_eq hwords.1, Predicate.text_inj hwords.2.1,
        machine_inj hwords.2.2.1, Operand.text_inj hl hl' hwords.2.2.2.1,
        Operand.text_inj hr hr' hwords.2.2.2.2]
    | _ => simp [Instr.operation] at hop
  | widen into hvalue =>
    cases h' with
    | widen into' hvalue' =>
      simp only [List.cons.injEq, String.append_right_inj, and_true, true_and] at hwords
      rw [hvalue.eq_text, hvalue'.eq_text] at hwords
      rw [Text.eq_of_toString_eq hwords.1, Operand.text_inj hi hi' hwords.2]
    | _ => simp [Instr.operation] at hop
  | call into hcall =>
    cases h' with
    | call into' hcall' =>
      simp only [List.cons_append, List.nil_append, List.cons.injEq, String.append_right_inj,
        true_and] at hwords
      obtain ⟨hinto, rfl⟩ := hwords
      obtain ⟨rfl, rfl⟩ := hcall.eq hcall' (List.forall_mem_cons.1 hi).2
        (List.forall_mem_cons.1 hi').2
      rw [Text.eq_of_toString_eq hinto]
    | print into' hcall' hvalue' =>
      rw [List.append_assoc] at hwords
      exact absurd (List.cons.inj (List.cons.inj hwords).2).2 (hcall.ne_formatted hcall' _)
    | read into' slot' hcall' hpointer' =>
      rw [List.append_assoc] at hwords
      exact absurd (List.cons.inj (List.cons.inj hwords).2).2 (hcall.ne_formatted hcall' _)
    | _ => simp [Instr.operation] at hop
  | print into hcall hvalue =>
    cases h' with
    | call into' hcall' =>
      rw [List.append_assoc] at hwords
      exact absurd (List.cons.inj (List.cons.inj hwords).2).2.symm (hcall'.ne_formatted hcall _)
    | print into' hcall' hvalue' =>
      rw [hvalue.eq_text, hvalue'.eq_text] at hwords
      cases hcall <;> cases hcall' <;>
        simp only [List.cons_append, List.nil_append, List.cons.injEq, String.append_right_inj,
          String.append_left_inj, and_true, true_and] at hwords <;>
        rw [Text.eq_of_toString_eq hwords.1, Operand.text_inj hi hi' hwords.2]
    | read into' slot' hcall' hpointer' =>
      cases hcall <;> cases hcall' <;> simp at hwords
    | _ => simp [Instr.operation] at hop
  | read into slot hcall hpointer =>
    cases h' with
    | call into' hcall' =>
      rw [List.append_assoc] at hwords
      exact absurd (List.cons.inj (List.cons.inj hwords).2).2.symm (hcall'.ne_formatted hcall _)
    | print into' hcall' hvalue' =>
      cases hcall <;> cases hcall' <;> simp at hwords
    | read into' slot' hcall' hpointer' =>
      cases hcall <;> cases hcall' <;>
        simp only [List.cons_append, List.nil_append, List.cons.injEq, String.append_right_inj,
          String.append_left_inj, and_true, true_and] at hwords <;>
        rw [Text.eq_of_toString_eq hwords.1, hwords.2.2]
    | _ => simp [Instr.operation] at hop
  | jump hlabel =>
    cases h' with
    | jump hlabel' =>
      simp only [List.cons.injEq, String.append_right_inj, and_true, true_and] at hwords
      rw [hlabel.eq_text, hlabel'.eq_text] at hwords
      rw [Label.text_inj hwords]
    | branch hcondition' hyes' hno' => simp at hwords
    | _ => simp [Instr.operation] at hop
  | branch hcondition hyes hno =>
    cases h' with
    | jump hlabel' => simp at hwords
    | branch hcondition' hyes' hno' =>
      simp only [List.cons.injEq, String.append_right_inj, String.append_left_inj, and_true,
        true_and] at hwords
      rw [hcondition.eq_text, hcondition'.eq_text, hyes.eq_text, hyes'.eq_text, hno.eq_text,
        hno'.eq_text] at hwords
      rw [Operand.text_inj hi hi' hwords.1, Label.text_inj hwords.2.1, Label.text_inj hwords.2.2]
    | _ => simp [Instr.operation] at hop
  | ret hvalue =>
    cases h' with
    | ret hvalue' =>
      simp only [List.cons.injEq, and_true, true_and] at hwords
      rw [hvalue.eq_text, hvalue'.eq_text] at hwords
      rw [Operand.text_inj hi hi' hwords]
    | _ => simp [Instr.operation] at hop

/-! ## Blanks -/

@[simp] lemma blank_notMem_toDigits (n : Nat) : ' ' ∉ Nat.toDigits 10 n :=
  fun h => absurd (Nat.isDigit_of_mem_toDigits (by omega) (by omega) h) (by decide)

lemma blank_notMem_of_isIdentifier {name : String} (h : isIdentifier name = true) :
    ' ' ∉ name.toList :=
  fun hmem => absurd (isWordChar_of_isIdentifier h ' ' hmem) (by decide)

lemma Register.HasWord.blank_notMem {r : Register} {word : String} (h : r.HasWord word)
    (hr : ∀ name ∈ r.mentioned, isIdentifier name = true) : ' ' ∉ word.toList := by
  cases h with
  | named name => simp [blank_notMem_of_isIdentifier (hr name List.mem_cons_self)]
  | temporary number => simp

lemma Operand.HasWord.blank_notMem {x : Operand} {word : String} (h : x.HasWord word)
    (hx : ∀ name ∈ x.mentioned, isIdentifier name = true) : ' ' ∉ word.toList := by
  cases h with
  | constant value =>
    intro hmem
    rcases Text.isDigit_or_eq_minus_of_mem_decimal hmem with hdigit | hminus
    · exact absurd hdigit (by decide)
    · exact absurd hminus (by decide)
  | register h => exact h.blank_notMem hx

lemma Label.HasWord.blank_notMem {l : Label} {word : String} (h : l.HasWord word) :
    ' ' ∉ word.toList := by
  cases h with
  | entry => simp
  | numbered h number => cases h <;> simp

lemma ArgumentWords.blank_notMem {args : List Operand} {words : List String}
    (h : ArgumentWords args words)
    (hargs : ∀ name ∈ args.flatMap Operand.mentioned, isIdentifier name = true) :
    ∀ word ∈ words, ' ' ∉ word.toList := by
  induction h with
  | last h =>
    rw [List.flatMap_singleton] at hargs
    simp [h.blank_notMem hargs]
  | cons h hrest ih =>
    obtain ⟨hfirst, hrests⟩ := List.forall_mem_append.1 hargs
    simpa [h.blank_notMem hfirst] using ih hrests

lemma CallWords.blank_notMem {function : String} {args : List Operand} {words : List String}
    (h : CallWords function args words) (hfunction : isIdentifier function = true)
    (hargs : ∀ name ∈ args.flatMap Operand.mentioned, isIdentifier name = true) :
    ∀ word ∈ words, ' ' ∉ word.toList := by
  have hname := blank_notMem_of_isIdentifier hfunction
  cases h with
  | empty => simp [hname]
  | args h => simpa [hname] using h.blank_notMem hargs

/-- The words of an instruction have no blanks in them. -/
lemma Instr.HasWords.blank_notMem {style : PointerStyle} {i : Instr} {words : List String}
    (h : i.HasWords style words) (hi : ∀ name ∈ i.mentioned, isIdentifier name = true) :
    ∀ word ∈ words, ' ' ∉ word.toList := by
  cases h with
  | reserve slot => simp [blank_notMem_of_isIdentifier (hi slot List.mem_cons_self)]
  | reserveArray slot size => simp [blank_notMem_of_isIdentifier (hi slot List.mem_cons_self)]
  | store hvalue hpointer haddress =>
    obtain ⟨hv, ha⟩ := List.forall_mem_append.1 hi
    cases hpointer <;> simp [hvalue.blank_notMem hv, haddress.blank_notMem ha]
  | load into hpointer haddress => cases hpointer <;> simp [haddress.blank_notMem hi]
  | elementAddress into size array hpointer hindex =>
    obtain ⟨harray, hx⟩ := List.forall_mem_cons.1 hi
    cases hpointer <;> simp [blank_notMem_of_isIdentifier harray, hindex.blank_notMem hx]
  | arith into hop hleft hright =>
    obtain ⟨hl, hr⟩ := List.forall_mem_append.1 hi
    cases hop <;> simp [hleft.blank_notMem hl, hright.blank_notMem hr]
  | compare into hpredicate hty hleft hright =>
    obtain ⟨hl, hr⟩ := List.forall_mem_append.1 hi
    cases hpredicate <;> cases hty <;> simp [hleft.blank_notMem hl, hright.blank_notMem hr]
  | widen into hvalue => simp [hvalue.blank_notMem hi]
  | call into hcall =>
    obtain ⟨hfunction, hargs⟩ := List.forall_mem_cons.1 hi
    simpa using hcall.blank_notMem hfunction hargs
  | print into hcall hvalue => cases hcall <;> simp [hvalue.blank_notMem hi]
  | read into slot hcall hpointer =>
    have hslot := blank_notMem_of_isIdentifier (hi slot List.mem_cons_self)
    cases hcall <;> cases hpointer <;> simp [hslot]
  | jump hlabel => simp [hlabel.blank_notMem]
  | branch hcondition hyes hno =>
    simp [hcondition.blank_notMem hi, hyes.blank_notMem, hno.blank_notMem]
  | ret hvalue => simp [hvalue.blank_notMem hi]

/-! ## Lines -/

lemma Instr.HasWords.ne_nil {style : PointerStyle} {i : Instr} {words : List String}
    (h : i.HasWords style words) : words ≠ [] := by
  cases h <;> simp

lemma Instr.text_inj {style : PointerStyle} {i i' : Instr}
    (hi : ∀ name ∈ i.mentioned, isIdentifier name = true)
    (hi' : ∀ name ∈ i'.mentioned, isIdentifier name = true)
    (h : i.text style = i'.text style) : i = i' := by
  obtain ⟨words, hwords⟩ := i.exists_hasWords style
  obtain ⟨words', hwords'⟩ := i'.exists_hasWords style
  have heq : words = words' := by
    rw [← Text.words_intercalate hwords.ne_nil (hwords.blank_notMem hi), hwords.text_eq, h,
      ← hwords'.text_eq, Text.words_intercalate hwords'.ne_nil (hwords'.blank_notMem hi')]
  subst heq
  exact hwords.eq hwords' hi hi'

/-- The line of a label has no blank, and that of an instruction starts with two. -/
lemma Line.text_label_ne_instr (style : PointerStyle) (l : Label) (i : Instr) :
    (label l).text style ≠ (instr i).text style := by
  intro h
  have hlabel : ' ' ∉ ((label l).text style).toList := by
    simp [Line.text, l.hasWord_text.blank_notMem]
  apply hlabel
  rw [h]
  simp [Line.text]

lemma Line.text_inj {style : PointerStyle} {line line' : Line}
    (hline : ∀ name ∈ line.mentioned, isIdentifier name = true)
    (hline' : ∀ name ∈ line'.mentioned, isIdentifier name = true)
    (h : line.text style = line'.text style) : line = line' := by
  cases line with
  | label l =>
    cases line' with
    | label l' => rw [Label.text_inj ((String.append_left_inj _).1 h)]
    | instr i' => exact absurd h (Line.text_label_ne_instr style l i')
  | instr i =>
    cases line' with
    | label l' => exact absurd h.symm (Line.text_label_ne_instr style l' i)
    | instr i' => rw [Instr.text_inj hline hline' ((String.append_right_inj _).1 h)]

lemma Line.map_text_inj {style : PointerStyle} {lines lines' : List Line}
    (hlines : ∀ name ∈ lines.flatMap Line.mentioned, isIdentifier name = true)
    (hlines' : ∀ name ∈ lines'.flatMap Line.mentioned, isIdentifier name = true)
    (h : lines.map (Line.text style) = lines'.map (Line.text style)) : lines = lines' := by
  induction lines generalizing lines' with
  | nil => exact (List.map_eq_nil_iff.1 h.symm).symm
  | cons line rest ih =>
    cases lines' with
    | nil => cases h
    | cons line' rest' =>
      obtain ⟨hfirst, hrest⟩ := List.cons.inj h
      obtain ⟨hline, hmore⟩ := List.forall_mem_append.1 hlines
      obtain ⟨hline', hmore'⟩ := List.forall_mem_append.1 hlines'
      rw [Line.text_inj hline hline' hfirst, ih hmore hmore' hrest]

/-! ## Functions and modules -/

lemma flatMap_mentioned_params (params : List String) :
    (params.map fun param => Operand.register (.named param)).flatMap Operand.mentioned =
      params := by
  rw [List.flatMap_map]
  exact List.flatMap_singleton' params

/-- The words of the head of a function. -/
lemma CallWords.words_head {name : String} {params : List String} {words : List String}
    (h : CallWords name (params.map fun param => .register (.named param)) words)
    (hnames : ∀ n ∈ name :: params, isIdentifier n = true) :
    Text.words ("define i32 @" ++ name ++ "(" ++
        ", ".intercalate (params.map fun param => "i32 " ++ (Register.named param).text) ++
        ") \x7b") = ["define", "i32"] ++ words ++ ["\x7b"] := by
  obtain ⟨hname, hparams⟩ := List.forall_mem_cons.1 hnames
  rw [← flatMap_mentioned_params params] at hparams
  have hblanks : ∀ word ∈ ["define", "i32"] ++ words ++ ["\x7b"], ' ' ∉ word.toList := by
    simpa [or_imp, forall_and] using h.blank_notMem hname hparams
  rw [← h.headText_eq, Text.words_intercalate (by simp) hblanks]

/-- The head of a function tells its name and its parameters. -/
lemma Function.head_inj {name name' : String} {params params' : List String}
    (hnames : ∀ n ∈ name :: params, isIdentifier n = true)
    (hnames' : ∀ n ∈ name' :: params', isIdentifier n = true)
    (h : "define i32 @" ++ name ++ "(" ++
        ", ".intercalate (params.map fun param => "i32 " ++ (Register.named param).text) ++
        ") \x7b" =
      "define i32 @" ++ name' ++ "(" ++
        ", ".intercalate (params'.map fun param => "i32 " ++ (Register.named param).text) ++
        ") \x7b") : name = name' ∧ params = params' := by
  obtain ⟨words, hwords⟩ :=
    exists_callWords name (params.map fun param => .register (.named param))
  obtain ⟨words', hwords'⟩ :=
    exists_callWords name' (params'.map fun param => .register (.named param))
  have heq : ["define", "i32"] ++ words ++ ["\x7b"] = ["define", "i32"] ++ words' ++ ["\x7b"] := by
    rw [← hwords.words_head hnames, h, hwords'.words_head hnames']
  obtain rfl := List.append_cancel_left (List.append_cancel_right heq)
  have hparams := (List.forall_mem_cons.1 hnames).2
  have hparams' := (List.forall_mem_cons.1 hnames').2
  rw [← flatMap_mentioned_params params] at hparams
  rw [← flatMap_mentioned_params params'] at hparams'
  obtain ⟨rfl, hargs⟩ := hwords.eq hwords' hparams hparams'
  refine ⟨rfl, ?_⟩
  rw [← flatMap_mentioned_params params, hargs, flatMap_mentioned_params]

/-- Functions with the same lines are the same. -/
lemma Function.flatMap_textLines_inj {style : PointerStyle} {functions functions' : List Function}
    (hnames : ∀ g ∈ functions, ∀ name ∈ g.mentioned, isIdentifier name = true)
    (hnames' : ∀ g ∈ functions', ∀ name ∈ g.mentioned, isIdentifier name = true)
    (h : functions.flatMap (Function.textLines style) =
      functions'.flatMap (Function.textLines style)) : functions = functions' := by
  induction functions generalizing functions' with
  | nil =>
    cases functions' with
    | nil => rfl
    | cons g' rest' => simp [Function.textLines] at h
  | cons g rest ih =>
    cases functions' with
    | nil => simp [Function.textLines] at h
    | cons g' rest' =>
      obtain ⟨name, params, lines⟩ := g
      obtain ⟨name', params', lines'⟩ := g'
      obtain ⟨hg, hrest⟩ := List.forall_mem_cons.1 hnames
      obtain ⟨hg', hrest'⟩ := List.forall_mem_cons.1 hnames'
      rw [Function.mentioned, ← List.cons_append] at hg hg'
      obtain ⟨hhead, hlines⟩ := List.forall_mem_append.1 hg
      obtain ⟨hhead', hlines'⟩ := List.forall_mem_append.1 hg'
      simp only [List.flatMap_cons, Function.textLines, List.append_assoc, List.cons_append,
        List.nil_append, List.cons.injEq, true_and] at h
      obtain ⟨hheads, hbodies⟩ := h
      -- The first closing brace ends the lines on both sides.
      have hlength := congrArg (List.idxOf "\x7d") hbodies
      rw [List.idxOf_append_of_notMem (brace_notMem_map_text style lines),
        List.idxOf_append_of_notMem (brace_notMem_map_text style lines'),
        List.idxOf_cons_self, List.idxOf_cons_self] at hlength
      obtain ⟨hbody, hmore⟩ := List.append_inj hbodies hlength
      replace hmore := (List.cons.inj hmore).2
      obtain ⟨rfl, rfl⟩ : name = name' ∧ params = params' := Function.head_inj hhead hhead' hheads
      obtain rfl : lines = lines' := Line.map_text_inj hlines hlines' hbody
      rw [ih hrest hrest' hmore]

/-- **A text is the text of one module only**, among those whose names are identifiers. -/
lemma Module.HasText.eq {style : PointerStyle} {m m' : Module} {text : String}
    (h : m.HasText style text) (h' : m'.HasText style text)
    (hm : ∀ g ∈ m.functions, ∀ name ∈ g.mentioned, isIdentifier name = true)
    (hm' : ∀ g ∈ m'.functions, ∀ name ∈ g.mentioned, isIdentifier name = true) : m = m' := by
  have hlines : m.textLines style ++ [""] = m'.textLines style ++ [""] := by
    rw [← Module.lines_text hm, ← Module.lines_text hm', ← h.eq_text, ← h'.eq_text]
  have hfunctions := List.append_cancel_left (List.append_cancel_right hlines)
  exact congrArg Module.mk (Function.flatMap_textLines_inj hm hm' hfunctions)

end IR

end DLang
