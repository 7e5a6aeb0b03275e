import DLang.Text.Numeral
import Mathlib.Data.List.Induction
import Mathlib.Tactic.Common
import Mathlib.Tactic.IntervalCases

/-!
# Numerals without a sign

A number token holds digits only, so reading it never meets a sign.  Its text is read as a 32-bit
number exactly if the number that the digits denote is one (`readInt32_eq_some_iff`), and the
numeral of a number is read as that number (`readInt32_toString`).  The numeral of the number that
digits denote is these digits, without the zeros in front of them (`toString_decimalValue`).
-/

namespace DLang.Text

lemma minValue_toInt : Int32.minValue.toInt = -2147483648 := rfl

lemma maxValue_toInt : Int32.maxValue.toInt = 2147483647 := rfl

lemma toInt_bounds (value : Int32) : -2147483648 ≤ value.toInt ∧ value.toInt ≤ 2147483647 := by
  have hlower := value.le_toInt
  have hupper := value.toInt_lt
  omega

variable {text : String} {value : Int32}

/-- Digits denote the number that they are read as. -/
lemma readSigned_of_isDigit (hne : text.toList ≠ [])
    (hdigits : ∀ d ∈ text.toList, d.isDigit = true) :
    readSigned text.toList = some (decimalValue text.toList : Int) := by
  have hread : readDigits text.toList = some (decimalValue text.toList) := by
    rw [readDigits, if_pos ⟨hne, List.all_eq_true.2 hdigits⟩]
  unfold readSigned
  split
  · rename_i hsign
    have hdigit := hdigits '+' (by simp [hsign])
    simp at hdigit
  · rename_i hsign
    have hdigit := hdigits '-' (by simp [hsign])
    simp at hdigit
  · simp [hread]

lemma readInt32_eq_some_iff (hne : text.toList ≠ [])
    (hdigits : ∀ d ∈ text.toList, d.isDigit = true) :
    readInt32 text = some value ↔ (decimalValue text.toList : Int) = value.toInt := by
  rw [readInt32, readSigned_of_isDigit hne hdigits]
  simp only [minValue_toInt, maxValue_toInt]
  constructor
  · intro h
    split at h
    · rename_i hrange
      obtain rfl := Option.some.inj h
      rw [Int32.toInt_ofInt_of_le (by omega) (by omega)]
    · simp at h
  · intro h
    have hbounds := toInt_bounds value
    rw [if_pos (by omega), h, Int32.ofInt_toInt]

lemma isSome_readInt32_iff (hne : text.toList ≠ [])
    (hdigits : ∀ d ∈ text.toList, d.isDigit = true) :
    (readInt32 text).isSome = true ↔ decimalValue text.toList ≤ 2147483647 := by
  rw [Option.isSome_iff_exists]
  constructor
  · rintro ⟨value, hvalue⟩
    have hequal := (readInt32_eq_some_iff hne hdigits).1 hvalue
    have hbounds := toInt_bounds value
    omega
  · intro hrange
    refine ⟨Int32.ofInt (decimalValue text.toList), (readInt32_eq_some_iff hne hdigits).2 ?_⟩
    rw [Int32.toInt_ofInt_of_le (by omega) (by omega)]

/-! ## Numerals of numbers -/

lemma isDigit_of_mem_toString {n : Nat} {d : Char} (h : d ∈ (toString n).toList) :
    d.isDigit = true := by
  rw [Nat.toString_eq_repr, Nat.toList_repr] at h
  exact Nat.isDigit_of_mem_toDigits (by omega) (by omega) h

lemma toList_toString_ne_nil (n : Nat) : (toString n).toList ≠ [] := by
  rw [Nat.toString_eq_repr, Nat.toList_repr]
  exact Nat.toDigits_ne_nil

lemma decimalValue_toString (n : Nat) : decimalValue (toString n).toList = n := by
  rw [Nat.toString_eq_repr, Nat.toList_repr]
  exact Nat.ofDigitChars_toDigits (by omega) (by omega)

lemma readInt32_toString {n : Nat} (h : (n : Int) = value.toInt) :
    readInt32 (toString n) = some value := by
  rw [readInt32_eq_some_iff (toList_toString_ne_nil n) fun d hd => isDigit_of_mem_toString hd,
    decimalValue_toString]
  exact h

lemma eq_of_toString_eq {m n : Nat} (h : toString m = toString n) : m = n := by
  rw [← decimalValue_toString m, h, decimalValue_toString]

/-- No numeral with a sign is one without. -/
lemma toString_ne_minus (m n : Nat) : toString m ≠ "-" ++ toString n := by
  intro h
  have hmem : '-' ∈ (toString m).toList := by simp [h]
  exact absurd (isDigit_of_mem_toString hmem) (by decide)

lemma decimal_inj {value value' : Int32} (h : decimal value = decimal value') :
    value = value' := by
  refine Int32.toInt.inj ?_
  unfold decimal at h
  cases hm : value.toInt with
  | ofNat m =>
    cases hn : value'.toInt with
    | ofNat n =>
      rw [hm, hn] at h
      rw [eq_of_toString_eq h]
    | negSucc n =>
      rw [hm, hn] at h
      exact absurd h (toString_ne_minus m (n + 1))
  | negSucc m =>
    cases hn : value'.toInt with
    | ofNat n =>
      rw [hm, hn] at h
      exact absurd h.symm (toString_ne_minus n (m + 1))
    | negSucc n =>
      rw [hm, hn] at h
      have hnumeral : toString (m + 1) = toString (n + 1) := (String.append_right_inj "-").1 h
      rw [Nat.succ.inj (eq_of_toString_eq hnumeral)]

/-- A decimal numeral is made of digits, and a sign. -/
lemma isDigit_or_eq_minus_of_mem_decimal {d : Char} (h : d ∈ (decimal value).toList) :
    d.isDigit = true ∨ d = '-' := by
  unfold decimal at h
  cases hvalue : value.toInt with
  | ofNat n =>
    rw [hvalue] at h
    exact .inl (isDigit_of_mem_toString h)
  | negSucc n =>
    rw [hvalue] at h
    have hmem : d ∈ ("-" ++ toString (n + 1)).toList := h
    rw [String.toList_append] at hmem
    rcases List.mem_append.1 hmem with hsign | hdigit
    · exact .inr (List.mem_singleton.1 hsign)
    · exact .inl (isDigit_of_mem_toString hdigit)

lemma toList_decimal_ne_nil (value : Int32) : (decimal value).toList ≠ [] := by
  unfold decimal
  cases value.toInt with
  | ofNat n => exact toList_toString_ne_nil n
  | negSucc n =>
    intro h
    have hsign : ("-" ++ toString (n + 1)).toList = [] := h
    simp at hsign

/-- An array length in range is held as it is written. -/
lemma lengthOf_of_nonneg (h : 0 ≤ value.toInt) : lengthOf value = value.toInt.toNat := by
  have hbounds := toInt_bounds value
  have hsize : (UInt64.size : Int) = 18446744073709551616 := rfl
  rw [lengthOf, hsize]
  omega

/-! ## Zeros in front -/

variable {digits : List Char} {d : Char}

/-- The numeral without the zeros in front of it. -/
def canonical (digits : List Char) : String :=
  match digits.dropWhile (· == '0') with
  | [] => "0"
  | digit :: rest => String.ofList (digit :: rest)

lemma toNat_bounds_of_isDigit (h : d.isDigit = true) : 48 ≤ d.toNat ∧ d.toNat ≤ 57 := by
  have hrange : (decide (48 ≤ d.val) && decide (d.val ≤ 57)) = true := h
  rw [Bool.and_eq_true, decide_eq_true_iff, decide_eq_true_iff, UInt32.le_iff_toNat_le,
    UInt32.le_iff_toNat_le] at hrange
  exact hrange

/-- A digit is that of its value. -/
lemma digitChar_of_isDigit (h : d.isDigit = true) : Nat.digitChar (d.toNat - '0'.toNat) = d := by
  obtain ⟨hlower, hupper⟩ := toNat_bounds_of_isDigit h
  rw [← Char.ofNat_toNat d]
  generalize d.toNat = n at hlower hupper ⊢
  interval_cases n <;> rfl

lemma decimalValue_concat (digits : List Char) (d : Char) :
    decimalValue (digits ++ [d]) = 10 * decimalValue digits + (d.toNat - '0'.toNat) := by
  rw [decimalValue, List.foldl_append]
  rfl

/-- Zeros in front do not count. -/
lemma decimalValue_dropWhile (digits : List Char) :
    decimalValue (digits.dropWhile (· == '0')) = decimalValue digits := by
  induction digits with
  | nil => rfl
  | cons d rest ih =>
    by_cases hzero : d = '0'
    · subst hzero
      exact ih
    · rw [List.dropWhile_cons_of_neg (by simpa using hzero)]

/-- Digits with no zero in front of them are those of the number. -/
lemma toDigits_decimalValue (hdigits : ∀ c ∈ digits, c.isDigit = true)
    (hhead : ∀ c ∈ digits.head?, c ≠ '0') (hne : digits ≠ []) :
    0 < decimalValue digits ∧ Nat.toDigits 10 (decimalValue digits) = digits := by
  induction digits using List.reverseRecOn with
  | nil => exact absurd rfl hne
  | append_singleton front d ih =>
    obtain ⟨hfront, hd⟩ := List.forall_mem_append.1 hdigits
    have hd := List.forall_mem_singleton.1 hd
    have hbounds := toNat_bounds_of_isDigit hd
    have hzero : '0'.toNat = 48 := rfl
    have hlast : Nat.toDigits 10 (d.toNat - '0'.toNat) = [d] := by
      rw [Nat.toDigits_of_lt_base (by omega), digitChar_of_isDigit hd]
    rw [decimalValue_concat]
    cases front with
    | nil =>
      have hne : d ≠ '0' := hhead d rfl
      have hpos : d.toNat ≠ '0'.toNat := fun heq => hne (Char.toNat_inj.1 heq)
      have hvalue : 10 * decimalValue [] + (d.toNat - '0'.toNat) = d.toNat - '0'.toNat :=
        Nat.zero_add _
      rw [hvalue]
      exact ⟨by omega, hlast⟩
    | cons first front =>
      obtain ⟨hpos, hmore⟩ := ih hfront hhead (List.cons_ne_nil first front)
      refine ⟨by omega, ?_⟩
      rw [← Nat.toDigits_append_toDigits (by omega) hpos (by omega), hmore, hlast]

/-- The numeral of a number is the one it was read from, without zeros in front. -/
lemma toString_decimalValue (hdigits : ∀ d ∈ digits, d.isDigit = true) :
    toString (decimalValue digits) = canonical digits := by
  have hvalue := decimalValue_dropWhile digits
  have hhead : ∀ d ∈ (digits.dropWhile (· == '0')).head?, d ≠ '0' := by
    intro d hd
    have := List.head?_dropWhile_not (· == '0') digits
    rw [hd] at this
    simpa using this
  have hsub : ∀ d ∈ digits.dropWhile (· == '0'), d.isDigit = true :=
    fun d hd => hdigits d ((List.dropWhile_suffix _).subset hd)
  unfold canonical
  rw [← hvalue]
  cases hdrop : digits.dropWhile (· == '0') with
  | nil => rfl
  | cons d rest =>
    rw [hdrop] at hhead hsub
    rw [Nat.toString_eq_repr]
    apply String.ext
    rw [Nat.toList_repr, (toDigits_decimalValue hsub hhead (List.cons_ne_nil d rest)).2,
      String.toList_ofList]

end DLang.Text
