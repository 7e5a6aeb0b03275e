/-!
# Signed numerals of 32 bits

An integer literal is a 32-bit two's complement number.  `readInt32` reads its text: at most one
sign, then at least one decimal digit and nothing else, with a value in range.  Literals in source
text carry no sign; tokens that were built by hand may.

An array length is written as such a literal and held as a 64-bit pattern without sign, so that a
negative literal stands for a very large length (`lengthOf`).  No literal of a source text is
negative, hence no length of a source text is affected.
-/

namespace DLang.Text

/-- The number that a list of decimal digits denotes. -/
def decimalValue (digits : List Char) : Nat :=
  digits.foldl (fun value digit => 10 * value + (digit.toNat - '0'.toNat)) 0

/-- The value of a nonempty list of decimal digits. -/
def readDigits (digits : List Char) : Option Nat :=
  if digits ≠ [] ∧ digits.all Char.isDigit then some (decimalValue digits) else none

/-- The value of a decimal numeral with at most one sign. -/
def readSigned : List Char → Option Int
  | '+' :: digits => (readDigits digits).map fun n => (n : Int)
  | '-' :: digits => (readDigits digits).map fun n => -(n : Int)
  | digits => (readDigits digits).map fun n => (n : Int)

/-- The 32-bit number that a text denotes, if it is a numeral in range. -/
def readInt32 (text : String) : Option Int32 :=
  match readSigned text.toList with
  | some value =>
    if Int32.minValue.toInt ≤ value ∧ value ≤ Int32.maxValue.toInt then some (Int32.ofInt value)
    else none
  | none => none

/-- The array length that a literal denotes: its value, a negative one modulo `2 ^ 64`. -/
def lengthOf (literal : Int32) : Nat :=
  (literal.toInt % UInt64.size).toNat

/-- The decimal numeral of a 32-bit number. -/
def decimal (value : Int32) : String :=
  toString value.toInt

end DLang.Text
