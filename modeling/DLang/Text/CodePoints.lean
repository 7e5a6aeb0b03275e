/-!
# Sets of code points

A property of characters is given by a table: closed ranges of code points in increasing order.
-/

namespace DLang.Text

/-- Whether a code point lies in one of some ranges. -/
def inRanges (ranges : List (Nat × Nat)) (codePoint : Nat) : Bool :=
  ranges.any fun range => range.1 ≤ codePoint && codePoint ≤ range.2

end DLang.Text
