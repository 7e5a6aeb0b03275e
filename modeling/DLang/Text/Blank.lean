import DLang.Text.CodePoints

/-!
# White space around a text

The characters with the Unicode property `White_Space`, and the trimming of a text by it.  The
command line drops them from the end of its input, and the prompt from both ends of a line.  This
is a larger set than the four blanks that separate tokens: a vertical tab or a no-break space inside
a program is an illegal character, and only at the rim of the input is it dropped unseen.
-/

namespace DLang.Text

/-- The ranges of the Unicode property `White_Space`. -/
def whiteSpaceRanges : List (Nat × Nat) :=
  [(0x09, 0x0d), (0x20, 0x20), (0x85, 0x85), (0xa0, 0xa0), (0x1680, 0x1680), (0x2000, 0x200a),
   (0x2028, 0x2029), (0x202f, 0x202f), (0x205f, 0x205f), (0x3000, 0x3000)]

/-- A character with the property `White_Space`. -/
def isWhiteSpace (c : Char) : Bool :=
  inRanges whiteSpaceRanges c.toNat

/-- A text without the white space at its end. -/
def trimEnd (text : String) : String :=
  String.ofList (text.toList.reverse.dropWhile isWhiteSpace).reverse

/-- A text without the white space at either end. -/
def trim (text : String) : String :=
  String.ofList ((trimEnd text).toList.dropWhile isWhiteSpace)

end DLang.Text
