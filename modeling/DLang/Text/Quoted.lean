import DLang.Text.Unprintable

/-!
# Quoted text

Token texts, paths and symbol names are shown between double quotes.  The quote and the backslash
are escaped by a backslash, the four common controls have a letter each, and every other
unprintable character is written as its code point in lower-case hexadecimal between braces, so the
quoted form of any text is one printable line.
-/

namespace DLang.Text

/-- The code point of `c` as an escape: `\u`, then lower-case hexadecimal between braces. -/
def codePointEscape (c : Char) : List Char :=
  ['\\', 'u', '\x7b'] ++ Nat.toDigits 16 c.toNat ++ ['\x7d']

/-- How one character stands inside quotes. -/
def quotedChar (c : Char) : List Char :=
  if c = '"' ∨ c = '\\' then ['\\', c]
  else if c = '\n' then ['\\', 'n']
  else if c = '\r' then ['\\', 'r']
  else if c = '\t' then ['\\', 't']
  else if c = '\x00' then ['\\', '0']
  else if isUnprintable c then codePointEscape c
  else [c]

/-- A text between double quotes. -/
def quoted (text : String) : String :=
  "\"" ++ String.ofList (text.toList.flatMap quotedChar) ++ "\""

end DLang.Text
