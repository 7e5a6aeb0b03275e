import DLang.Text.Quoted

/-!
# Tokens

A token is a kind, the text it was read from, and the line on which that text starts.  Every kind
has two names: `Kind.label`, the word that stands for it in a token listing, and `Kind.describe`,
the phrase by which an error message says that it was expected.
-/

namespace DLang

/-- The kinds of token. -/
inductive Kind where
  | elseWord
  | ifWord
  | intWord
  | printWord
  | readWord
  | returnWord
  | whileWord
  | identifier
  | number
  | semicolon
  | comma
  | plus
  | minus
  | slash
  | star
  | openParen
  | closeParen
  | openBrace
  | closeBrace
  | openBracket
  | closeBracket
  | lessEqual
  | less
  | greaterEqual
  | greater
  | doubleEqual
  | equal
  | notEqual
  deriving DecidableEq, Repr

namespace Kind

/-- All kinds, in the order of their declaration. -/
def all : List Kind :=
  [elseWord, ifWord, intWord, printWord, readWord, returnWord, whileWord, identifier, number,
   semicolon, comma, plus, minus, slash, star, openParen, closeParen, openBrace, closeBrace,
   openBracket, closeBracket, lessEqual, less, greaterEqual, greater, doubleEqual, equal, notEqual]

/-- The word that stands for a kind in a token listing. -/
def label : Kind → String
  | elseWord => "Else"
  | ifWord => "If"
  | intWord => "Int"
  | printWord => "Print"
  | readWord => "Read"
  | returnWord => "Return"
  | whileWord => "While"
  | identifier => "Ident"
  | number => "Num"
  | semicolon => "SemiColon"
  | comma => "Comma"
  | plus => "Plus"
  | minus => "Minus"
  | slash => "Slash"
  | star => "Star"
  | openParen => "OpenParen"
  | closeParen => "CloseParen"
  | openBrace => "OpenCurlyBrace"
  | closeBrace => "CloseCurlyBrace"
  | openBracket => "OpenSquareBrace"
  | closeBracket => "CloseSquareBrace"
  | lessEqual => "LessEqual"
  | less => "LessThan"
  | greaterEqual => "GreaterEqual"
  | greater => "GreaterThan"
  | doubleEqual => "DoubleEqual"
  | equal => "Equal"
  | notEqual => "NotEqual"

/-- The kind with a given label. -/
def ofLabel? (word : String) : Option Kind :=
  all.find? fun kind => kind.label == word

/-- The one spelling of a kind that has only one: every kind but identifiers and numbers. -/
def spelling? : Kind → Option String
  | elseWord => some "else"
  | ifWord => some "if"
  | intWord => some "int"
  | printWord => some "print"
  | readWord => some "read"
  | returnWord => some "return"
  | whileWord => some "while"
  | identifier => none
  | number => none
  | semicolon => some ";"
  | comma => some ","
  | plus => some "+"
  | minus => some "-"
  | slash => some "/"
  | star => some "*"
  | openParen => some "("
  | closeParen => some ")"
  | openBrace => some "\x7b"
  | closeBrace => some "\x7d"
  | openBracket => some "["
  | closeBracket => some "]"
  | lessEqual => some "<="
  | less => some "<"
  | greaterEqual => some ">="
  | greater => some ">"
  | doubleEqual => some "=="
  | equal => some "="
  | notEqual => some "!="

/-- The phrase by which a message names a kind: its spelling between apostrophes, or what an
identifier or a number is called. -/
def describe (kind : Kind) : String :=
  match kind.spelling? with
  | some text => "'" ++ text ++ "'"
  | none => if kind = identifier then "identifier" else "integer literal"

end Kind

/-- A token: its kind, the text it was read from, and the line on which it starts, counted from
one. -/
structure Token where
  kind : Kind
  text : String
  line : Nat
  deriving DecidableEq, Repr

namespace Token

/-- The form of a token in a listing: line, kind and quoted text. -/
def listing (token : Token) : String :=
  toString token.line ++ ":" ++ token.kind.label ++ " " ++ Text.quoted token.text

end Token

/-- A character that starts no token, and the line it stands on. -/
structure IllegalCharacter where
  character : Char
  line : Nat
  deriving DecidableEq, Repr

/-- The message for an illegal character. -/
def IllegalCharacter.message (illegal : IllegalCharacter) : String :=
  "line " ++ toString illegal.line ++ ": illegal character '" ++
    String.singleton illegal.character ++ "'"

end DLang
