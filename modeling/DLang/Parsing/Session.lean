import DLang.Parsing.Program

/-!
# Parsing sessions

Several readings can be made one after the other from one list of tokens.  Each starts where the one
before it stopped, also when that one failed: tokens that were read before an error stay read.
-/

namespace DLang

/-- What to read next in a session. -/
inductive Request where
  | expression
  | program
  deriving DecidableEq, Repr

/-- What was read. -/
inductive Answer where
  | expression (e : Expr)
  | program (p : Program)
  deriving Repr

/-- The reading that a request asks for. -/
def Request.read (request : Request) (tokens : List Token) : Reading Answer tokens :=
  match request with
  | expression => (readExpr tokens).map .expression
  | program => (parse tokens).map .program

/-- Makes the requested readings one after the other. -/
def session (tokens : List Token) : List Request → List (Except ParseError Answer)
  | [] => []
  | request :: more =>
    let reading := request.read tokens
    reading.result :: session reading.rest more

end DLang
