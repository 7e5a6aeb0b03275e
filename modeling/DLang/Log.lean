import DLang.Symbol.Basic
import DLang.Token.Basic

/-!
# The log

Every stage reports what it did as a list of events, in order.  Which of them are shown, and how, is
decided at the end: an event has a level, and `renderLog` writes those at or above the wanted one.

`Logged` is a result together with the events that led to it.  A failure keeps the events before it.
-/

namespace DLang

/-- The levels of the log, the most detailed first. -/
inductive Level where
  | trace
  | debug
  | info
  | warn
  deriving DecidableEq, Repr

namespace Level

/-- The weight of a level. -/
def rank : Level → Nat
  | trace => 0
  | debug => 1
  | info => 2
  | warn => 3

/-- The name of a level, filled up to five columns. -/
def label : Level → String
  | trace => "TRACE"
  | debug => "DEBUG"
  | info => " INFO"
  | warn => " WARN"

/-- The lowest level that is shown when detail is asked for `verbosity` times. -/
def ofVerbosity : Nat → Level
  | 0 => warn
  | 1 => debug
  | _ => trace

end Level

/-- What a stage reports. -/
inductive Event where
  | illegalCharacter (illegal : IllegalCharacter)
  | lexed (tokens illegals lines : Nat)
  | parsed (tokens : Nat)
  /-- A scope was opened; `depth` counts it. -/
  | enteredScope (depth : Nat)
  /-- A scope was left; `depth` does not count it. -/
  | leftScope (depth : Nat)
  | addedSymbol (symbol : Symbol) (depth : Nat)
  | analyzedFunction (name : String) (params : Nat)
  | analyzed
  | loweredFunction (name : String) (locals : Nat)
  | lowered (temporaries labels bytes : Nat)
  | wroteOutput (path : String)
  deriving DecidableEq, Repr

namespace Event

/-- The level of an event. -/
def level : Event → Level
  | illegalCharacter _ => .warn
  | wroteOutput _ => .info
  | enteredScope _ | leftScope _ | addedSymbol .. => .trace
  | lexed .. | parsed _ | analyzedFunction .. | analyzed | loweredFunction .. | lowered .. => .debug

/-- The message of an event. -/
def message : Event → String
  | illegalCharacter illegal => illegal.message
  | lexed .. => "lexing finished"
  | parsed _ => "parsing finished"
  | enteredScope _ => "enter scope"
  | leftScope _ => "exit scope"
  | addedSymbol .. => "add symbol"
  | analyzedFunction .. => "analyzed function"
  | analyzed => "semantic analysis finished"
  | loweredFunction .. => "generated function"
  | lowered .. => "code generation finished"
  | wroteOutput _ => "wrote output"

/-- The details of an event, each with its key. -/
def details : Event → List (String × String)
  | illegalCharacter _ => []
  | lexed tokens illegals lines =>
    [("tokens", toString tokens), ("errors", toString illegals), ("lines", toString lines)]
  | parsed tokens => [("tokens", toString tokens)]
  | enteredScope depth => [("depth", toString depth)]
  | leftScope depth => [("depth", toString depth)]
  | addedSymbol symbol depth => [("symbol", symbol.describe), ("depth", toString depth)]
  | analyzedFunction name params => [("name", name), ("params", toString params)]
  | analyzed => []
  | loweredFunction name locals => [("name", name), ("locals", toString locals)]
  | lowered temporaries labels bytes =>
    [("temporaries", toString temporaries), ("labels", toString labels),
     ("bytes", toString bytes)]
  | wroteOutput path => [("output", Text.quoted path)]

/-- How a character of a message is shown: the controls that a terminal obeys are spelled out. -/
def shownChar (c : Char) : List Char :=
  if c = '\x07' ∨ c = '\x08' ∨ c = '\x0c' ∨ c = '\x1b' ∨ c = '\x7f' then
    ['\\', 'x'] ++ (if c.toNat < 16 then ['0'] else []) ++ Nat.toDigits 16 c.toNat
  else if 0x80 ≤ c.toNat ∧ c.toNat ≤ 0x9f then Text.codePointEscape c
  else [c]

/-- The line of an event: level, message and details. -/
def line (event : Event) : String :=
  event.level.label ++ " " ++ String.ofList (event.message.toList.flatMap shownChar) ++
    String.join (event.details.map fun detail => " " ++ detail.1 ++ "=" ++ detail.2)

end Event

/-! ## Results with the events that led to them -/

/-- A result or an error, after some events. -/
structure Logged (ε α : Type) where
  events : List Event
  result : Except ε α

namespace Logged

variable {ε α β : Type}

/-- A result or an error without events. -/
def ofExcept (result : Except ε α) : Logged ε α :=
  ⟨[], result⟩

/-- An event by itself. -/
def report (event : Event) : Logged ε Unit :=
  ⟨[event], .ok ()⟩

/-- Goes on after a result; an error ends it. -/
def bind (first : Logged ε α) (next : α → Logged ε β) : Logged ε β :=
  match first.result with
  | .ok a => ⟨first.events ++ (next a).events, (next a).result⟩
  | .error error => ⟨first.events, .error error⟩

instance : Monad (Logged ε) where
  pure a := ofExcept (.ok a)
  bind := bind

/-- After a result the next step decides, and the events are joined in order. -/
theorem bind_of_ok {first : Logged ε α} {next : α → Logged ε β} {a : α}
    (h : first.result = .ok a) :
    first >>= next = ⟨first.events ++ (next a).events, (next a).result⟩ := by
  show first.bind next = _
  rw [bind, h]

/-- After an error nothing more happens. -/
theorem bind_of_error {first : Logged ε α} {next : α → Logged ε β} {error : ε}
    (h : first.result = .error error) : first >>= next = ⟨first.events, .error error⟩ := by
  show first.bind next = _
  rw [bind, h]

/-- The result of two steps is that of the steps without their events. -/
theorem result_bind (first : Logged ε α) (next : α → Logged ε β) :
    (first >>= next).result = first.result >>= fun a => (next a).result := by
  cases h : first.result with
  | ok a => rw [bind_of_ok h]; rfl
  | error error => rw [bind_of_error h]; rfl

/-- Changes the error. -/
def mapError {ε' : Type} (f : ε → ε') (logged : Logged ε α) : Logged ε' α :=
  ⟨logged.events, logged.result.mapError f⟩

end Logged

/-! ## The text of the log -/

/-- The log of some events at a level: a line for each event at or above it. -/
def renderLog (lowest : Level) (events : List Event) : String :=
  String.join <|
    (events.filter fun event => lowest.rank ≤ event.level.rank).map fun event =>
      event.line ++ "\n"

end DLang
