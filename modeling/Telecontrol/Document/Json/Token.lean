/-! # Tokens of JSON

The marks and scalars that a JSON text is made of. A text is cut one character at a time.

Main statement: `Json.Scanner.step_quoted` (between quotes every character but the quote and the
backslash stands for itself). -/

namespace Telecontrol.Json

/-- A **token** of JSON. -/
inductive Token where
  | openList
  | closeList
  | openMap
  | closeMap
  | comma
  | colon
  /-- A scalar without quotes. -/
  | bare (text : List Char)
  /-- What stands between quotes, with its escapes as they are. -/
  | quoted (text : List Char)
  deriving DecidableEq, Repr

/-- The token that a character is. -/
def mark? : Char → Option Token
  | '[' => some .openList
  | ']' => some .closeList
  | '\x7b' => some .openMap
  | '\x7d' => some .closeMap
  | ',' => some .comma
  | ':' => some .colon
  | _ => none

/-- Whether a character only separates tokens. -/
def isBlank (c : Char) : Bool := c = ' ' || c = '\n' || c = '\t' || c = '\r'

/-- Where in a token a text has been read to. Characters are collected in reverse. -/
inductive ScanState where
  | between
  | bare (read : List Char)
  | quoted (read : List Char)
  /-- After a backslash between quotes. -/
  | escaped (read : List Char)
  deriving DecidableEq, Repr

/-- A text that is being cut into tokens, the latest first. -/
structure Scanner where
  tokens : List Token
  state : ScanState
  deriving DecidableEq, Repr

namespace Scanner

/-- A scanner at the beginning of a text. -/
def start : Scanner := ⟨[], .between⟩

/-- Take a token. -/
def push (s : Scanner) (t : Token) : Scanner := { s with tokens := t :: s.tokens }

/-- Read a character between two tokens. -/
def begin (s : Scanner) (c : Char) : Scanner :=
  match mark? c with
  | some t => { s.push t with state := .between }
  | none =>
    { s with state := if isBlank c then .between else if c = '"' then .quoted [] else .bare [c] }

/-- Read a character. -/
def step (s : Scanner) (c : Char) : Scanner :=
  match s.state with
  | .between => s.begin c
  | .bare read =>
    -- the character that ends a scalar is itself the beginning of something
    if (mark? c).isSome || isBlank c || c = '"' then (s.push (.bare read.reverse)).begin c
    else { s with state := .bare (c :: read) }
  | .quoted read =>
    if c = '"' then { s.push (.quoted read.reverse) with state := .between }
    else if c = '\\' then { s with state := .escaped (c :: read) }
    else { s with state := .quoted (c :: read) }
  | .escaped read => { s with state := .quoted (c :: read) }

/-- Between quotes a character other than a quote and a backslash stands for itself. -/
theorem step_quoted (tokens : List Token) (read : List Char) (c : Char) (hq : c ≠ '"')
    (hb : c ≠ '\\') : step ⟨tokens, .quoted read⟩ c = ⟨tokens, .quoted (c :: read)⟩ := by
  simp [step, hq, hb]

/-- The tokens at the end of a text, unless a quote is still open. -/
def finish? (s : Scanner) : Option (List Token) :=
  match s.state with
  | .between => some s.tokens.reverse
  | .bare read => some (Token.bare read.reverse :: s.tokens).reverse
  | .quoted _ | .escaped _ => none

end Scanner

/-- The tokens of a text, unless a quote is never closed. -/
def tokens? (text : List Char) : Option (List Token) := (text.foldl Scanner.step .start).finish?

end Telecontrol.Json
