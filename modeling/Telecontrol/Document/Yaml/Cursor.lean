/-! # Places in a YAML text

A **cursor** is a place in a text: what comes next, and the line and the column, on which the
meaning of a YAML text depends. A text of YAML has no control characters but tabs and ends of lines.

Main statements: `Cursor.rest_advance` and `Cursor.rest_skipWhile`, by which a cursor moves over
what was read. -/

namespace Telecontrol.Yaml

/-- Whether a character may stand in a YAML text. -/
def isAllowed (c : Char) : Bool :=
  let n := c.toNat
  n = 0x9 || n = 0xA || n = 0xD || (0x20 ≤ n && n ≤ 0x7E) || n = 0x85 ||
    (0xA0 ≤ n && n ≤ 0xFFFD) || 0x10000 ≤ n

/-- Whether a character is a blank. -/
def isBlank (c : Char) : Bool := c = ' ' || c = '\t'

/-- Whether a character ends a line. -/
def isBreak (c : Char) : Bool :=
  c = '\n' || c = '\r' || c = '\u0085' || c = '\u2028' || c = '\u2029'

/-- Whether a text is at its end, or goes on with a blank or the end of a line. -/
def endsWord : List Char → Bool
  | [] => true
  | c :: _ => isBlank c || isBreak c

/-- Whether the line is at its end. -/
def endsLine : List Char → Bool
  | [] => true
  | c :: _ => isBreak c

/-- How the end of a line is kept in a text: two special marks stay as they are. -/
def breakText (c : Char) : Char := if c = '\u2028' || c = '\u2029' then c else '\n'

/-- A place in a text. -/
structure Cursor where
  /-- What comes next. -/
  rest : List Char
  /-- How many characters come before. -/
  index : Nat
  line : Nat
  column : Nat
  deriving DecidableEq, Repr

namespace Cursor

/-- The beginning of a text. -/
def start (cs : List Char) : Cursor := ⟨cs, 0, 0, 0⟩

/-- Move over some characters of a line. -/
def advance (c : Cursor) (n : Nat) : Cursor :=
  { c with rest := c.rest.drop n, index := c.index + n, column := c.column + n }

/-- A cursor drops what it moves over. -/
@[simp] theorem rest_advance (c : Cursor) (n : Nat) : (c.advance n).rest = c.rest.drop n := rfl

/-- Move over characters of a line up to a given rest. -/
def advanceTo (c : Cursor) (rest : List Char) : Cursor :=
  c.advance (c.rest.length - rest.length)

/-- Move over the characters of a line that are of a kind. -/
def skipWhile (c : Cursor) (p : Char → Bool) : Cursor := c.advance (c.rest.takeWhile p).length

/-- Characters of a kind are dropped up to the first other one. -/
@[simp] theorem rest_skipWhile (c : Cursor) (p : Char → Bool) :
    (c.skipWhile p).rest = c.rest.dropWhile p := by
  simp only [skipWhile, rest_advance]
  induction c.rest with
  | nil => rfl
  | cons d rest ih => cases h : p d <;> simp [h, ih]

/-- Move over the end of a line, which may be two characters. -/
def newLine (c : Cursor) : Cursor :=
  let n := match c.rest with
    | '\r' :: '\n' :: _ => 2
    | _ => 1
  ⟨c.rest.drop n, c.index + n, c.line + 1, 0⟩

/-- Move over blanks. -/
def skipBlanks (c : Cursor) : Cursor := c.skipWhile isBlank

/-- Move to the end of the line. -/
def skipLine (c : Cursor) : Cursor := c.skipWhile fun d => !isBreak d

/-- Move over the blanks and the comment at the end of a line, and over its end. -/
def finishLine? (c : Cursor) : Option Cursor :=
  let c := c.skipBlanks
  let c := if c.rest.head? = some '#' then c.skipLine else c
  match c.rest with
  | [] => some c
  | d :: _ => if isBreak d then some c.newLine else none

/-- Whether a mark of three characters stands alone at the beginning of a line. -/
def isAtMark (c : Cursor) (mark : Char) : Bool :=
  c.column = 0 && c.rest.take 3 = [mark, mark, mark] && endsWord (c.rest.drop 3)

/-- Whether a document begins or ends here. -/
def isAtBoundary (c : Cursor) : Bool := c.isAtMark '-' || c.isAtMark '.'

end Cursor

end Telecontrol.Yaml
