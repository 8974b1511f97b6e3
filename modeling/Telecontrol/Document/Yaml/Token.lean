import Telecontrol.Document.Yaml.Tag
import Telecontrol.Document.Yaml.Text

/-! # Tokens of YAML

The blocks of YAML are written by indentation. As **tokens** they have a beginning and an end like
containers in brackets. Whether a text begins a map is seen only at the colon after its first key,
so the lexer remembers where a key may have begun and puts the beginning of the map there.

Main statements: `Lexer.length_insert` (a token put in between loses none of the others) and
`Lexer.le_of_mem_closeBlocks` (the blocks that stay open are not further to the right than the
text). -/

namespace Telecontrol.Yaml

/-- A **token** of YAML. -/
inductive Token where
  | directive (directive : Directive)
  | documentStart
  | documentEnd
  /-- The beginning of a list in lines. -/
  | listStart
  /-- The beginning of a map in lines. -/
  | mapStart
  /-- The end of a list or a map in lines. -/
  | blockEnd
  | openList
  | closeList
  | openMap
  | closeMap
  | comma
  /-- The dash of an item. -/
  | item
  /-- What comes before a key. -/
  | key
  /-- What comes before the value of a key. -/
  | value
  /-- The node of a name. -/
  | reference (name : String)
  /-- The name of the node that follows. -/
  | anchor (name : String)
  | tag (tag : Tag)
  | scalar (plain : Bool) (text : String)
  deriving DecidableEq, Repr

/-- A place where a key may have begun. -/
structure KeyPlace where
  /-- Whether only a key may stand here. -/
  required : Bool
  /-- How many tokens come before. -/
  count : Nat
  /-- The place in the text. -/
  cursor : Cursor

/-- How far a colon may be from the beginning of its key. -/
def maxKeyLength : Nat := 1024

/-- A text that is being cut into tokens. -/
structure Lexer where
  cursor : Cursor
  /-- The tokens, the latest first. -/
  tokens : List Token
  /-- How many they are. -/
  count : Nat
  /-- The columns of the open blocks, the innermost first. -/
  blocks : List Nat
  /-- Where a key may have begun within the innermost brackets. -/
  place : Option KeyPlace
  /-- Where a key may have begun around each of the open brackets. -/
  outer : List (Option KeyPlace)
  /-- Whether a key may begin here. -/
  admitsKey : Bool

namespace Lexer

/-- A lexer at the beginning of a text, after the mark of the order of octets. -/
def start (cs : List Char) : Lexer where
  cursor := if cs.head? = some '\ufeff' then (Cursor.start cs).advance 1 else Cursor.start cs
  tokens := []
  count := 0
  blocks := []
  place := none
  outer := []
  admitsKey := true

/-- Whether the text stands in brackets. -/
def inFlow (x : Lexer) : Bool := !x.outer.isEmpty

/-- Take a token and go on at another place. -/
def take (x : Lexer) (t : Token) (c : Cursor) : Lexer :=
  { x with tokens := t :: x.tokens, count := x.count + 1, cursor := c }

/-- Take a token of some characters. -/
def push (x : Lexer) (t : Token) (n : Nat) : Lexer := x.take t (x.cursor.advance n)

/-- Put a token behind the first `count` ones. -/
def insert (x : Lexer) (count : Nat) (t : Token) : Lexer :=
  let later := x.count - count
  { x with tokens := x.tokens.take later ++ t :: x.tokens.drop later, count := x.count + 1 }

/-- A token that is put in between is one more. -/
@[simp] theorem length_insert (x : Lexer) (count : Nat) (t : Token) :
    (x.insert count t).tokens.length = x.tokens.length + 1 := by
  simp only [insert, List.length_append, List.length_take, List.length_cons, List.length_drop]
  omega

/-- Open a block at a column, behind the first `count` tokens, unless one is open there. -/
def openBlock (x : Lexer) (column count : Nat) (t : Token) : Lexer :=
  if !x.inFlow && x.blocks.head?.all (· < column) then
    { x.insert count t with blocks := column :: x.blocks }
  else x

/-- Close the blocks that are further to the right than a column, or all of them. -/
def closeBlocks (x : Lexer) (column : Option Nat) : Lexer :=
  if x.inFlow then x
  else
    let isClosed := fun block => column.all (· < block)
    let closed := x.blocks.takeWhile isClosed
    { x with
      tokens := closed.map (fun _ => .blockEnd) ++ x.tokens
      count := x.count + closed.length
      blocks := x.blocks.dropWhile isClosed }

/-- Outside of brackets the innermost block that stays open is not further to the right. -/
theorem le_of_mem_closeBlocks {x : Lexer} {column block : Nat} (h : x.inFlow = false)
    (hb : (x.closeBlocks (some column)).blocks.head? = some block) : block ≤ column := by
  simp only [closeBlocks, h] at hb
  have := List.head?_dropWhile_not (fun block => Option.all (· < block) (some column)) x.blocks
  simp_all

/-! ## Keys -/

/-- Forget where a key may have begun; where only a key may stand it is missed. -/
def forget? (x : Lexer) : Option Lexer :=
  if x.place.any (·.required) then none else some { x with place := none }

/-- Remember that a key may begin here. -/
def remember? (x : Lexer) : Option Lexer :=
  if x.admitsKey then
    let required := !x.inFlow && x.blocks.head? = some x.cursor.column
    x.forget?.map ({ · with place := some ⟨required, x.count, x.cursor⟩ })
  else some x

/-- Forget a place that is too far away for a key: it must be near and on the same line. -/
def expirePlace? (c : Cursor) (place : Option KeyPlace) : Option (Option KeyPlace) :=
  if place.any fun p => p.cursor.line < c.line || p.cursor.index + maxKeyLength < c.index then
    if place.any (·.required) then none else some none
  else some place

/-- Forget all places that are too far away. -/
def expire? (x : Lexer) : Option Lexer := do
  let place ← expirePlace? x.cursor x.place
  return { x with place, outer := ← x.outer.mapM (expirePlace? x.cursor) }

/-! ## Tokens one by one -/

/-- Read the line of a directive, whose text begins after the percent sign. -/
def directive? (x : Lexer) (cs : List Char) : Option Lexer := do
  let x ← (x.closeBlocks none).forget?
  let (directive, rest) ← Directive.read? cs
  let c ← (x.cursor.advanceTo rest).finishLine?
  return { x.take (.directive directive) c with admitsKey := false }

/-- Read the mark of the beginning or the end of a document. -/
def boundary? (x : Lexer) (t : Token) : Option Lexer := do
  let x ← (x.closeBlocks none).forget?
  return { x.push t 3 with admitsKey := false }

/-- Read an opening bracket. The container may be a key. -/
def openBracket? (x : Lexer) (t : Token) : Option Lexer := do
  let x ← x.remember?
  return { x.push t 1 with place := none, outer := x.place :: x.outer, admitsKey := true }

/-- Read a closing bracket. -/
def closeBracket? (x : Lexer) (t : Token) : Option Lexer := do
  let x ← x.forget?
  return { x.push t 1 with
    place := x.outer.head?.getD x.place, outer := x.outer.drop 1, admitsKey := false }

/-- Read a comma. -/
def comma? (x : Lexer) : Option Lexer :=
  x.forget?.map fun x => { x.push .comma 1 with admitsKey := true }

/-- Open a block for a dash, or for a question mark or a colon without a key before it. -/
def blockHere? (x : Lexer) (t : Token) : Option Lexer :=
  if x.inFlow then some x
  else if x.admitsKey then some (x.openBlock x.cursor.column x.count t)
  else none

/-- Read the dash of an item. -/
def item? (x : Lexer) : Option Lexer := do
  let x ← (← x.blockHere? .listStart).forget?
  return { x.push .item 1 with admitsKey := true }

/-- Read the question mark before a key. -/
def key? (x : Lexer) : Option Lexer := do
  let x ← (← x.blockHere? .mapStart).forget?
  return { x.push .key 1 with admitsKey := !x.inFlow }

/-- Read the colon before a value. -/
def value? (x : Lexer) : Option Lexer :=
  match x.place with
  | some p =>
    let x := (x.insert p.count .key).openBlock p.cursor.column p.count .mapStart
    some { x.push .value 1 with place := none, admitsKey := false }
  | none =>
    (x.blockHere? .mapStart).map fun x => { x.push .value 1 with admitsKey := !x.inFlow }

/-- Read a name after its sign. -/
def name? (x : Lexer) (t : String → Token) (cs : List Char) : Option Lexer := do
  let x ← x.remember?
  let name := cs.takeWhile isNameChar
  if !name.isEmpty && endsName (cs.drop name.length) then
    some { x.push (t (String.ofList name)) (name.length + 1) with admitsKey := false }
  else none

/-- Read a tag. -/
def tag? (x : Lexer) : Option Lexer := do
  let x ← x.remember?
  let (tag, rest) ← Tag.read? x.cursor.rest
  if endsWord rest || (x.inFlow && rest.head? = some ',') then
    some { x.take (.tag tag) (x.cursor.advanceTo rest) with admitsKey := false }
  else none

/-- Take a scalar. -/
def scalar (x : Lexer) (plain : Bool) (c : Cursor) (text : List Char) (admitsKey : Bool) : Lexer :=
  { x.take (.scalar plain (String.ofList text)) c with admitsKey }

/-- The column from which on a text belongs to the innermost block. -/
def indent (x : Lexer) : Nat := x.blocks.head?.elim 0 (· + 1)

/-- Read a block of lines. -/
def block? (fuel : Nat) (x : Lexer) (folded : Bool) : Option Lexer := do
  let x ← x.forget?
  let (c, text) ← Yaml.block? fuel folded x.indent x.cursor
  return x.scalar false c text true

/-- Read a text between quotes. -/
def quoted? (fuel : Nat) (x : Lexer) (single : Bool) : Option Lexer := do
  let x ← x.remember?
  let (c, text) ← Yaml.quoted? fuel single x.cursor
  return x.scalar false c text false

/-- Read a plain text. -/
def plain? (fuel : Nat) (x : Lexer) : Option Lexer := do
  let x ← x.remember?
  let (c, text, endsLine) ← Yaml.plain? fuel x.inFlow x.indent x.cursor
  return x.scalar true c text endsLine

/-- Read a token that begins with a character. -/
def token? (fuel : Nat) (x : Lexer) (c : Char) (cs : List Char) : Option Lexer :=
  if x.cursor.column = 0 && c = '%' then x.directive? cs
  else if x.cursor.isAtMark '-' then x.boundary? .documentStart
  else if x.cursor.isAtMark '.' then x.boundary? .documentEnd
  else if c = '-' && endsWord cs then x.item?
  else if c = '?' && (x.inFlow || endsWord cs) then x.key?
  else if c = ':' && (x.inFlow || endsWord cs) then x.value?
  else match c with
    | '[' => x.openBracket? .openList
    | ']' => x.closeBracket? .closeList
    | '\x7b' => x.openBracket? .openMap
    | '\x7d' => x.closeBracket? .closeMap
    | ',' => x.comma?
    | '*' => x.name? .reference cs
    | '&' => x.name? .anchor cs
    | '!' => x.tag?
    | '|' => if x.inFlow then none else block? fuel x false
    | '>' => if x.inFlow then none else block? fuel x true
    | '\'' => quoted? fuel x true
    | '"' => quoted? fuel x false
    -- no text begins with these
    | '%' | '@' | '\x60' | '\t' => none
    | _ => plain? fuel x

/-! ## All tokens -/

/-- Move to the next token, over blanks, comments and ends of lines. A tab does not stand where a
key may begin. -/
def skipGap : Nat → Lexer → Lexer
  | 0, x => x
  | fuel + 1, x =>
    let isSkipped := fun c => c = ' ' || (c = '\t' && (x.inFlow || !x.admitsKey))
    let c := x.cursor.skipWhile isSkipped
    let c := if c.rest.head? = some '#' then c.skipLine else c
    if c.rest.head?.any isBreak then
      skipGap fuel { x with cursor := c.newLine, admitsKey := x.admitsKey || !x.inFlow }
    else { x with cursor := c }

/-- Read the tokens of a text. Every one of them has at least one character. -/
def run? : Nat → Lexer → Option (List Token)
  | 0, _ => none
  | fuel + 1, x => do
    let x ← (skipGap (fuel + 1) x).expire?
    let x := x.closeBlocks (some x.cursor.column)
    match x.cursor.rest with
    | [] => (x.closeBlocks none).forget?.map (·.tokens.reverse)
    | c :: cs => run? fuel (← token? (fuel + 1) x c cs)

end Lexer

/-- The tokens of a text. -/
def tokens? (cs : List Char) : Option (List Token) :=
  if cs.all isAllowed then Lexer.run? (cs.length + 1) (Lexer.start cs) else none

end Telecontrol.Yaml
