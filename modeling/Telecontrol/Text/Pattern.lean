import Telecontrol.Document.Numeral
import Telecontrol.Text.Letter

/-! # Patterns of texts

A **pattern** is a regular expression. Here it is only checked whether a text is one: brackets are
closed, something stands before every sign of repetition, and every escape means something. What
would need tables of all letters is no part of a pattern: the classes of letters, digits and blanks,
the bounds of words, and the mode in which capitals do not matter.

Main statement: `Pattern.isPattern_of_plain` (a text of letters and digits is a pattern). -/

namespace Telecontrol.Pattern

/-! ## Single characters -/

/-- The character that a letter after a backslash stands for. -/
def control? : Char → Option Char
  | 'a' => some '\x07'
  | 'f' => some '\x0c'
  | 'n' => some '\n'
  | 'r' => some '\r'
  | 't' => some '\t'
  | 'v' => some '\x0b'
  | _ => none

/-- How many digits follow a letter that introduces the number of a character. -/
def digitCount? : Char → Option Nat
  | 'x' => some 2
  | 'u' => some 4
  | 'U' => some 8
  | _ => none

/-- Whether a character stands for itself after a backslash. -/
def isEscapable (c : Char) : Bool :=
  c.toNat < 0x80 && !c.isAlphanum && c != '<' && c != '>'

/-- Read a character after a backslash. -/
def escaped? : List Char → Option (Char × List Char)
  | [] => none
  | c :: cs =>
    if isEscapable c then some (c, cs)
    else match control? c with
      | some d => some (d, cs)
      | none => do
        let count ← digitCount? c
        let number ← Numeral.digits? 16 (cs.take count)
        if (cs.take count).length = count ∧ number.isValidChar then
          some (Char.ofNat number, cs.drop count)
        else none

/-! ## Classes in brackets -/

/-- The names of the classes of English characters. -/
def classNames : List String :=
  ["alnum", "alpha", "ascii", "blank", "cntrl", "digit", "graph", "lower", "print", "punct",
    "space", "upper", "word", "xdigit"]

/-- Read the name of a class, its colons and its closing bracket. -/
def namedClass? : List Char → Option (List Char)
  | ':' :: cs =>
    let cs := if cs.head? = some '^' then cs.drop 1 else cs
    if classNames.contains (String.ofList (cs.takeWhile (· ≠ ':'))) then
      match cs.dropWhile (· ≠ ':') with
      | ':' :: ']' :: rest => some rest
      | _ => none
    else none
  | _ => none

/-- Drop what stands for itself at the beginning of a class: after the sign of a complement dashes,
or a closing bracket. -/
def classStart (cs : List Char) : List Char :=
  let cs := if cs.head? = some '^' then cs.drop 1 else cs
  match cs with
  | ']' :: rest => rest
  | cs => cs.dropWhile (· = '-')

/-- Read a character in a class. -/
def member? : List Char → Option (Char × List Char)
  | [] => none
  | c :: cs => if c = '\\' then escaped? cs else some (c, cs)

/-- Read a class up to its closing bracket; `depth` counts the classes around it. -/
def class? (fuel depth : Nat) (cs : List Char) : Option (List Char) :=
  match fuel with
  | 0 => none
  | fuel + 1 =>
    match cs with
    | [] => none
    | ']' :: cs => if depth = 0 then some cs else class? fuel (depth - 1) cs
    | '[' :: cs =>
      match namedClass? cs with
      | some rest => class? fuel depth rest
      | none => class? fuel (depth + 1) (classStart cs)
    -- the signs of intersection and difference stand between any two parts
    | '&' :: '&' :: cs | '-' :: '-' :: cs | '~' :: '~' :: cs => class? fuel depth cs
    | cs => do
      let (low, rest) ← member? cs
      match rest with
      | '-' :: ']' :: _ | '-' :: '-' :: _ => class? fuel depth rest
      | '-' :: next =>
        let (high, rest) ← member? next
        if low ≤ high then class? fuel depth rest else none
      | rest => class? fuel depth rest

/-! ## Groups -/

/-- Read the name of a group up to its closing angle bracket. -/
def groupName? (cs : List Char) : Option (List Char × List Char) :=
  let name := cs.takeWhile (· ≠ '>')
  let isNameChar (c : Char) : Bool := Letter.isLetter c || ['_', '.', '[', ']'].contains c
  let begins : Bool := name.head?.any fun c => c = '_' || (Letter.isLetter c && !c.isDigit)
  if begins && name.all isNameChar then
    match cs.dropWhile (· ≠ '>') with
    | _ :: rest => some (name, rest)
    | [] => none
  else none

/-- Whether characters are the modes of a group: letters that come once, some of them after a minus
sign. -/
def areModes (modes : List Char) : Bool :=
  modes.all (fun c => ['m', 's', 'U', 'u', 'R', 'x', '-'].contains c) &&
    modes.eraseDups.length == modes.length && modes.getLast? != some '-'

/-- The beginning of a group. -/
inductive Opening where
  /-- A group, and its name if it has one. -/
  | group (name : Option (List Char))
  /-- Modes for what follows, without a group. -/
  | modes
  deriving DecidableEq, Repr

/-- Read what follows an opening parenthesis. -/
def opening? : List Char → Option (Opening × List Char)
  | '?' :: 'P' :: '<' :: cs | '?' :: '<' :: cs =>
    (groupName? cs).map fun (name, rest) => (.group (some name), rest)
  | '?' :: cs =>
    let modes := cs.takeWhile fun c => c ≠ ':' && c ≠ ')'
    if areModes modes then
      match cs.dropWhile fun c => c ≠ ':' && c ≠ ')' with
      | ':' :: rest => some (.group none, rest)
      | _ :: rest => if modes.isEmpty then none else some (.modes, rest)
      | [] => none
    else none
  | cs => some (.group none, cs)

/-! ## Whole patterns -/

/-- Whether elements go on a pattern in which `groups` are open and `names` are taken; `repeatable`
says that a sign of repetition may follow. Every step reads a character. -/
def elements (fuel groups : Nat) (names : List (List Char)) (repeatable : Bool)
    (cs : List Char) : Bool :=
  match fuel with
  | 0 => false
  | fuel + 1 =>
    match cs with
    | [] => groups = 0
    | c :: cs =>
      if c = '(' then
        match opening? cs with
        | some (.group none, rest) => elements fuel (groups + 1) names false rest
        | some (.group (some name), rest) =>
          !names.contains name && elements fuel (groups + 1) (name :: names) false rest
        | some (.modes, rest) => elements fuel groups names false rest
        | none => false
      else if c = ')' then 0 < groups && elements fuel (groups - 1) names true cs
      else if c = '|' then elements fuel groups names false cs
      else if c = '[' then
        match class? fuel 0 (classStart cs) with
        | some rest => elements fuel groups names true rest
        | none => false
      else if c = '?' || c = '*' || c = '+' then repeatable && elements fuel groups names true cs
      -- a count of repetitions is closed by a brace, which no pattern of a filter can hold
      else if c = '\x7b' then false
      else if c = '\\' then
        match cs with
        | 'A' :: rest | 'z' :: rest => elements fuel groups names true rest
        | cs =>
          match escaped? cs with
          | some (_, rest) => elements fuel groups names true rest
          | none => false
      else elements fuel groups names true cs

/-- Whether a text is a pattern. -/
def isPattern (cs : List Char) : Bool := elements (cs.length + 1) 0 [] false cs

/-- Letters and digits go on a pattern, whatever came before them. -/
theorem elements_of_plain {cs : List Char} (h : ∀ c ∈ cs, c.isAlphanum = true) (fuel : Nat)
    (hf : cs.length < fuel) (names : List (List Char)) (repeatable : Bool) :
    elements fuel 0 names repeatable cs = true := by
  induction cs generalizing fuel repeatable with
  | nil =>
    obtain ⟨fuel, rfl⟩ : ∃ n, fuel = n + 1 := ⟨fuel - 1, by simp at hf; omega⟩
    rfl
  | cons c cs ih =>
    obtain ⟨fuel, rfl⟩ : ∃ n, fuel = n + 1 := ⟨fuel - 1, by simp at hf; omega⟩
    have hc := h c List.mem_cons_self
    have ne (d : Char) (hd : d.isAlphanum = false) : c ≠ d := fun e => by simp [e, hd] at hc
    have next := ih (fun d hd => h d (List.mem_cons_of_mem c hd)) fuel (by simp at hf; omega) true
    simp [elements, ne '(' rfl, ne ')' rfl, ne '|' rfl, ne '[' rfl, ne '?' rfl, ne '*' rfl,
      ne '+' rfl, ne '\x7b' rfl, ne '\\' rfl, next]

/-- A text of letters and digits is a pattern, in which they stand for themselves. -/
theorem isPattern_of_plain {cs : List Char} (h : ∀ c ∈ cs, c.isAlphanum = true) :
    isPattern cs = true :=
  elements_of_plain h _ (Nat.lt_succ_self _) [] false

end Telecontrol.Pattern
