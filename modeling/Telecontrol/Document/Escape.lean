import Telecontrol.Document.Numeral

/-! # Escapes in quoted text

Between quotes a backslash begins an **escape**: a letter for a character, or the hexadecimal digits
of its number. The formats of documents differ in their letters only, which an `EscapeRule` lists.

Main statement: `EscapeRule.units?_eq_map_toNat`: a text without backslashes stands for itself. -/

namespace Telecontrol

/-- What a backslash means in a format. -/
structure EscapeRule where
  /-- The character that a letter stands for. -/
  short : Char → Option Char
  /-- How many digits follow a letter that introduces a number. -/
  digits : Char → Option Nat
  /-- Whether a character above `U+FFFF` is written as a pair of surrogates. -/
  pairs : Bool
  /-- The characters that stand for themselves. -/
  admits : Char → Bool

namespace EscapeRule

/-- The numbers of the characters of a text, where `left` digits of a number with the value so far
are still to come. -/
def units? (x : EscapeRule) : Nat → Nat → List Char → Option (List Nat)
  | 0, _, [] => some []
  | _ + 1, _, [] => none
  | left + 1, value, c :: cs =>
    (Numeral.digit? 16 c).bind fun d =>
      -- the last digit completes the number
      if left = 0 then (x.units? 0 0 cs).map ((value * 16 + d) :: ·)
      else x.units? left (value * 16 + d) cs
  | 0, _, c :: cs =>
    if c = '\\' then
      match cs with
      | [] => none
      | e :: cs =>
        match x.short e with
        | some c => (x.units? 0 0 cs).map (c.toNat :: ·)
        | none => (x.digits e).bind fun n => x.units? n 0 cs
    else if x.admits c then (x.units? 0 0 cs).map (c.toNat :: ·)
    else none

/-- A text without backslashes stands for itself. -/
theorem units?_eq_map_toNat (x : EscapeRule) (cs : List Char) (h : ∀ c ∈ cs, c ≠ '\\')
    (ha : ∀ c ∈ cs, x.admits c = true) : x.units? 0 0 cs = some (cs.map Char.toNat) := by
  induction cs with
  | nil => rfl
  | cons c cs ih =>
    unfold units?
    rw [if_neg (h c List.mem_cons_self), if_pos (ha c List.mem_cons_self),
      ih (fun d hd => h d (List.mem_cons_of_mem c hd)) fun d hd => ha d (List.mem_cons_of_mem c hd)]
    rfl

/-- Whether a number is the first half of a surrogate pair. -/
def isHigh (n : Nat) : Bool := 0xD800 ≤ n && n < 0xDC00

/-- Whether a number is the second half of a surrogate pair. -/
def isLow (n : Nat) : Bool := 0xDC00 ≤ n && n < 0xE000

/-- The character of a number. -/
def char? (n : Nat) : Option Char := if n.isValidChar then some (Char.ofNat n) else none

/-- Join the surrogate pairs among numbers of characters. -/
def join? (x : EscapeRule) : List Nat → Option (List Char)
  | [] => some []
  | [n] => (char? n).map ([·])
  | n :: m :: rest =>
    -- in a format of pairs the first half of one never stands alone
    if x.pairs && isHigh n then
      if isLow m then do
        let c ← char? (0x10000 + (n - 0xD800) * 0x400 + (m - 0xDC00))
        return c :: (← x.join? rest)
      else none
    else do
      let c ← char? n
      return c :: (← x.join? (m :: rest))

/-- The text that stands between two quotes. -/
def decode? (x : EscapeRule) (cs : List Char) : Option String := do
  let units ← x.units? 0 0 cs
  return String.ofList (← x.join? units)

/-- The text up to a closing double quote, and what follows the quote. -/
def split? (read : List Char) : List Char → Option (List Char × List Char)
  | [] => none
  | c :: cs =>
    if c = '"' then some (read.reverse, cs)
    else if c = '\\' then
      match cs with
      | [] => none
      | d :: cs => split? (d :: c :: read) cs
    else split? (c :: read) cs

/-- Read a text after its opening double quote. -/
def quoted? (x : EscapeRule) (cs : List Char) : Option (String × List Char) := do
  let (text, rest) ← split? [] cs
  return (← x.decode? text, rest)

end EscapeRule

end Telecontrol
