import Telecontrol.Document.Basic
import Telecontrol.Document.Escape

/-! # Scalars of TOML

The values of a TOML document that hold no others: texts between quotes of four kinds, truth values,
numbers, and dates and times.

Main statements: `Toml.unifyEnds_of_not_mem` (only the return before the end of a line is dropped)
and `Toml.proper_scalar?` (every scalar is a proper document). -/

namespace Telecontrol.Toml

/-! ## Blanks and comments -/

/-- Whether a character is a blank. -/
def isBlank (c : Char) : Bool := c = ' ' || c = '\t'

/-- Whether a character may stand in a comment, or in a text on one line. -/
def isPrintable (c : Char) : Bool := c = '\t' || (0x20 ≤ c.toNat && c.toNat ≠ 0x7f)

/-- Drop blanks at the beginning. -/
def skip (cs : List Char) : List Char := cs.dropWhile isBlank

/-- A text in which every line ends in the same way. -/
def unifyEnds : List Char → List Char
  | '\r' :: '\n' :: cs => '\n' :: unifyEnds cs
  | c :: cs => c :: unifyEnds cs
  | [] => []

/-- Where no character is a return nothing is dropped. -/
theorem unifyEnds_of_not_mem {cs : List Char} (h : '\r' ∉ cs) : unifyEnds cs = cs := by
  induction cs with
  | nil => rfl
  | cons c cs ih =>
    have hc : c ≠ '\r' := fun e => h (by simp [e])
    have tail := ih fun hm => h (List.mem_cons_of_mem c hm)
    unfold unifyEnds
    split
    · rename_i e
      exact absurd (List.cons.inj e).1 hc
    · rename_i e
      obtain ⟨rfl, rfl⟩ := List.cons.inj e
      rw [tail]
    · rename_i e
      cases e

/-- Drop blanks, ends of lines and comments at the beginning; `comment` says that one has begun. -/
def skipLines (comment : Bool) : List Char → List Char
  | [] => []
  | c :: cs =>
    if c = '\n' then skipLines false cs
    else if comment then if isPrintable c then skipLines true cs else c :: cs
    else if isBlank c then skipLines false cs
    else if c = '#' then skipLines true cs
    else c :: cs

/-- Read the rest of a line on which nothing more is said. -/
def lineEnd? (cs : List Char) : Option (List Char) :=
  let rest := match skip cs with
    | '#' :: comment => comment.dropWhile isPrintable
    | cs => cs
  match rest with
  | [] => some []
  | '\n' :: rest => some rest
  | _ => none

/-! ## Texts -/

/-- The escapes between double quotes. -/
def escapes : EscapeRule where
  short
    | '"' => some '"'
    | '\\' => some '\\'
    | 'b' => some '\x08'
    | 'f' => some '\x0c'
    | 'n' => some '\n'
    | 'r' => some '\r'
    | 't' => some '\t'
    | _ => none
  digits
    | 'u' => some 4
    | 'U' => some 8
    | _ => none
  pairs := false
  admits := isPrintable

/-- The escapes between three double quotes, where lines may end. -/
def longEscapes : EscapeRule := { escapes with admits := fun c => c = '\n' || isPrintable c }

/-- Read a text after its opening single quote. -/
def literal? (cs : List Char) : Option (String × List Char) :=
  let text := cs.takeWhile (· ≠ '\'')
  match cs.dropWhile (· ≠ '\'') with
  | _ :: rest => if text.all isPrintable then some (String.ofList text, rest) else none
  | [] => none

/-- The text up to three closing quotes, and what follows them; one or two more quotes belong to the
text. A backslash takes the next character along if it `escapes`. -/
def splitLong? (quote : Char) (escapes : Bool) (read : List Char) :
    List Char → Option (List Char × List Char)
  | [] => none
  | c :: cs =>
    if c = '\\' && escapes then
      match cs with
      | [] => none
      | d :: cs => splitLong? quote escapes (d :: c :: read) cs
    else if c = quote && cs.take 2 = [quote, quote] then
      let more := ((cs.drop 2).take 2).takeWhile (· = quote)
      some (read.reverse ++ more, cs.drop (2 + more.length))
    else splitLong? quote escapes (c :: read) cs

/-- Drop the first end of a line, if the text begins with it. -/
def dropFirstEnd (cs : List Char) : List Char := if cs.head? = some '\n' then cs.drop 1 else cs

/-- Where in a text of several lines a backslash has been read. -/
inductive JoinState where
  | text
  | escape
  /-- After a backslash and blanks, which are kept if the line goes on. -/
  | blanks (read : List Char)
  /-- After the end of a line that goes on in the next. -/
  | joining

/-- Join the lines that a backslash divides, without the blanks between them. -/
def joinLines (s : JoinState) : List Char → List Char
  | [] =>
    match s with
    | .escape => ['\\']
    | .blanks read => '\\' :: read.reverse
    | _ => []
  | c :: cs =>
    match s with
    | .text => if c = '\\' then joinLines .escape cs else c :: joinLines .text cs
    | .escape =>
      if c = '\n' then joinLines .joining cs
      else if isBlank c then joinLines (.blanks [c]) cs
      else '\\' :: c :: joinLines .text cs
    | .blanks read =>
      if c = '\n' then joinLines .joining cs
      else if isBlank c then joinLines (.blanks (c :: read)) cs
      else '\\' :: (read.reverse ++ c :: joinLines .text cs)
    | .joining =>
      if c = '\n' || isBlank c then joinLines .joining cs
      else if c = '\\' then joinLines .escape cs
      else c :: joinLines .text cs

/-- Read a text after its three opening double quotes. -/
def longQuoted? (cs : List Char) : Option (String × List Char) := do
  let (text, rest) ← splitLong? '"' true [] (dropFirstEnd cs)
  return (← longEscapes.decode? (joinLines .text text), rest)

/-- Read a text after its three opening single quotes. -/
def longLiteral? (cs : List Char) : Option (String × List Char) := do
  let (text, rest) ← splitLong? '\'' false [] (dropFirstEnd cs)
  if text.all longEscapes.admits then some (String.ofList text, rest) else none

/-- Read a text. -/
def text? : List Char → Option (String × List Char)
  | '"' :: '"' :: '"' :: cs => longQuoted? cs
  | '"' :: cs => escapes.quoted? cs
  | '\'' :: '\'' :: '\'' :: cs => longLiteral? cs
  | '\'' :: cs => literal? cs
  | _ => none

/-! ## Numbers -/

/-- The digits of a number without the underscores that group them; each stands between two digits.
-/
def ungroup? (radix : Nat) : List Char → Option (List Char)
  | [] => some []
  | [c] => if (Numeral.digit? radix c).isSome then some [c] else none
  | c :: d :: rest =>
    if (Numeral.digit? radix c).isNone then none
    else if d = '_' then
      -- after an underscore there is a digit again
      match rest with
      | [] => none
      | e :: rest => (ungroup? radix (e :: rest)).map (c :: ·)
    else (ungroup? radix (d :: rest)).map (c :: ·)

/-- A whole number, which must be one of 64 bits with a sign. -/
def whole? (n : Int) : Option Document :=
  if -0x8000000000000000 ≤ n ∧ n < 0x8000000000000000 then some (.whole n) else none

/-- The number of digits with a prefix that says their radix. -/
def prefixed? (radix : Nat) (cs : List Char) : Option Document := do
  let digits ← ungroup? radix cs
  whole? (← Numeral.digits? radix digits)

/-- The characters of an exponent without the underscores. -/
def ungroupExponent? : List Char → Option (List Char)
  | [] => none
  | c :: cs => if c = '-' ∨ c = '+' then (ungroup? 10 cs).map (c :: ·) else ungroup? 10 (c :: cs)

/-- The characters of a decimal number without the underscores. -/
def ungroupDecimal? (cs : List Char) : Option (List Char) := do
  let isMark (c : Char) : Bool := c = '.' || c = 'e' || c = 'E'
  let isExponent (c : Char) : Bool := c = 'e' || c = 'E'
  let (sign, unsigned) := Numeral.splitSign cs
  let whole ← ungroup? 10 (unsigned.takeWhile fun c => !isMark c)
  let rest := unsigned.dropWhile fun c => !isMark c
  let (fraction, rest) ← match rest with
    | '.' :: rest =>
      let digits ← ungroup? 10 (rest.takeWhile fun c => !isExponent c)
      pure ('.' :: digits, rest.dropWhile fun c => !isExponent c)
    | rest => pure ([], rest)
  let exponent ← match rest with
    | [] => pure []
    | c :: rest => (ungroupExponent? rest).map (c :: ·)
  return sign.toList ++ whole ++ fraction ++ exponent

/-- Whether a numeral is one of TOML: digits on both sides of a point and no superfluous zero. A
number too large for double precision is none, but its negative is. -/
def admits (n : Numeral) : Bool :=
  !n.whole.isEmpty && !n.hasLeadingZero && n.fraction != some [] &&
    (n.isWhole || n.sign == some '-' || !n.isTooLarge)

/-- The document of a number. -/
def number? : List Char → Option Document
  | '0' :: 'x' :: cs => prefixed? 16 cs
  | '0' :: 'o' :: cs => prefixed? 8 cs
  | '0' :: 'b' :: cs => prefixed? 2 cs
  | cs =>
    if (Numeral.splitSign cs).2 ∈ ["inf".toList, "nan".toList] then some .fractional
    else do
      let n ← ((← ungroupDecimal? cs) |> Numeral.read?).filter admits
      if n.isWhole then whole? n.value else some .fractional

/-! ## Dates and times -/

/-- Read a number of some digits between two bounds. -/
def bounded? (count low high : Nat) (cs : List Char) : Option (Nat × List Char) := do
  let digits := cs.take count
  let n ← Numeral.digits? 10 digits
  if digits.length = count ∧ low ≤ n ∧ n ≤ high then some (n, cs.drop count) else none

/-- Read a certain character. -/
def sign? (c : Char) : List Char → Option (List Char)
  | d :: cs => if d = c then some cs else none
  | [] => none

/-- How many days a month has. -/
def daysOfMonth (year month : Nat) : Nat :=
  let isLeap : Bool := year % 4 = 0 && (year % 100 ≠ 0 || year % 400 = 0)
  if month = 2 then if isLeap then 29 else 28
  else if month ∈ [4, 6, 9, 11] then 30 else 31

/-- Read a date. -/
def date? (cs : List Char) : Option (List Char) := do
  let (year, cs) ← bounded? 4 0 9999 cs
  let (month, cs) ← bounded? 2 1 12 (← sign? '-' cs)
  let (_, cs) ← bounded? 2 1 (daysOfMonth year month) (← sign? '-' cs)
  return cs

/-- Read a time of the day; there may be a sixtieth second. -/
def time? (cs : List Char) : Option (List Char) := do
  let (_, cs) ← bounded? 2 0 23 cs
  let (_, cs) ← bounded? 2 0 59 (← sign? ':' cs)
  let (_, cs) ← bounded? 2 0 60 (← sign? ':' cs)
  match cs with
  | '.' :: rest => if rest.head?.any Char.isDigit then some (rest.dropWhile Char.isDigit) else none
  | cs => some cs

/-- Whether a text is nothing or the distance to the standard time. -/
def isZone : List Char → Bool
  | [] => true
  | c :: cs =>
    if c = 'Z' || c = 'z' then cs.isEmpty
    else if c = '+' || c = '-' then
      match (bounded? 2 0 23 cs).bind fun (_, cs) => (sign? ':' cs).bind (bounded? 2 0 59) with
      | some (_, rest) => rest.isEmpty
      | none => false
    else false

/-- Whether a text is a date, a time, or both. -/
def isMoment (cs : List Char) : Bool :=
  match date? cs with
  | some [] => true
  | some (c :: cs) =>
    (c = 'T' || c = 't' || c = ' ') && match time? cs with
      | some rest => isZone rest
      | none => false
  | none => time? cs == some []

/-- The document of a date or a time. No setting takes one, so it is a map with a key of its own. -/
def moment (cs : List Char) : Document := .map [("moment", .text (String.ofList cs))]

/-! ## Scalars -/

/-- Whether a character may stand in a scalar without quotes. -/
def isWordChar (c : Char) : Bool := c.isAlphanum || ['+', '-', '_', '.', ':'].contains c

/-- The document of a scalar without quotes. -/
def word? (cs : List Char) : Option Document :=
  if cs = "true".toList then some (.bool true)
  else if cs = "false".toList then some (.bool false)
  else if isMoment cs then some (moment cs)
  else number? cs

/-- Read a scalar. -/
def scalar? (cs : List Char) : Option (Document × List Char) :=
  if cs.head? = some '"' || cs.head? = some '\'' then
    (text? cs).map fun (s, rest) => (.text s, rest)
  else
    let word := cs.takeWhile isWordChar
    let rest := cs.dropWhile isWordChar
    -- the time of a day may stand after a space
    let longer := word ++ ' ' :: (rest.drop 1).takeWhile isWordChar
    if rest.head? = some ' ' && (date? word == some []) && isMoment longer then
      some (moment longer, (rest.drop 1).dropWhile isWordChar)
    else (word? word).map fun d => (d, rest)

/-! ## Scalars are proper -/

variable {cs : List Char} {d : Document}

/-- A whole number is proper. -/
theorem proper_whole? {n : Int} (h : whole? n = some d) : d.Proper := by
  rw [whole?] at h
  split at h
  · exact Option.some.inj h ▸ .whole n
  · cases h

/-- So is a number with a prefix. -/
theorem proper_prefixed? {radix : Nat} (h : prefixed? radix cs = some d) : d.Proper := by
  obtain ⟨digits, -, h⟩ := Option.bind_eq_some_iff.mp h
  obtain ⟨n, -, h⟩ := Option.bind_eq_some_iff.mp h
  exact proper_whole? h

/-- Every number is proper. -/
theorem proper_number? (h : number? cs = some d) : d.Proper := by
  rw [number?.eq_def] at h
  split at h
  iterate 3 exact proper_prefixed? h
  split at h
  · exact Option.some.inj h ▸ .fractional
  · obtain ⟨digits, -, h⟩ := Option.bind_eq_some_iff.mp h
    obtain ⟨n, -, h⟩ := Option.bind_eq_some_iff.mp h
    split at h
    · exact proper_whole? h
    · exact Option.some.inj h ▸ .fractional

/-- A date or a time is proper. -/
theorem proper_moment (cs : List Char) : (moment cs).Proper :=
  (Document.properFields_nil.put (.text _) "moment").proper

/-- A scalar without quotes is proper. -/
theorem proper_word? (h : word? cs = some d) : d.Proper := by
  rw [word?] at h
  split at h
  · exact Option.some.inj h ▸ .bool true
  split at h
  · exact Option.some.inj h ▸ .bool false
  split at h
  · exact Option.some.inj h ▸ proper_moment cs
  · exact proper_number? h

/-- Every scalar is proper. -/
theorem proper_scalar? {rest : List Char} (h : scalar? cs = some (d, rest)) : d.Proper := by
  rw [scalar?] at h
  split at h
  · obtain ⟨⟨s, rest⟩, -, h⟩ := Option.map_eq_some_iff.mp h
    exact (Prod.mk.inj h).1 ▸ .text s
  dsimp only at h
  split at h
  · exact (Prod.mk.inj (Option.some.inj h)).1 ▸ proper_moment _
  · obtain ⟨d', hd, h⟩ := Option.map_eq_some_iff.mp h
    exact (Prod.mk.inj h).1 ▸ proper_word? hd

end Telecontrol.Toml
