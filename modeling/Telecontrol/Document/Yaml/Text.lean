import Telecontrol.Document.Numeral
import Telecontrol.Document.Yaml.Cursor

/-! # Texts in YAML

How the text of a scalar is written: plainly, between quotes, or as a block of lines. A text may go
on over several lines, which are **folded**: the end of a line becomes a space, and empty lines
become ends of lines. A text is collected in parts, the latest first; the amount of fuel is that of
the lexer, which is greater than the number of characters left.

Main statements: `Yaml.plainWord?_prefix` (a plain word is what comes next, up to a blank or the end
of the line at most) and `Yaml.length_quotedWord?` (of a word between quotes no more is read than
there is). -/

namespace Telecontrol.Yaml

/-! ## Gaps -/

/-- The blanks and the ends of lines between two words. -/
structure Gap where
  /-- The blanks before the first end of a line, the latest first. -/
  blanks : List Char
  /-- Whether the line has ended. -/
  broken : Bool
  /-- The first end of a line; an escaped one is none. -/
  first : Option Char
  /-- The other ends of lines, the latest first. -/
  others : List Char
  deriving DecidableEq, Repr

namespace Gap

/-- No gap. -/
def none : Gap := ⟨[], false, .none, []⟩

/-- A gap after an escaped end of a line. -/
def escaped : Gap := ⟨[], true, .none, []⟩

/-- A gap with one more blank. -/
def blank (g : Gap) (c : Char) : Gap := if g.broken then g else { g with blanks := c :: g.blanks }

/-- A gap with one more end of a line. -/
def lineEnd (g : Gap) (c : Char) : Gap :=
  if g.broken then { g with others := breakText c :: g.others }
  else ⟨[], true, some (breakText c), []⟩

/-- What a gap is in the text. -/
def fold (g : Gap) : List Char :=
  if g.broken then
    match g.first with
    | some '\n' => if g.others.isEmpty then [' '] else g.others.reverse
    | some c => c :: g.others.reverse
    | .none => g.others.reverse
  else g.blanks.reverse

end Gap

/-- Read a gap; a tab must not stand before the column `indent` of a later line. -/
def gap? (indent : Nat) : Nat → Cursor → Gap → Option (Cursor × Gap)
  | 0, _, _ => none
  | fuel + 1, c, g =>
    match c.rest with
    | [] => some (c, g)
    | d :: _ =>
      if isBlank d then
        if g.broken && d = '\t' && c.column < indent then none
        else gap? indent fuel (c.advance 1) (g.blank d)
      else if isBreak d then gap? indent fuel c.newLine (g.lineEnd d)
      else some (c, g)

/-- The text of parts of which the latest comes first. -/
def joinParts (parts : List (List Char)) : List Char := parts.reverse.flatten

/-! ## Plain texts -/

/-- Read a word of a plain text. A colon before a blank ends it; within brackets so do commas and
brackets, and a colon before one of them is refused. -/
def plainWord? (inFlow : Bool) : List Char → Option (List Char)
  | [] => some []
  | c :: cs =>
    if isBlank c || isBreak c then some []
    else if inFlow && c = ':' &&
        cs.head?.any fun d => [',', '?', '[', ']', '\x7b', '\x7d'].contains d then none
    else if c = ':' && endsWord cs then some []
    else if inFlow && [',', '[', ']', '\x7b', '\x7d'].contains c then some []
    else (plainWord? inFlow cs).map (c :: ·)

/-- A plain word is what comes next in the text. There is neither a blank nor the end of a line in
it. -/
theorem plainWord?_prefix {inFlow : Bool} {cs word : List Char}
    (h : plainWord? inFlow cs = some word) :
    word <+: cs ∧ ∀ c ∈ word, isBlank c = false ∧ isBreak c = false := by
  have hnone (cs : List Char) :
      [] <+: cs ∧ ∀ c ∈ ([] : List Char), isBlank c = false ∧ isBreak c = false :=
    ⟨List.nil_prefix, fun _ hc => absurd hc List.not_mem_nil⟩
  induction cs generalizing word with
  | nil => exact Option.some.inj h ▸ hnone _
  | cons c cs ih =>
    rw [plainWord?] at h
    split at h
    · -- a blank or the end of the line: the word ends before it
      exact Option.some.inj h ▸ hnone _
    rename_i hblank
    split at h
    · cases h
    split at h
    · exact Option.some.inj h ▸ hnone _
    split at h
    · exact Option.some.inj h ▸ hnone _
    · -- the character belongs to the word
      obtain ⟨rest, hrest, rfl⟩ := Option.map_eq_some_iff.mp h
      obtain ⟨hpre, hplain⟩ := ih hrest
      have hc : isBlank c = false ∧ isBreak c = false :=
        Bool.or_eq_false_iff.mp (Bool.eq_false_iff.mpr hblank)
      exact ⟨(List.prefix_cons_inj c).mpr hpre, List.forall_mem_cons.mpr ⟨hc, hplain⟩⟩

/-- Read a plain text from a gap on, which belongs to it if another word follows. The text ends
before a line that is indented less than `indent`, unless it stands in brackets. The answer says
whether the text ended after the end of a line. -/
def plainFrom? (inFlow : Bool) (indent : Nat) :
    Nat → Cursor → List (List Char) → Gap → Option (Cursor × List Char × Bool)
  | 0, _, _, _ => none
  | fuel + 1, c, parts, g =>
    if c.isAtBoundary || c.rest.head? = some '#' then some (c, joinParts parts, g.broken)
    else do
      let word ← plainWord? inFlow c.rest
      let c := c.advance word.length
      let parts := if word.isEmpty then parts else word :: g.fold :: parts
      let g := if word.isEmpty then g else Gap.none
      if !endsWord c.rest || c.rest.isEmpty then return (c, joinParts parts, g.broken)
      let (c, g) ← gap? indent (fuel + 1) c g
      if !inFlow && c.column < indent then return (c, joinParts parts, g.broken)
      plainFrom? inFlow indent fuel c parts g

/-- Read a plain text. -/
def plain? (fuel : Nat) (inFlow : Bool) (indent : Nat) (c : Cursor) :
    Option (Cursor × List Char × Bool) :=
  plainFrom? inFlow indent fuel c [] Gap.none

/-! ## Quoted texts -/

/-- The character that a letter after a backslash stands for. -/
def escape? : Char → Option Char
  | '0' => some '\x00'
  | 'a' => some '\x07'
  | 'b' => some '\x08'
  | 't' => some '\t'
  | '\t' => some '\t'
  | 'n' => some '\n'
  | 'v' => some '\x0b'
  | 'f' => some '\x0c'
  | 'r' => some '\r'
  | 'e' => some '\x1b'
  | ' ' => some ' '
  | '"' => some '"'
  | '/' => some '/'
  | '\\' => some '\\'
  | 'N' => some '\u0085'
  | '_' => some '\u00a0'
  | 'L' => some '\u2028'
  | 'P' => some '\u2029'
  | _ => none

/-- How many digits follow a letter that introduces the number of a character. -/
def escapeDigits? : Char → Option Nat
  | 'x' => some 2
  | 'u' => some 4
  | 'U' => some 8
  | _ => none

/-- Read the letter and the digits after a backslash. The answer says how many they are. -/
def escaped? : List Char → Option (Char × Nat)
  | [] => none
  | c :: cs =>
    match escape? c with
    | some d => some (d, 1)
    | none => do
      let count ← escapeDigits? c
      let digits := cs.take count
      let number ← Numeral.digits? 16 digits
      if digits.length = count ∧ number.isValidChar then some (Char.ofNat number, count + 1)
      else none

/-- Of an escape no more is read than there is. -/
theorem length_escaped? {cs : List Char} {c : Char} {n : Nat} (h : escaped? cs = some (c, n)) :
    n ≤ cs.length := by
  cases cs with
  | nil => cases h
  | cons d cs =>
    rw [escaped?] at h
    split at h
    · obtain ⟨-, rfl⟩ := Prod.mk.inj (Option.some.inj h)
      exact Nat.succ_le_succ (Nat.zero_le _)
    · obtain ⟨count, -, h⟩ := Option.bind_eq_some_iff.mp h
      obtain ⟨number, -, h⟩ := Option.bind_eq_some_iff.mp h
      split at h
      · rename_i hdigits
        obtain ⟨-, rfl⟩ := Prod.mk.inj (Option.some.inj h)
        have hcount : (cs.take count).length = count := hdigits.1
        rw [List.length_take] at hcount
        rw [List.length_cons]
        omega
      · cases h

/-- A word between quotes. -/
structure QuotedWord where
  text : List Char
  /-- How many characters were read. -/
  length : Nat
  /-- Whether an escaped end of a line comes next. -/
  isContinued : Bool
  deriving DecidableEq, Repr

/-- A word with a character before it that is written with some characters. -/
def QuotedWord.cons (c : Char) (length : Nat) (w : QuotedWord) : QuotedWord :=
  { w with text := c :: w.text, length := w.length + length }

/-- Read a word between quotes up to a blank, the end of a line or the closing quote. -/
def quotedWord? (single : Bool) : Nat → List Char → Option QuotedWord
  | 0, _ => none
  | _ + 1, [] => some ⟨[], 0, false⟩
  | fuel + 1, c :: cs =>
    if isBlank c || isBreak c then some ⟨[], 0, false⟩
    else if single && c = '\'' && cs.head? = some '\'' then
      (quotedWord? single fuel (cs.drop 1)).map (.cons '\'' 2)
    else if c = (if single then '\'' else '"') then some ⟨[], 0, false⟩
    else if !single && c = '\\' then
      if cs.head?.any isBreak then some ⟨[], 1, true⟩
      else (escaped? cs).bind fun (d, n) =>
        (quotedWord? single fuel (cs.drop n)).map (.cons d (n + 1))
    else (quotedWord? single fuel cs).map (.cons c 1)

/-- Of a word between quotes no more is read than there is. -/
theorem length_quotedWord? {single : Bool} {fuel : Nat} {cs : List Char} {word : QuotedWord}
    (h : quotedWord? single fuel cs = some word) : word.length ≤ cs.length := by
  induction fuel generalizing cs word with
  | zero => cases h
  | succ fuel ih =>
    -- what was read of a word is what was read of its rest and what stood before that
    have hcons {cs ds : List Char} {c : Char} {n : Nat}
        (hlength : ds.length + n ≤ cs.length)
        (h : (quotedWord? single fuel ds).map (.cons c n) = some word) :
        word.length ≤ cs.length := by
      obtain ⟨rest, hrest, rfl⟩ := Option.map_eq_some_iff.mp h
      exact Nat.le_trans (Nat.add_le_add_right (ih hrest) n) hlength
    cases cs with
    | nil => exact Option.some.inj h ▸ Nat.le_refl _
    | cons c cs =>
      rw [quotedWord?] at h
      split at h
      · exact Option.some.inj h ▸ Nat.zero_le _
      split at h
      · rename_i hquotes
        have hnext : cs.head? = some '\'' := by simpa using (Bool.and_eq_true_iff.mp hquotes).2
        obtain ⟨ds, rfl⟩ := List.head?_eq_some_iff.mp hnext
        exact hcons (by simp) h
      by_cases hquote : c = if single then '\'' else '"'
      · rw [if_pos hquote] at h
        exact Option.some.inj h ▸ Nat.zero_le _
      rw [if_neg hquote] at h
      split at h
      · split at h
        · exact Option.some.inj h ▸ Nat.succ_le_succ (Nat.zero_le _)
        · obtain ⟨⟨d, n⟩, hescape, h⟩ := Option.bind_eq_some_iff.mp h
          have hn := length_escaped? hescape
          exact hcons (by rw [List.length_drop, List.length_cons]; omega) h
      · exact hcons (by simp) h

/-- Read a text between quotes after the words before. No document begins or ends within it. -/
def quotedFrom? (single : Bool) :
    Nat → Cursor → List (List Char) → Option (Cursor × List Char)
  | 0, _, _ => none
  | fuel + 1, c, parts =>
    if c.isAtBoundary then none
    else do
      let word ← quotedWord? single (fuel + 1) c.rest
      let c := c.advance word.length
      let parts := word.text :: parts
      let (c, g) := if word.isContinued then (c.newLine, Gap.escaped) else (c, Gap.none)
      match c.rest with
      | [] => none
      | d :: _ =>
        if d = (if single then '\'' else '"') then return (c.advance 1, joinParts parts)
        let (c, g) ← gap? 0 (fuel + 1) c g
        quotedFrom? single fuel c (g.fold :: parts)

/-- Read a text from its opening quote on. -/
def quoted? (fuel : Nat) (single : Bool) (c : Cursor) : Option (Cursor × List Char) :=
  quotedFrom? single fuel (c.advance 1) []

/-! ## Blocks of lines -/

/-- What becomes of the ends of lines at the end of a block. -/
inductive Chomping where
  | strip
  /-- The first one stays. -/
  | clip
  | keep
  deriving DecidableEq, Repr

/-- Read a sign of chomping. -/
def chomping? : List Char → Option (Chomping × List Char)
  | '+' :: cs => some (.keep, cs)
  | '-' :: cs => some (.strip, cs)
  | _ => none

/-- Read a digit for the indentation of a block. -/
def indentation? : List Char → Option (Nat × List Char)
  | [] => none
  | c :: cs => if '1' ≤ c && c ≤ '9' then some (c.toNat - 48, cs) else none

/-- Read the signs after the mark of a block, in either order. -/
def blockSigns (cs : List Char) : Chomping × Option Nat × List Char :=
  match chomping? cs with
  | some (chomping, cs) =>
    match indentation? cs with
    | some (n, cs) => (chomping, some n, cs)
    | none => (chomping, none, cs)
  | none =>
    match indentation? cs with
    | some (n, cs) =>
      match chomping? cs with
      | some (chomping, cs) => (chomping, some n, cs)
      | none => (.clip, some n, cs)
    | none => (.clip, none, cs)

/-- Read the indentation of lines and the ends of empty ones. The answer has the ends of lines, and
the greatest column that was met. Without an `indent` every space counts as indentation. -/
def blockBreaks? (indent : Option Nat) :
    Nat → Cursor → List Char → Nat → Option (Cursor × List Char × Nat)
  | 0, _, _, _ => none
  | fuel + 1, c, breaks, greatest =>
    let belongs : Bool := indent.all (c.column < ·)
    match c.rest with
    | [] => some (c, breaks.reverse, max greatest c.column)
    | d :: _ =>
      if d = ' ' && belongs then blockBreaks? indent fuel (c.advance 1) breaks greatest
      else if d = '\t' && belongs then none
      else if isBreak d then
        blockBreaks? indent fuel c.newLine (breakText d :: breaks) (max greatest c.column)
      else some (c, breaks.reverse, max greatest c.column)

/-- The lines of a block that have been read. -/
structure BlockText where
  parts : List (List Char)
  /-- The end of the last line, if it has one. -/
  lastBreak : Option Char
  /-- The ends of empty lines after it. -/
  others : List Char
  /-- Whether the last line began with a blank. -/
  beganBlank : Bool

/-- What stands between the last line and the next; a folded block joins lines that do not begin
with blanks. -/
def BlockText.between (b : BlockText) (folded nextBlank : Bool) : List Char :=
  if folded && b.lastBreak = some '\n' && !b.beganBlank && !nextBlank then
    if b.others.isEmpty then [' '] else b.others
  else b.lastBreak.toList ++ b.others

/-- Read the lines of a block at a column. -/
def blockLines? (folded : Bool) (indent : Nat) :
    Nat → Cursor → BlockText → Option (Cursor × BlockText)
  | 0, _, _ => none
  | fuel + 1, c, b =>
    if c.column ≠ indent || c.rest.isEmpty then some (c, b)
    else do
      let startsBlank := c.rest.head?.any isBlank
      let line := c.rest.takeWhile fun d => !isBreak d
      let parts := line :: b.between folded startsBlank :: b.parts
      let c := c.advance line.length
      let lastBreak := c.rest.head?.map breakText
      let c := if c.rest.isEmpty then c else c.newLine
      let (c, others, _) ← blockBreaks? (some indent) (fuel + 1) c [] 0
      blockLines? folded indent fuel c ⟨parts, lastBreak, others, startsBlank⟩

/-- Read a block of lines from its mark on; `parent` is the column after that of the block around
it. -/
def block? (fuel : Nat) (folded : Bool) (parent : Nat) (c : Cursor) :
    Option (Cursor × List Char) := do
  let (chomping, increment, rest) := blockSigns (c.rest.drop 1)
  let c ← (c.advanceTo rest).finishLine?
  -- without a sign the first line that is not empty says how far the block is indented
  let given := increment.map fun n => parent - 1 + n
  let (c, others, greatest) ← blockBreaks? given fuel c [] 0
  let indent := given.getD (max (max greatest parent) 1)
  let (c, b) ← blockLines? folded indent fuel c ⟨[], none, others, false⟩
  let text := joinParts b.parts
  return (c, match chomping with
    | .strip => text
    | .clip => text ++ b.lastBreak.toList
    | .keep => text ++ b.lastBreak.toList ++ b.others)

end Telecontrol.Yaml
