import Telecontrol.Document.Numeral
import Telecontrol.Document.Yaml.Cursor

/-! # Names, tags and directives of YAML

A node may have a name, and a **tag** that says what kind of value it is. A tag is written in full
or with a **handle**, which a directive at the head of the document makes short for something
longer.

Main statement: `Tag.read?_full` (a tag in full is read to its closing bracket). -/

namespace Telecontrol.Yaml

/-- Whether a character may stand in a name. -/
def isNameChar (c : Char) : Bool := c.isAlphanum || c = '_' || c = '-'

/-- Whether what follows a name may follow it. -/
def endsName (cs : List Char) : Bool :=
  endsWord cs || cs.head?.any fun c => ['?', ':', ',', ']', '\x7d', '%', '@', '\x60'].contains c

/-! ## Texts of tags -/

/-- Whether a character may stand in a tag; `wide` admits commas and square brackets as well. -/
def isTagChar (wide : Bool) (c : Char) : Bool :=
  isNameChar c || (wide && [',', '[', ']'].contains c) ||
    [';', '/', '?', ':', '@', '&', '=', '+', '$', '.', '!', '~', '*', '\'', '(', ')'].contains c

/-- Read an octet in hexadecimal digits after a percent sign. -/
def octet? : List Char → Option (Nat × List Char)
  | '%' :: a :: b :: cs => (Numeral.digits? 16 [a, b]).map (·, cs)
  | _ => none

/-- Read the further octets of a character, each of which has six bits of its number. -/
def octetsFrom? : Nat → Nat → List Char → Option (Nat × List Char)
  | 0, number, cs => some (number, cs)
  | count + 1, number, cs =>
    (octet? cs).bind fun (octet, cs) =>
      if octet / 64 = 2 then octetsFrom? count (number * 64 + octet % 64) cs else none

/-- Read a character that is written as the octets of its UTF-8 form. -/
def octetChar? (cs : List Char) : Option (Char × List Char) := do
  let (octet, cs) ← octet? cs
  let (number, cs) ←
    if octet < 0x80 then some (octet, cs)
    else if octet / 32 = 6 then octetsFrom? 1 (octet % 32) cs
    else if octet / 16 = 14 then octetsFrom? 2 (octet % 16) cs
    else if octet / 8 = 30 then octetsFrom? 3 (octet % 8) cs
    else none
  return (Char.ofNat number, cs)

/-- Read the text of a tag. -/
def tagText? (wide : Bool) : Nat → List Char → Option (List Char × List Char)
  | 0, _ => none
  | _ + 1, [] => some ([], [])
  | fuel + 1, c :: cs =>
    if c = '%' then
      (octetChar? (c :: cs)).bind fun (d, cs) =>
        (tagText? wide fuel cs).map fun (text, rest) => (d :: text, rest)
    else if isTagChar wide c then
      (tagText? wide fuel cs).map fun (text, rest) => (c :: text, rest)
    else some ([], c :: cs)

/-- Characters of tags are read up to the first other one. -/
theorem tagText?_append {wide : Bool} {cs rest : List Char} {fuel : Nat}
    (hcs : ∀ c ∈ cs, c ≠ '%' ∧ isTagChar wide c = true)
    (hrest : ∀ c ∈ rest.head?, c ≠ '%' ∧ isTagChar wide c = false) (hfuel : cs.length < fuel) :
    tagText? wide fuel (cs ++ rest) = some (cs, rest) := by
  induction cs generalizing fuel with
  | nil =>
    obtain ⟨fuel, rfl⟩ : ∃ n, fuel = n + 1 := ⟨fuel - 1, by simp at hfuel; omega⟩
    cases rest with
    | nil => rfl
    | cons c rest =>
      obtain ⟨hc, hend⟩ := hrest c rfl
      rw [List.nil_append, tagText?, if_neg hc, hend, if_neg Bool.false_ne_true]
  | cons c cs ih =>
    obtain ⟨fuel, rfl⟩ : ∃ n, fuel = n + 1 := ⟨fuel - 1, by simp at hfuel; omega⟩
    obtain ⟨⟨hc, htag⟩, hcs⟩ := List.forall_mem_cons.mp hcs
    rw [List.cons_append, tagText?, if_neg hc, if_pos htag, ih hcs (Nat.lt_of_succ_lt_succ hfuel)]
    rfl

/-- Read the text of a tag, which must not be empty. -/
def tagPart? (wide : Bool) (cs : List Char) : Option (List Char × List Char) :=
  (tagText? wide (cs.length + 1) cs).filter fun (text, _) => !text.isEmpty

/-- Read a handle: an exclamation mark, a name, and perhaps a second mark. -/
def handle? : List Char → Option (List Char × List Char)
  | '!' :: cs =>
    let name := cs.takeWhile isNameChar
    match cs.dropWhile isNameChar with
    | '!' :: rest => some ('!' :: name ++ ['!'], rest)
    | rest => some ('!' :: name, rest)
  | _ => none

/-- Whether a handle ends with a second mark. -/
def isClosed (handle : List Char) : Bool := 1 < handle.length && handle.getLast? = some '!'

/-! ## Tags -/

/-- A tag as it is written. -/
structure Tag where
  /-- The handle; a tag in full has none. -/
  handle : String
  suffix : String
  deriving DecidableEq, Repr

namespace Tag

/-- What a tag stands for, by the meaning of the handles. -/
def text? (handles : List (String × String)) (tag : Tag) : Option String :=
  if tag.handle.isEmpty then some tag.suffix
  else (handles.lookup tag.handle).map (· ++ tag.suffix)

/-- The handles that need no directive. -/
def handles : List (String × String) := [("!", "!"), ("!!", "tag:yaml.org,2002:")]

/-- Read a tag. A single mark is a tag in full. -/
def read? : List Char → Option (Tag × List Char)
  | '!' :: '<' :: cs =>
    match tagPart? true cs with
    | some (text, '>' :: rest) => some (⟨"", String.ofList text⟩, rest)
    | _ => none
  | cs => do
    let (handle, rest) ← handle? cs
    if isClosed handle then
      let (text, rest) ← tagPart? false rest
      return (⟨String.ofList handle, String.ofList text⟩, rest)
    else
      let (text, rest) ← tagText? false (rest.length + 1) rest
      let suffix := String.ofList (handle.drop 1 ++ text)
      return (if suffix.isEmpty then ⟨"", "!"⟩ else ⟨"!", suffix⟩, rest)

/-- A tag in full is read to its closing bracket, and stands for what is in the brackets whatever
the handles mean. -/
theorem read?_full {cs rest : List Char} (hne : cs ≠ [])
    (hcs : ∀ c ∈ cs, c ≠ '%' ∧ isTagChar true c = true) :
    ∃ tag, read? ('!' :: '<' :: (cs ++ '>' :: rest)) = some (tag, rest) ∧
      ∀ handles, tag.text? handles = some (String.ofList cs) := by
  have htext : tagPart? true (cs ++ '>' :: rest) = some (cs, '>' :: rest) := by
    have hend : ∀ c ∈ ('>' :: rest).head?, c ≠ '%' ∧ isTagChar true c = false := fun c hc => by
      obtain rfl := Option.some.inj hc
      decide
    have hfull : (!cs.isEmpty) = true := Bool.not_eq_true' _ ▸ List.isEmpty_eq_false_iff.mpr hne
    have hfuel : cs.length < (cs ++ '>' :: rest).length + 1 := by
      rw [List.length_append]
      exact Nat.lt_succ_of_le (Nat.le_add_right _ _)
    rw [tagPart?, tagText?_append hcs hend hfuel, Option.filter_some]
    exact if_pos hfull
  refine ⟨⟨"", String.ofList cs⟩, ?_, fun _ => rfl⟩
  rw [read?, htext]
  rfl

end Tag

/-! ## Directives -/

/-- A line at the head of a document. -/
inductive Directive where
  /-- The version of YAML. -/
  | version (major minor : Nat)
  /-- What a handle stands for. -/
  | handle (short long : String)
  deriving DecidableEq, Repr

namespace Directive

/-- Read a part of a version, which has nine digits at most. -/
def number? (cs : List Char) : Option (Nat × List Char) :=
  let digits := cs.takeWhile Char.isDigit
  if digits.length ≤ 9 then (Numeral.digits? 10 digits).map (·, cs.dropWhile Char.isDigit)
  else none

/-- Read a directive after the percent sign. -/
def read? (cs : List Char) : Option (Directive × List Char) :=
  let rest := cs.dropWhile isNameChar
  let arguments := rest.dropWhile isBlank
  if !endsWord rest then none
  else if cs.takeWhile isNameChar = "YAML".toList then
    match number? arguments with
    | some (major, '.' :: rest) =>
      (number? rest).map fun (minor, rest) => (.version major minor, rest)
    | _ => none
  else if cs.takeWhile isNameChar = "TAG".toList then do
    let (short, rest) ← handle? arguments
    if (short.length = 1 || isClosed short) && rest.head?.any isBlank then
      let (long, rest) ← tagPart? true (rest.dropWhile isBlank)
      if endsWord rest then some (.handle (String.ofList short) (String.ofList long), rest)
      else none
    else none
  else none

end Directive

end Telecontrol.Yaml
