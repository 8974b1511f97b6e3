import Telecontrol.Document.Basic
import Telecontrol.Document.Escape
import Telecontrol.Text.Blank

/-! # Values of environment variables

An environment variable holds a text, which is read as a document when it has the form of one: a
number, a boolean, a character or a text in quotes, a list in square brackets or a map of
`key=value` pairs in braces. Any other text stands for itself.

The name of a variable is a path: letters of either case are the same, and two underscores divide
it.

Main statement: `Variable.proper_document` (what the variables write is proper). -/

namespace Telecontrol.Variable

/-! ## Values -/

/-- Whether a character is a blank between two values. Around a scalar without quotes any blank is
dropped. -/
def isBlank (c : Char) : Bool :=
  c = ' ' || c = '\t' || c = '\n' || c = '\r' || c = '\x0c'

/-- Whether a character ends a scalar without quotes. -/
def isSeparator (c : Char) : Bool := [',', '\x7b', '\x7d', '[', ']'].contains c

/-- Whether a character may stand in a key without quotes. -/
def isKeyChar (c : Char) : Bool := c.isAlphanum || c = '_' || c = '-'

/-- Drop blanks at the beginning. -/
def skip (cs : List Char) : List Char := cs.dropWhile isBlank

/-- The escapes between double quotes. -/
def escapes : EscapeRule where
  short
    | '"' => some '"'
    | '\\' => some '\\'
    | 'b' => some '\x08'
    | 'f' => some '\x0c'
    | 'n' => some '\n'
    | 'r' => some '\r'
    | 't' => some '\t'
    | _ => none
  digits
    | 'u' => some 4
    | 'U' => some 8
    | _ => none
  pairs := false
  admits c := c = '\t' || (0x20 ≤ c.toNat && c.toNat ≠ 0x7f)

/-- A whole number of 64 bits, with a sign or without. -/
def whole? (cs : List Char) : Option Int :=
  (Numeral.signed? 10 cs).filter fun n => -0x8000000000000000 ≤ n && n < 0x10000000000000000

/-- Whether a scalar is a number, but no whole one. Only a point makes it one. -/
def isFractional (cs : List Char) : Bool := cs.contains '.' && (Numeral.read? cs).isSome

/-- The document of a scalar without quotes. -/
def plain (cs : List Char) : Document :=
  match whole? cs with
  | some n => .whole n
  | none => if isFractional cs then .fractional else .text (String.ofList cs)

/-- Read a key and the equals sign after it. -/
def key? (cs : List Char) : Option (String × List Char) := do
  let (key, rest) ← match skip cs with
    | '"' :: cs => escapes.quoted? cs
    | cs =>
      let key := cs.takeWhile isKeyChar
      if key.isEmpty then none else some (String.ofList key, cs.dropWhile isKeyChar)
  match skip rest with
  | '=' :: rest => some (key, rest)
  | _ => none

mutual

/-- Read a value and the blanks around it. -/
def read? (fuel : Nat) (cs : List Char) : Option (Document × List Char) :=
  match fuel with
  | 0 => none
  | fuel + 1 =>
    let found : Option (Document × List Char) := match skip cs with
      | 't' :: 'r' :: 'u' :: 'e' :: rest => some (.bool true, rest)
      | 'f' :: 'a' :: 'l' :: 's' :: 'e' :: rest => some (.bool false, rest)
      | '[' :: rest => items? fuel [] rest
      | '\x7b' :: rest => fields? fuel [] rest
      | '"' :: rest => (escapes.quoted? rest).map fun (text, rest) => (.text text, rest)
      | '\'' :: c :: '\'' :: rest => some (.text c.toString, rest)
      | '\'' :: _ => none
      -- anything else goes up to the next mark of a list or a map, and may be empty
      | cs =>
        some (plain (Blank.trim (cs.takeWhile fun c => !isSeparator c)),
          cs.dropWhile fun c => !isSeparator c)
    found.map fun (d, rest) => (d, skip rest)

/-- Read the items of a list and its closing bracket. -/
def items? (fuel : Nat) (items : List Document) (cs : List Char) : Option (Document × List Char) :=
  match fuel with
  | 0 => none
  | fuel + 1 =>
    match cs with
    | ']' :: rest => some (.list items.reverse, rest)
    | cs =>
      match read? fuel cs with
      | some (d, ',' :: rest) => items? fuel (d :: items) rest
      | some (d, ']' :: rest) => some (.list (d :: items).reverse, rest)
      | _ => none

/-- Read the entries of a map and its closing brace. -/
def fields? (fuel : Nat) (fields : Document.Fields) (cs : List Char) :
    Option (Document × List Char) :=
  match fuel with
  | 0 => none
  | fuel + 1 =>
    match cs with
    | '\x7d' :: rest => some (.map fields, rest)
    | cs =>
      match key? cs with
      | none => none
      | some (key, cs) =>
        match read? fuel cs with
        | some (d, ',' :: rest) => fields? fuel (Document.put key d fields) rest
        | some (d, '\x7d' :: rest) => some (.map (Document.put key d fields), rest)
        | _ => none

end

/-- A scalar without quotes is proper. -/
theorem proper_plain (cs : List Char) : (plain cs).Proper := by
  rw [plain]
  split
  · exact .whole _
  · split
    · exact .fractional
    · exact .text _

mutual

/-- Every value is proper. -/
theorem proper_read? {fuel : Nat} {cs rest : List Char} {d : Document}
    (h : read? fuel cs = some (d, rest)) : d.Proper := by
  match fuel with
  | 0 => rw [read?] at h; cases h
  | fuel + 1 =>
    rw [read?.eq_def] at h
    obtain ⟨⟨d', rest'⟩, hfound, h⟩ := Option.map_eq_some_iff.mp h
    obtain ⟨rfl, -⟩ := Prod.mk.inj h
    split at hfound
    · exact (Prod.mk.inj (Option.some.inj hfound)).1 ▸ .bool true
    · exact (Prod.mk.inj (Option.some.inj hfound)).1 ▸ .bool false
    · exact proper_items? (fun _ hd => absurd hd List.not_mem_nil) hfound
    · exact proper_fields? Document.properFields_nil hfound
    · obtain ⟨⟨text, _⟩, -, h⟩ := Option.map_eq_some_iff.mp hfound
      exact (Prod.mk.inj h).1 ▸ .text text
    · exact (Prod.mk.inj (Option.some.inj hfound)).1 ▸ .text _
    · cases hfound
    · exact (Prod.mk.inj (Option.some.inj hfound)).1 ▸ proper_plain _

/-- So is a list of proper items. -/
theorem proper_items? {fuel : Nat} {items : List Document} {cs rest : List Char} {d : Document}
    (hitems : ∀ d ∈ items, d.Proper) (h : items? fuel items cs = some (d, rest)) : d.Proper := by
  match fuel with
  | 0 => rw [items?] at h; cases h
  | fuel + 1 =>
    have hlist {items : List Document} (hitems : ∀ d ∈ items, d.Proper) :
        (Document.list items.reverse).Proper :=
      .list fun d hd => hitems d (List.mem_reverse.mp hd)
    rw [items?.eq_def] at h
    dsimp only at h
    split at h
    · exact (Prod.mk.inj (Option.some.inj h)).1 ▸ hlist hitems
    · split at h
      · rename_i hread
        exact proper_items? (List.forall_mem_cons.mpr ⟨proper_read? hread, hitems⟩) h
      · rename_i hread
        exact (Prod.mk.inj (Option.some.inj h)).1 ▸
          hlist (List.forall_mem_cons.mpr ⟨proper_read? hread, hitems⟩)
      · cases h

/-- So is a map of proper entries. -/
theorem proper_fields? {fuel : Nat} {fields : Document.Fields} {cs rest : List Char}
    {d : Document} (hfields : Document.ProperFields fields)
    (h : fields? fuel fields cs = some (d, rest)) : d.Proper := by
  match fuel with
  | 0 => rw [fields?] at h; cases h
  | fuel + 1 =>
    rw [fields?.eq_def] at h
    dsimp only at h
    split at h
    · exact (Prod.mk.inj (Option.some.inj h)).1 ▸ hfields.proper
    · split at h
      · cases h
      · split at h
        · rename_i hread
          exact proper_fields? (hfields.put (proper_read? hread) _) h
        · rename_i hread
          exact (Prod.mk.inj (Option.some.inj h)).1 ▸
            (hfields.put (proper_read? hread) _).proper
        · cases h

end

/-- The document of a text that has the form of one. Every step but the first reads a bracket or a
comma, so there are at most two steps for each character. -/
def document? (text : String) : Option Document :=
  match read? (2 * text.length + 1) text.toList with
  | some (d, []) => some d
  | _ => none

/-- The document of a variable. -/
def value (text : String) : Document := (document? text).getD (.text text)

/-- The document of a variable is proper. -/
theorem proper_value (text : String) : (value text).Proper := by
  rw [value, document?]
  split
  · rename_i hread
    exact proper_read? hread
  · exact .text text

/-! ## Names -/

/-- The path of a name with a leading word, if the name has it. No part of a path is empty. Blanks
around the name and around the path do not count. -/
def path? (leading name : String) : Option (List String) :=
  let name := (Blank.trim name.toList).map Char.toLower
  let leading := leading.toList.map Char.toLower
  if leading.isPrefixOf name then
    -- a dot divides a name as two underscores do
    let rest := (String.ofList (name.drop leading.length)).replace "__" "."
    let path := (String.ofList (Blank.trim rest.toList)).splitOn "."
    if path.contains "" then none else some path
  else none

/-- The document that environment variables write: each one sets the value at its path. -/
def document (leading : String) (environment : List (String × String)) : Document :=
  environment.foldl (fun d (name, text) =>
    match path? leading name with
    | some path => d.overlay (Document.nest path (value text))
    | none => d) (.map [])

/-- What the variables write is proper. -/
theorem proper_document (leading : String) (environment : List (String × String)) :
    (document leading environment).Proper := by
  have hfrom (d : Document) (hd : d.Proper) : (environment.foldl (fun d (name, text) =>
      match path? leading name with
      | some path => d.overlay (Document.nest path (value text))
      | none => d) d).Proper := by
    induction environment generalizing d with
    | nil => exact hd
    | cons e environment ih =>
      obtain ⟨name, text⟩ := e
      refine ih _ ?_
      dsimp only
      split
      · exact hd.overlay ((proper_value text).nest _)
      · exact hd
  exact hfrom _ Document.properFields_nil.proper

end Telecontrol.Variable
