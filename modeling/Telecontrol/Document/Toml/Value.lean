import Telecontrol.Document.Toml.Scalar
import Telecontrol.Document.Toml.Table

/-! # Keys and values of TOML

A key is a path of names with dots between them. A value is a scalar, a list in square brackets,
which may go on over several lines, or a table in braces on one line.

Main statements: `Toml.path?_length` (no path is longer than the limit) and `Toml.proper_value?`
(every value is a proper document). -/

namespace Telecontrol.Toml

/-- How many names a path may have, and how many lists and tables may be open at a time. -/
def maxDepth : Nat := 79

/-! ## Keys -/

/-- Whether a character may stand in a name without quotes. -/
def isKeyChar (c : Char) : Bool := c.isAlphanum || c = '_' || c = '-'

/-- Read a name. -/
def name? (cs : List Char) : Option (String × List Char) :=
  match cs with
  | '"' :: cs => escapes.quoted? cs
  | '\'' :: cs => literal? cs
  | cs =>
    let name := cs.takeWhile isKeyChar
    if name.isEmpty then none else some (String.ofList name, cs.dropWhile isKeyChar)

/-- Read the names of a path; blanks around them do not count. Every name but the first follows a
dot, so a path has fewer names than characters. -/
def names? : Nat → List Char → Option (List String × List Char)
  | 0, _ => none
  | fuel + 1, cs => do
    let (name, rest) ← name? (skip cs)
    match skip rest with
    | '.' :: rest =>
      let (names, rest) ← names? fuel rest
      return (name :: names, rest)
    | rest => return ([name], rest)

/-- Read a path: the names before the last one, and the last one. -/
def path? (cs : List Char) : Option (List String × String × List Char) := do
  let (names, rest) ← names? (cs.length + 1) cs
  let last ← names.getLast?
  if names.length ≤ maxDepth then some (names.dropLast, last, rest) else none

/-- A path is no longer than the limit. -/
theorem path?_length {cs rest : List Char} {before : List String} {last : String}
    (h : path? cs = some (before, last, rest)) : before.length < maxDepth := by
  simp only [path?, Option.bind_eq_bind, Option.bind_eq_some_iff] at h
  obtain ⟨⟨names, r⟩, _, l, hl, h⟩ := h
  split at h
  · rename_i hle
    cases h
    have : names ≠ [] := fun e => by simp [e] at hl
    have := List.length_pos_iff.mpr this
    simp only [List.length_dropLast] at *
    omega
  · cases h

/-! ## Values -/

mutual

/-- Read a value, where `depth` lists and tables are open. -/
def value? (fuel depth : Nat) (cs : List Char) : Option (Document × List Char) :=
  match fuel with
  | 0 => none
  | fuel + 1 =>
    match cs with
    | '[' :: rest =>
      if depth < maxDepth then items? fuel (depth + 1) [] (skipLines false rest) else none
    | '\x7b' :: rest =>
      if depth < maxDepth then
        match skip rest with
        | '\x7d' :: rest => some (.map [], rest)
        | rest => fields? fuel (depth + 1) [] rest
      else none
    | cs => scalar? cs

/-- Read the items of a list and its closing bracket. A comma may follow the last item. -/
def items? (fuel depth : Nat) (items : List Document) (cs : List Char) :
    Option (Document × List Char) :=
  match fuel with
  | 0 => none
  | fuel + 1 =>
    match cs with
    | ']' :: rest => some (.list items.reverse, rest)
    | cs =>
      match value? fuel depth cs with
      | none => none
      | some (d, rest) =>
        match skipLines false rest with
        | ',' :: rest => items? fuel depth (d :: items) (skipLines false rest)
        | ']' :: rest => some (.list (d :: items).reverse, rest)
        | _ => none

/-- Read the entries of a table in braces and its closing brace. -/
def fields? (fuel depth : Nat) (fields : Node.Fields) (cs : List Char) :
    Option (Document × List Char) :=
  match fuel with
  | 0 => none
  | fuel + 1 =>
    match path? cs with
    | some (path, key, '=' :: rest) =>
      match value? fuel depth (skip rest) with
      | none => none
      | some (d, rest) =>
        match Node.assignAt? path key d fields, skip rest with
        | some fields, ',' :: rest => fields? fuel depth fields rest
        | some fields, '\x7d' :: rest => some (.map (Node.documents fields), rest)
        | _, _ => none
    | _ => none

end

/-! ## Values are proper -/

mutual

/-- Every value is proper. -/
theorem proper_value? {fuel depth : Nat} {cs rest : List Char} {d : Document}
    (h : value? fuel depth cs = some (d, rest)) : d.Proper := by
  match fuel with
  | 0 => rw [value?] at h; cases h
  | fuel + 1 =>
    rw [value?.eq_def] at h
    dsimp only at h
    split at h
    · split at h
      · exact proper_items? (fun _ hd => absurd hd List.not_mem_nil) h
      · cases h
    · split at h
      · split at h
        · exact (Prod.mk.inj (Option.some.inj h)).1 ▸ Document.properFields_nil.proper
        · exact proper_fields? Node.properFields_nil h
      · cases h
    · exact proper_scalar? h

/-- So is a list of proper items. -/
theorem proper_items? {fuel depth : Nat} {items : List Document} {cs rest : List Char}
    {d : Document} (hitems : ∀ d ∈ items, d.Proper)
    (h : items? fuel depth items cs = some (d, rest)) : d.Proper := by
  match fuel with
  | 0 => rw [items?] at h; cases h
  | fuel + 1 =>
    rw [items?.eq_def] at h
    dsimp only at h
    split at h
    · -- the closing bracket
      exact (Prod.mk.inj (Option.some.inj h)).1 ▸
        .list fun d hd => hitems d (List.mem_reverse.mp hd)
    · split at h
      · cases h
      · rename_i d' rest' hvalue
        have hmore : ∀ d ∈ d' :: items, d.Proper :=
          List.forall_mem_cons.mpr ⟨proper_value? hvalue, hitems⟩
        split at h
        · -- a comma, so that more items may follow
          exact proper_items? hmore h
        · exact (Prod.mk.inj (Option.some.inj h)).1 ▸
            .list fun d hd => hmore d (List.mem_reverse.mp hd)
        · cases h

/-- So is a table in braces with proper entries. -/
theorem proper_fields? {fuel depth : Nat} {fields : Node.Fields} {cs rest : List Char}
    {d : Document} (hfields : Node.ProperFields fields)
    (h : fields? fuel depth fields cs = some (d, rest)) : d.Proper := by
  match fuel with
  | 0 => rw [fields?] at h; cases h
  | fuel + 1 =>
    rw [fields?.eq_def] at h
    dsimp only at h
    split at h
    · split at h
      · cases h
      · rename_i d' rest' hvalue
        have hd : d'.Proper := proper_value? hvalue
        split at h
        · rename_i hassign _
          exact proper_fields? (Node.proper_assignAt? hd hassign hfields) h
        · rename_i hassign _
          exact (Prod.mk.inj (Option.some.inj h)).1 ▸
            (Node.proper_assignAt? hd hassign hfields).proper
        · cases h
    · cases h

end

end Telecontrol.Toml
