import Telecontrol.Document.Toml.Value

/-! # TOML documents

A TOML document is a sequence of statements, each on lines of its own: a header names a table, and
the statements after it write its keys. A header in double brackets begins another table of a list.

Main statement: `Toml.read?_proper` (what is read is proper). -/

namespace Telecontrol.Toml

/-- A statement of a document. -/
inductive Statement where
  /-- The header of a table. -/
  | table (path : List String) (key : String)
  /-- The header of a further table in a list. -/
  | item (path : List String) (key : String)
  | assign (path : List String) (key : String) (value : Document)

/-- Read a statement up to the end of its line. -/
def statement? (cs : List Char) : Option (Statement × List Char) :=
  match cs with
  | '[' :: '[' :: cs =>
    match path? cs with
    | some (path, key, ']' :: ']' :: rest) => (lineEnd? rest).map (.item path key, ·)
    | _ => none
  | '[' :: cs =>
    match path? cs with
    | some (path, key, ']' :: rest) => (lineEnd? rest).map (.table path key, ·)
    | _ => none
  | cs =>
    match path? cs with
    | some (path, key, '=' :: rest) => do
      let (d, rest) ← value? (rest.length + 1) 0 (skip rest)
      return (.assign path key d, ← lineEnd? rest)
    | _ => none

/-- A document that is being read. -/
structure Reader where
  root : Node.Fields
  /-- The table whose keys are being written. -/
  table : List String

/-- Take a statement. -/
def step? (r : Reader) : Statement → Option Reader
  | .table path key => do
    let root ← Node.update? false (fun _ => Node.openTable? key) path .header r.root
    return ⟨root, path ++ [key]⟩
  | .item path key => do
    let root ← Node.update? false (fun _ => Node.openItem? key) path .header r.root
    return ⟨root, path ++ [key]⟩
  | .assign path key d => do
    let root ← Node.update? false (fun _ => Node.assignAt? path key d) r.table .header r.root
    return { r with root }

/-- Read the statements of a text. Every step reads at least one character. -/
def readFrom? : Nat → Reader → List Char → Option Reader
  | 0, _, _ => none
  | fuel + 1, r, cs =>
    match skip cs with
    | [] => some r
    | c :: cs =>
      if c = '\n' then readFrom? fuel r cs
      else if c = '#' then (lineEnd? (c :: cs)).bind (readFrom? fuel r)
      else do
        let (statement, rest) ← statement? (c :: cs)
        readFrom? fuel (← step? r statement) rest

/-- Read a TOML document. -/
def read? (text : String) : Option Document := do
  let cs := unifyEnds text.toList
  -- a mark of the order of octets may come first
  let cs := if cs.head? = some '\ufeff' then cs.drop 1 else cs
  let r ← readFrom? (cs.length + 1) ⟨[], []⟩ cs
  return .map (Node.documents r.root)

/-! ## What is read is proper -/

/-- The value of a statement is proper. -/
theorem proper_statement? {cs rest : List Char} {path : List String} {key : String} {d : Document}
    (h : statement? cs = some (.assign path key d, rest)) : d.Proper := by
  rw [statement?.eq_def] at h
  dsimp only at h
  split at h
  · split at h
    · obtain ⟨_, -, h⟩ := Option.map_eq_some_iff.mp h
      cases h
    · cases h
  · split at h
    · obtain ⟨_, -, h⟩ := Option.map_eq_some_iff.mp h
      cases h
    · cases h
  · split at h
    · obtain ⟨⟨d', rest'⟩, hvalue, h⟩ := Option.bind_eq_some_iff.mp h
      obtain ⟨_, -, h⟩ := Option.bind_eq_some_iff.mp h
      cases h
      exact proper_value? hvalue
    · cases h

/-- A statement leaves the tree proper. -/
theorem proper_step? {r r' : Reader} {x : Statement}
    (hx : ∀ path key d, x = .assign path key d → d.Proper) (h : step? r x = some r')
    (hr : Node.ProperFields r.root) : Node.ProperFields r'.root := by
  cases x with
  | table path key =>
    obtain ⟨root, hroot, h⟩ := Option.bind_eq_some_iff.mp h
    obtain rfl := Option.some.inj h
    exact Node.proper_update? (fun _ _ _ hf h => Node.proper_openTable? h hf) hroot hr
  | item path key =>
    obtain ⟨root, hroot, h⟩ := Option.bind_eq_some_iff.mp h
    obtain rfl := Option.some.inj h
    exact Node.proper_update? (fun _ _ _ hf h => Node.proper_openItem? h hf) hroot hr
  | assign path key d =>
    obtain ⟨root, hroot, h⟩ := Option.bind_eq_some_iff.mp h
    obtain rfl := Option.some.inj h
    exact Node.proper_update? (fun _ _ _ hf h => Node.proper_assignAt? (hx _ _ _ rfl) h hf) hroot hr

/-- So do all the statements of a text. -/
theorem proper_readFrom? {fuel : Nat} {r r' : Reader} {cs : List Char}
    (h : readFrom? fuel r cs = some r') (hr : Node.ProperFields r.root) :
    Node.ProperFields r'.root := by
  induction fuel generalizing r cs with
  | zero => cases h
  | succ fuel ih =>
    rw [readFrom?] at h
    split at h
    · exact Option.some.inj h ▸ hr
    split at h
    · exact ih h hr
    split at h
    · obtain ⟨_, -, h⟩ := Option.bind_eq_some_iff.mp h
      exact ih h hr
    · obtain ⟨⟨x, rest⟩, hx, h⟩ := Option.bind_eq_some_iff.mp h
      obtain ⟨next, hnext, h⟩ := Option.bind_eq_some_iff.mp h
      exact ih h (proper_step? (fun _ _ _ e => proper_statement? (e ▸ hx)) hnext hr)

/-- What is read is proper: no key comes twice in any of its tables. -/
theorem read?_proper {text : String} {d : Document} (h : read? text = some d) : d.Proper := by
  obtain ⟨r, hr, h⟩ := Option.bind_eq_some_iff.mp h
  have hroot : Node.ProperFields r.root := proper_readFrom? hr Node.properFields_nil
  exact Option.some.inj h ▸ hroot.proper

end Telecontrol.Toml
