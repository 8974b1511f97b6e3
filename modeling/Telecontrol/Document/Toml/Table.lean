import Telecontrol.Document.Basic

/-! # Tables of TOML

The tree that the headers and the keys of a TOML document build. Nothing is written twice: a table
has one header, a key one value, and what was made by keys with dots gets no header any more.

Main statements: `Node.lookup_of_assign?` (a value is written where there is none),
`Node.lookup_of_openTable?` (a table has one header) and `Node.proper_update?` (the documents of a
tree stay proper). -/

namespace Telecontrol.Toml

/-- How a table came to be. -/
inductive Origin where
  /-- By a header, or as a value in braces. -/
  | header
  /-- On the way of a header to another table. -/
  | passed
  /-- On the way of a key with dots. -/
  | dotted
  deriving DecidableEq, Repr

/-- A place in the tree. -/
inductive Node where
  /-- A value, which nothing is added to. -/
  | value (document : Document)
  | table (origin : Origin) (fields : List (String × Node))
  /-- A list of tables with headers of their own, the latest first. -/
  | tables (items : List (List (String × Node)))

namespace Node

instance : Inhabited Node := ⟨.value .null⟩

/-- The fields of a table. -/
abbrev Fields := List (String × Node)

/-- What stands under a key. -/
def lookup (key : String) : Fields → Option Node
  | [] => none
  | (k, n) :: rest => if key = k then some n else lookup key rest

/-- Write what stands under a key. -/
def put (key : String) (n : Node) : Fields → Fields
  | [] => [(key, n)]
  | (k, m) :: rest => if key = k then (k, n) :: rest else (k, m) :: put key n rest

/-- What stands under a key is what was written last, and the other keys keep theirs. -/
theorem lookup_put (k key : String) (n : Node) (fields : Fields) :
    lookup k (put key n fields) = if k = key then some n else lookup k fields := by
  induction fields with
  | nil => rfl
  | cons e rest ih =>
    obtain ⟨k', m⟩ := e
    unfold put
    by_cases h : key = k'
    · subst h
      by_cases hk : k = key <;> simp [lookup, hk]
    · by_cases hk : k = k'
      · subst hk
        simp [lookup, h, Ne.symm h]
      · simp [lookup, h, hk, ih]

/-- Change the table at the end of a path. Tables on the way are made when they are missing, and a
list is entered at its latest item. The path of a key with dots enters no table that has a header.
-/
def update? (dotted : Bool) (f : Origin → Fields → Option Fields) :
    List String → Origin → Fields → Option Fields
  | [], origin, fields => f origin fields
  | key :: path, _, fields => do
    let child ← match lookup key fields with
      | none =>
        let origin : Origin := if dotted then .dotted else .passed
        (update? dotted f path origin []).map (.table origin)
      | some (.table origin inner) =>
        if dotted && origin = .header then none
        else (update? dotted f path origin inner).map (.table origin)
      | some (.tables (latest :: earlier)) =>
        (update? dotted f path .header latest).map fun fields => .tables (fields :: earlier)
      | some _ => none
    return put key child fields

/-- Write a value under a key. -/
def assign? (key : String) (d : Document) (fields : Fields) : Option Fields :=
  if (lookup key fields).isSome then none else some (put key (.value d) fields)

/-- A value is written where there is none, and every other key keeps what it has. -/
theorem lookup_of_assign? {key : String} {d : Document} {fields fields' : Fields}
    (h : assign? key d fields = some fields') : lookup key fields = none ∧
      ∀ k, lookup k fields' = if k = key then some (.value d) else lookup k fields := by
  rw [assign?] at h
  split at h
  · cases h
  · rename_i hnone
    obtain rfl := Option.some.inj h
    exact ⟨Option.not_isSome_iff_eq_none.mp hnone, fun k => lookup_put k key _ fields⟩

/-- Write a value under a path of keys, the last of which is `key`. -/
def assignAt? (path : List String) (key : String) (d : Document) (fields : Fields) :
    Option Fields :=
  update? true (fun origin inner =>
    -- a table with a header, or on the way to one, is written there and not from afar
    if path.isEmpty || origin = .dotted then assign? key d inner else none) path .header fields

/-- A table at its header: it is new, or was made on the way to another. -/
def openTable? (key : String) (fields : Fields) : Option Fields :=
  match lookup key fields with
  | none => some (put key (.table .header []) fields)
  | some (.table .passed inner) => some (put key (.table .header inner) fields)
  | some _ => none

/-- The header of a table comes once: before it there was nothing, or a table that was only passed,
whose fields stay. Every other key keeps what it has. -/
theorem lookup_of_openTable? {key : String} {fields fields' : Fields}
    (h : openTable? key fields = some fields') : ∃ inner,
      (lookup key fields = none ∧ inner = [] ∨ lookup key fields = some (.table .passed inner)) ∧
      ∀ k, lookup k fields' = if k = key then some (.table .header inner) else lookup k fields := by
  rw [openTable?] at h
  split at h
  · rename_i hnone
    obtain rfl := Option.some.inj h
    exact ⟨[], .inl ⟨hnone, rfl⟩, fun k => lookup_put k key _ fields⟩
  · rename_i inner hpassed
    obtain rfl := Option.some.inj h
    exact ⟨inner, .inr hpassed, fun k => lookup_put k key _ fields⟩
  · cases h

/-- A list of tables at the header of a further one. -/
def openItem? (key : String) (fields : Fields) : Option Fields :=
  match lookup key fields with
  | none => some (put key (.tables [[]]) fields)
  | some (.tables items) => some (put key (.tables ([] :: items)) fields)
  | some _ => none

mutual

/-- The document that a place stands for. -/
def document : Node → Document
  | .value d => d
  | .table _ fields => .map (documents fields)
  | .tables items => .list (itemDocuments [] items)

/-- The documents of fields. -/
def documents : Fields → Document.Fields
  | [] => []
  | (key, n) :: rest => (key, document n) :: documents rest

/-- The documents of the tables of a list, the latest first, before those of `later` ones. -/
def itemDocuments (later : List Document) : List Fields → List Document
  | [] => later
  | fields :: earlier => itemDocuments (.map (documents fields) :: later) earlier

end

/-! ## The documents of a tree are proper -/

variable {key : String} {fields fields' : Fields}

/-- What stands under a key of a tree stands under it in its documents. -/
theorem lookup_documents (key : String) (fields : Fields) :
    Document.lookup key (documents fields) = (lookup key fields).map document := by
  induction fields with
  | nil => rfl
  | cons f rest ih =>
    obtain ⟨k, n⟩ := f
    rw [documents, Document.lookup, lookup]
    split
    · rfl
    · exact ih

/-- What is written under a key of a tree is written under it in its documents. -/
theorem documents_put (key : String) (n : Node) (fields : Fields) :
    documents (put key n fields) = Document.put key (document n) (documents fields) := by
  induction fields with
  | nil => rfl
  | cons f rest ih =>
    obtain ⟨k, m⟩ := f
    rw [put, documents, Document.put]
    split
    · rfl
    · rw [documents, ih]

/-- The documents of the tables of a list, in the order of their headers. -/
theorem itemDocuments_eq (later : List Document) (items : List Fields) :
    itemDocuments later items = (items.map fun f => .map (documents f)).reverse ++ later := by
  induction items generalizing later with
  | nil => rfl
  | cons f items ih =>
    rw [itemDocuments, ih, List.map_cons, List.reverse_cons, List.append_assoc]
    rfl

/-- Fields are **proper** when their documents are. -/
def ProperFields (fields : Fields) : Prop := Document.ProperFields (documents fields)

/-- No fields are proper. -/
theorem properFields_nil : ProperFields [] := Document.properFields_nil

/-- A list of tables is proper exactly when each of them is. -/
theorem proper_tables {items : List Fields} :
    (document (.tables items)).Proper ↔ ∀ f ∈ items, ProperFields f := by
  have hdocument : document (.tables items) =
      .list (items.map fun f => .map (documents f)).reverse := by
    rw [document, itemDocuments_eq, List.append_nil]
  rw [hdocument]
  refine ⟨fun h f hf => ?_, fun h => .list fun d hd => ?_⟩
  · cases h with
    | list h => exact (h _ (List.mem_reverse.mpr (List.mem_map_of_mem hf))).fields
  · obtain ⟨f, hf, rfl⟩ := List.mem_map.mp (List.mem_reverse.mp hd)
    exact (h f hf).proper

/-- What is proper may be written under any key. -/
theorem ProperFields.put (h : ProperFields fields) {n : Node} (hn : (document n).Proper)
    (key : String) : ProperFields (put key n fields) := by
  rw [ProperFields, documents_put]
  exact Document.ProperFields.put h hn key

/-- What stands under a key of proper fields is proper. -/
theorem ProperFields.lookup (h : ProperFields fields) {n : Node}
    (hn : lookup key fields = some n) : (document n).Proper :=
  have hlookup : Document.lookup key (documents fields) = some (document n) := by
    rw [lookup_documents, hn]
    rfl
  Document.ProperFields.lookup h hlookup

/-- A table of proper fields is proper. -/
theorem ProperFields.table (h : ProperFields fields) (origin : Origin) :
    (document (.table origin fields)).Proper := h.proper

/-- The fields of a proper table are proper. -/
theorem ProperFields.of_table {origin : Origin} (h : (document (.table origin fields)).Proper) :
    ProperFields fields := h.fields

/-- A change that leaves proper fields proper does so at the end of any path. -/
theorem proper_update? {dotted : Bool} {f : Origin → Fields → Option Fields}
    (hf : ∀ origin fields fields', ProperFields fields → f origin fields = some fields' →
      ProperFields fields') {path : List String} {origin : Origin}
    (h : update? dotted f path origin fields = some fields') (hfields : ProperFields fields) :
    ProperFields fields' := by
  induction path generalizing origin fields fields' with
  | nil => exact hf _ _ _ hfields h
  | cons key path ih =>
    have hput {child : Node} (hchild : (document child).Proper)
        (h : some (Node.put key child fields) = some fields') : ProperFields fields' :=
      Option.some.inj h ▸ hfields.put hchild key
    rw [update?] at h
    split at h
    · -- the key is new: a table is made for the rest of the path
      obtain ⟨child, hchild, h⟩ := Option.bind_eq_some_iff.mp h
      obtain ⟨inner, hinner, rfl⟩ := Option.map_eq_some_iff.mp hchild
      exact hput ((ih hinner properFields_nil).table _) h
    · rename_i hlookup
      -- it holds a table
      split at h
      · cases h
      · obtain ⟨child, hchild, h⟩ := Option.bind_eq_some_iff.mp h
        obtain ⟨inner, hinner, rfl⟩ := Option.map_eq_some_iff.mp hchild
        exact hput ((ih hinner (.of_table (hfields.lookup hlookup))).table _) h
    · rename_i latest earlier hlookup
      -- it holds a list of tables: the path goes on in the latest one
      obtain ⟨child, hchild, h⟩ := Option.bind_eq_some_iff.mp h
      obtain ⟨inner, hinner, rfl⟩ := Option.map_eq_some_iff.mp hchild
      have hitems := List.forall_mem_cons.mp (proper_tables.mp (hfields.lookup hlookup))
      exact hput (proper_tables.mpr (List.forall_mem_cons.mpr ⟨ih hinner hitems.1, hitems.2⟩)) h
    · cases h

/-- A proper value is written under a key. -/
theorem proper_assign? {d : Document} (hd : d.Proper) (h : assign? key d fields = some fields')
    (hfields : ProperFields fields) : ProperFields fields' := by
  rw [assign?] at h
  split at h
  · cases h
  · exact Option.some.inj h ▸ hfields.put (n := .value d) hd key

/-- A proper value is written under a path. -/
theorem proper_assignAt? {path : List String} {d : Document} (hd : d.Proper)
    (h : assignAt? path key d fields = some fields') (hfields : ProperFields fields) :
    ProperFields fields' := by
  refine proper_update? (fun origin inner inner' hinner h => ?_) h hfields
  split at h
  · exact proper_assign? hd h hinner
  · cases h

/-- A table is opened at its header. -/
theorem proper_openTable? (h : openTable? key fields = some fields')
    (hfields : ProperFields fields) : ProperFields fields' := by
  rw [openTable?] at h
  split at h
  · exact Option.some.inj h ▸ hfields.put (properFields_nil.table .header) key
  · rename_i inner hlookup
    have hinner : ProperFields inner := .of_table (hfields.lookup hlookup)
    exact Option.some.inj h ▸ hfields.put (hinner.table .header) key
  · cases h

/-- Another table of a list is opened at its header. -/
theorem proper_openItem? (h : openItem? key fields = some fields')
    (hfields : ProperFields fields) : ProperFields fields' := by
  rw [openItem?] at h
  split at h
  · have hitems : (document (.tables [[]])).Proper :=
      proper_tables.mpr (List.forall_mem_singleton.mpr properFields_nil)
    exact Option.some.inj h ▸ hfields.put hitems key
  · rename_i items hlookup
    have hitems := proper_tables.mp (hfields.lookup hlookup)
    have hmore : (document (.tables ([] :: items))).Proper :=
      proper_tables.mpr (List.forall_mem_cons.mpr ⟨properFields_nil, hitems⟩)
    exact Option.some.inj h ▸ hfields.put hmore key
  · cases h

end Node

end Telecontrol.Toml
