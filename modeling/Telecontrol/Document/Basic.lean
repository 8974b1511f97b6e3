/-! # Documents

A **document** is what the text of a configuration says, before anyone asks whether it is a
configuration: a tree of maps and lists over plain values. Documents are **layered**: one is laid on
top of another, map by map, so that a later source overrides an earlier one key by key.

In a **proper** document no key comes twice in a map, so that asking for a key has one answer. Every
document that is read from a text is proper, whatever its format.

Main statements: `Document.lookup_put` says what writing a key does to a map,
`Document.lookup_overlayFields` and `Document.overlay_of_not_map` say what a layer does to a map and
to anything else, and `Document.Proper.overlay` says that layers of proper documents are one. -/

namespace Telecontrol

/-- A **document**: a tree of plain values. -/
inductive Document where
  /-- The absence of a value. -/
  | null
  | bool (value : Bool)
  /-- A whole number. -/
  | whole (value : Int)
  /-- A number with a fraction or an exponent. No setting takes one, so its value is not kept. -/
  | fractional
  | text (value : String)
  | list (items : List Document)
  /-- A map, without a key that comes twice. -/
  | map (fields : List (String × Document))
  deriving Repr

namespace Document

instance : Inhabited Document := ⟨.null⟩

/-- The entries of a map. -/
abbrev Fields := List (String × Document)

/-- Write a key of a map; a key that is new comes last. -/
def put (key : String) (value : Document) : Fields → Fields
  | [] => [(key, value)]
  | (k, v) :: rest => if key = k then (k, value) :: rest else (k, v) :: put key value rest

/-- The value of a key. -/
def lookup (key : String) : Fields → Option Document
  | [] => none
  | (k, v) :: rest => if key = k then some v else lookup key rest

/-- A key has the value that was written last, and the other keys keep theirs. -/
theorem lookup_put (k key : String) (value : Document) (fields : Fields) :
    lookup k (put key value fields) = if k = key then some value else lookup k fields := by
  induction fields with
  | nil => simp [put, lookup]
  | cons f rest ih =>
    obtain ⟨k', v'⟩ := f
    by_cases h : key = k'
    · subst h
      by_cases hk : k = key <;> simp [put, lookup, hk]
    · by_cases hk : k = k'
      · subst hk
        have : k ≠ key := fun e => h e.symm
        simp [put, lookup, h, this]
      · simp [put, lookup, h, hk, ih]

mutual

/-- Lay one document on top of another: two maps are joined key by key, and anything else gives way
to what is on top. -/
def overlay (below : Document) : Document → Document
  | .map top =>
    match below with
    | .map fields => .map (overlayFields fields top)
    | _ => .map top
  | top => top

/-- Lay the entries of a map on top of those of another. -/
def overlayFields (below : Fields) : Fields → Fields
  | [] => below
  | (key, top) :: rest =>
    -- only where both have the key is there anything to lay on top of
    let value := match lookup key below with
      | some d => overlay d top
      | none => top
    overlayFields (put key value below) rest

end

/-- An empty map on top changes nothing. -/
@[simp] theorem overlay_map_nil (fields : Fields) :
    overlay (.map fields) (.map []) = .map fields := by
  simp [overlay, overlayFields]

/-- A key that does not come has no value. -/
theorem lookup_of_not_mem {key : String} {fields : Fields} (h : key ∉ fields.map (·.1)) :
    lookup key fields = none := by
  induction fields with
  | nil => rfl
  | cons f rest ih =>
    obtain ⟨hne, hrest⟩ := not_or.mp fun hmem => h (List.mem_cons.mpr hmem)
    rw [lookup, if_neg hne, ih hrest]

/-- A key of the upper map has its value from there, laid on top of the one that it had below; any
other key keeps the one from below. -/
theorem lookup_overlayFields {top : Fields} (htop : (top.map (·.1)).Nodup) (below : Fields)
    (key : String) : lookup key (overlayFields below top) =
      (lookup key top).elim (lookup key below) fun d =>
        some ((lookup key below).elim d (overlay · d)) := by
  induction top generalizing below with
  | nil => rfl
  | cons f rest ih =>
    obtain ⟨k, d⟩ := f
    obtain ⟨hnew, hrest⟩ := List.nodup_cons.mp htop
    rw [overlayFields, ih hrest, lookup]
    by_cases hk : key = k
    · subst hk
      rw [lookup_of_not_mem hnew, lookup_put, if_pos rfl, if_pos rfl]
      cases lookup key below <;> rfl
    · rw [lookup_put, if_neg hk, if_neg hk]

/-- What is no map replaces everything below it. -/
theorem overlay_of_not_map (below top : Document) (h : ∀ fields, top ≠ .map fields) :
    overlay below top = top := by
  cases top <;> simp_all [overlay]

/-- The document that has a value at the end of a path of keys and nothing else. -/
def nest (path : List String) (value : Document) : Document :=
  path.foldr (fun key d => .map [(key, d)]) value

/-! ## Proper documents -/

/-- A document is **proper** when no key comes twice in any of its maps. -/
inductive Proper : Document → Prop where
  | null : Proper .null
  | bool (value : Bool) : Proper (.bool value)
  | whole (value : Int) : Proper (.whole value)
  | fractional : Proper .fractional
  | text (value : String) : Proper (.text value)
  | list {items : List Document} (h : ∀ d ∈ items, Proper d) : Proper (.list items)
  | map {fields : List (String × Document)} (hkeys : (fields.map (·.1)).Nodup)
      (h : ∀ f ∈ fields, Proper f.2) : Proper (.map fields)

/-- Entries are **proper** when no key comes twice, in them and in the maps of their values. -/
structure ProperFields (fields : Fields) : Prop where
  keys : (fields.map (·.1)).Nodup
  values : ∀ f ∈ fields, Proper f.2

variable {fs : Fields} {key : String} {d value : Document}

/-- A map of proper entries is proper. -/
theorem ProperFields.proper (h : ProperFields fs) : Proper (.map fs) := .map h.keys h.values

/-- The entries of a proper map are proper. -/
theorem Proper.fields (h : Proper (.map fs)) : ProperFields fs := by
  cases h with
  | map hkeys h => exact ⟨hkeys, h⟩

/-- No entries are proper. -/
theorem properFields_nil : ProperFields [] := ⟨.nil, fun _ h => absurd h List.not_mem_nil⟩

/-- A key that is written is a key afterwards, and no other one is new. -/
theorem mem_keys_put {k : String} :
    k ∈ (put key value fs).map (·.1) ↔ k = key ∨ k ∈ fs.map (·.1) := by
  induction fs with
  | nil => simp [put]
  | cons f rest ih =>
    obtain ⟨k', v'⟩ := f
    by_cases h : key = k'
    · simp [put, h]
    · rw [put, if_neg h, List.map_cons, List.mem_cons, ih, List.map_cons, List.mem_cons]
      exact or_left_comm

/-- Writing a key leaves proper entries proper. -/
theorem ProperFields.put (h : ProperFields fs) (hvalue : value.Proper) (key : String) :
    ProperFields (put key value fs) := by
  induction fs with
  | nil =>
    refine ⟨List.nodup_cons.mpr ⟨List.not_mem_nil, .nil⟩, fun f hf => ?_⟩
    obtain rfl := List.mem_singleton.mp hf
    exact hvalue
  | cons f rest ih =>
    obtain ⟨k', v'⟩ := f
    obtain ⟨hnew, hrest⟩ := List.nodup_cons.mp h.keys
    have hvalues : ∀ f ∈ rest, Proper f.2 := fun f hf => h.values f (List.mem_cons_of_mem _ hf)
    by_cases hk : key = k'
    · rw [Document.put, if_pos hk]
      exact ⟨h.keys, List.forall_mem_cons.mpr ⟨hvalue, hvalues⟩⟩
    · rw [Document.put, if_neg hk]
      have htail := ih ⟨hrest, hvalues⟩
      -- the keys behind `k'` are the old ones and perhaps `key`, so `k'` is not among them
      refine ⟨List.nodup_cons.mpr ⟨fun hmem => ?_, htail.keys⟩,
        List.forall_mem_cons.mpr ⟨h.values _ List.mem_cons_self, htail.values⟩⟩
      rcases mem_keys_put.mp hmem with heq | hmem
      · exact hk heq.symm
      · exact hnew hmem

/-- What stands under a key of proper entries is proper. -/
theorem ProperFields.lookup (h : ProperFields fs) (hd : lookup key fs = some d) :
    d.Proper := by
  induction fs with
  | nil => cases hd
  | cons f rest ih =>
    rw [Document.lookup] at hd
    split at hd
    · exact Option.some.inj hd ▸ h.values f List.mem_cons_self
    · have hrest : ProperFields rest :=
        ⟨(List.nodup_cons.mp h.keys).2, fun f hf => h.values f (List.mem_cons_of_mem _ hf)⟩
      exact ih hrest hd

mutual

/-- A proper document on top of a proper one is proper. -/
theorem Proper.overlay {below top : Document} (hbelow : below.Proper) (htop : top.Proper) :
    (overlay below top).Proper := by
  match top with
  | .map fields =>
    cases below with
    | map => exact (hbelow.fields.overlayFields htop.fields).proper
    | _ => exact htop
  | .null | .bool _ | .whole _ | .fractional | .text _ | .list _ => exact htop

/-- Proper entries on top of proper ones are proper. -/
theorem ProperFields.overlayFields {below top : Fields} (hbelow : ProperFields below)
    (htop : ProperFields top) : ProperFields (overlayFields below top) := by
  match top with
  | [] => exact hbelow
  | (key, d) :: rest =>
    have hd : d.Proper := htop.values _ List.mem_cons_self
    have hrest : ProperFields rest :=
      ⟨(List.nodup_cons.mp htop.keys).2, fun f hf => htop.values f (List.mem_cons_of_mem _ hf)⟩
    have hvalue : (match lookup key below with
        | some b => overlay b d
        | none => d).Proper := by
      cases hlookup : lookup key below with
      | none => exact hd
      | some b => exact (hbelow.lookup hlookup).overlay hd
    exact (hbelow.put hvalue key).overlayFields hrest

end

/-- A proper value at the end of a path makes a proper document. -/
theorem Proper.nest (h : value.Proper) (path : List String) : (nest path value).Proper := by
  induction path with
  | nil => exact h
  | cons key path ih =>
    exact .map (List.nodup_cons.mpr ⟨List.not_mem_nil, .nil⟩) fun f hf =>
      List.mem_singleton.mp hf ▸ ih

end Document

end Telecontrol
