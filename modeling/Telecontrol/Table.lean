/-! # Sorted tables

A **table** maps keys to values and lists them in ascending order of a rank. It serves where the
order of an answer matters (the points of a station, the frames of an interrogation) and where only
the lookup does (selections, connections).

Main statements: `Table.find?_insert` and `Table.find?_erase` say what the two writing operations do
to a lookup, `Table.mem_iff_find?` ties lookup to the listing, and `Table.ext_find?` says that
the lookup determines the table. -/

namespace Telecontrol

/-- Keys that are ordered by an injective **rank**. -/
class Ranked (κ : Type) where
  /-- The place of a key in the order. -/
  rank : κ → Nat
  /-- Two keys of one rank are the same key. -/
  rank_injective : ∀ {a b : κ}, rank a = rank b → a = b

open Ranked (rank rank_injective)

instance : Ranked Nat := ⟨id, id⟩

instance : Ranked UInt16 := ⟨UInt16.toNat, UInt16.toNat_inj.mp⟩

instance : Ranked UInt32 := ⟨UInt32.toNat, UInt32.toNat_inj.mp⟩

instance : Ranked UInt64 := ⟨UInt64.toNat, UInt64.toNat_inj.mp⟩

/-- A station address and an object address are ordered by the station first. -/
instance : Ranked (UInt16 × UInt32) where
  rank k := k.1.toNat * 0x100000000 + k.2.toNat
  rank_injective {a b} h := by
    have ha : a.2.toNat < 0x100000000 := a.2.toNat_lt
    have hb : b.2.toNat < 0x100000000 := b.2.toNat_lt
    exact Prod.ext (UInt16.toNat_inj.mp (by omega)) (UInt32.toNat_inj.mp (by omega))

/-- Different keys have different ranks. -/
theorem rank_ne {κ : Type} [Ranked κ] {a b : κ} : rank a ≠ rank b ↔ a ≠ b :=
  ⟨fun h e => h (congrArg rank e), fun h e => h (rank_injective e)⟩

/-- A **table**: entries in strictly ascending order of their keys, so that no key occurs twice. -/
structure Table (κ α : Type) [Ranked κ] where
  /-- The entries, in order. -/
  entries : List (κ × α)
  /-- Each entry ranks below all later ones. -/
  ascending : entries.Pairwise fun a b => rank a.1 < rank b.1

namespace Table

variable {κ α : Type} [Ranked κ]

/-- The table without entries. -/
def empty : Table κ α := ⟨[], .nil⟩

instance : Inhabited (Table κ α) := ⟨empty⟩

/-- The value of a key in a list of entries. -/
def lookup (k : κ) : List (κ × α) → Option α
  | [] => none
  | (k', a) :: rest => if rank k = rank k' then some a else lookup k rest

/-- The value stored under a key. -/
def find? (t : Table κ α) (k : κ) : Option α := lookup k t.entries

/-- Whether a key has a value. -/
def contains (t : Table κ α) (k : κ) : Bool := (t.find? k).isSome

/-- Put an entry at its place, in exchange for one of the same key. -/
def place (k : κ) (a : α) : List (κ × α) → List (κ × α)
  | [] => [(k, a)]
  | (k', b) :: rest =>
    if rank k < rank k' then (k, a) :: (k', b) :: rest
    else if rank k = rank k' then (k, a) :: rest
    else (k', b) :: place k a rest

/-- What is in a list after an entry was put there is that entry or was there before. -/
theorem mem_place {k : κ} {a : α} {l : List (κ × α)} {e : κ × α} (h : e ∈ place k a l) :
    e = (k, a) ∨ e ∈ l := by
  induction l with
  | nil => simpa [place] using h
  | cons x rest ih =>
    unfold place at h
    split at h
    · simpa using h
    · split at h
      · rcases List.mem_cons.mp h with h | h
        · exact .inl h
        · exact .inr (List.mem_cons_of_mem _ h)
      · rcases List.mem_cons.mp h with h | h
        · exact .inr (h ▸ List.mem_cons_self ..)
        · rcases ih h with h | h
          · exact .inl h
          · exact .inr (List.mem_cons_of_mem _ h)

/-- An entry is put where the order of the keys wants it. -/
theorem place_ascending (k : κ) (a : α) {l : List (κ × α)}
    (h : l.Pairwise fun a b => rank a.1 < rank b.1) :
    (place k a l).Pairwise fun a b => rank a.1 < rank b.1 := by
  induction l with
  | nil => simp [place]
  | cons x rest ih =>
    obtain ⟨hx, hr⟩ := List.pairwise_cons.mp h
    unfold place
    split
    · rename_i hlt
      -- in front of the head, so of everything
      refine List.pairwise_cons.mpr ⟨fun e he => ?_, h⟩
      rcases List.mem_cons.mp he with rfl | he
      · exact hlt
      · exact Nat.lt_trans hlt (hx e he)
    · split
      · rename_i heq
        exact List.pairwise_cons.mpr ⟨fun e he => heq ▸ hx e he, hr⟩
      · -- behind the head: what follows is the new entry or an old one
        refine List.pairwise_cons.mpr ⟨fun e he => ?_, ih hr⟩
        rcases mem_place he with rfl | he
        · show rank x.1 < rank k
          omega
        · exact hx e he

/-- Store a value under a key; an earlier value of the key is replaced. -/
def insert (t : Table κ α) (k : κ) (a : α) : Table κ α :=
  ⟨place k a t.entries, place_ascending k a t.ascending⟩

/-- Keep the entries that pass a test. -/
def filter (t : Table κ α) (p : κ → α → Bool) : Table κ α :=
  ⟨t.entries.filter fun e => p e.1 e.2, t.ascending.filter _⟩

/-- Forget the value of a key. -/
def erase (t : Table κ α) (k : κ) : Table κ α := t.filter fun k' _ => rank k' != rank k

/-- The keys, in order. -/
def keys (t : Table κ α) : List κ := t.entries.map (·.1)

/-- The values, in the order of their keys. -/
def values (t : Table κ α) : List α := t.entries.map (·.2)

/-- The number of entries. -/
def size (t : Table κ α) : Nat := t.entries.length

/-- Whether there is no entry. -/
def isEmpty (t : Table κ α) : Bool := t.entries.isEmpty

/-! ## Lookup -/

/-- An empty table has no entries. -/
@[simp] theorem find?_empty (k : κ) : (empty : Table κ α).find? k = none := rfl

/-- After an entry was put into an ordered list, its key has its value and the others have theirs.
-/
theorem lookup_place (k k' : κ) (a : α) {l : List (κ × α)}
    (h : l.Pairwise fun a b => rank a.1 < rank b.1) :
    lookup k' (place k a l) = if rank k' = rank k then some a else lookup k' l := by
  induction l with
  | nil => simp [place, lookup]
  | cons x rest ih =>
    obtain ⟨hx, hr⟩ := List.pairwise_cons.mp h
    unfold place
    split
    · simp [lookup]
    · split
      · rename_i heq
        simp only [lookup]
        -- the head is replaced
        split <;> rename_i h'
        · rfl
        · rw [if_neg (by rw [← heq]; exact h')]
      · rename_i hne
        simp only [lookup, ih hr]
        split <;> rename_i h'
        · -- the head has a smaller key, so not that of the new entry
          rw [if_neg (by omega)]
        · rfl

/-- A lookup after storing finds the stored value under its key, and the old ones elsewhere. -/
theorem find?_insert (t : Table κ α) (k k' : κ) (a : α) :
    (t.insert k a).find? k' = if rank k' = rank k then some a else t.find? k' :=
  lookup_place k k' a t.ascending

/-- A key has the value that was put there last. -/
@[simp] theorem find?_insert_self (t : Table κ α) (k : κ) (a : α) :
    (t.insert k a).find? k = some a := by simp [find?_insert]

/-- Every other key keeps its value. -/
theorem find?_insert_of_ne (t : Table κ α) {k k' : κ} (a : α) (h : k' ≠ k) :
    (t.insert k a).find? k' = t.find? k' := by simp [find?_insert, rank_ne.mpr h]

/-- What is found at a key is an entry of the list. -/
theorem lookup_eq_some {k : κ} {a : α} {l : List (κ × α)} (h : lookup k l = some a) :
    (k, a) ∈ l := by
  induction l with
  | nil => simp [lookup] at h
  | cons x rest ih =>
    simp only [lookup] at h
    split at h
    · rename_i hk
      obtain rfl : x.2 = a := by simpa using h
      exact List.mem_cons.mpr (.inl (Prod.ext (rank_injective hk) rfl))
    · exact List.mem_cons_of_mem _ (ih h)

/-- In an ordered list every entry is found at its key. -/
theorem lookup_of_mem {k : κ} {a : α} {l : List (κ × α)}
    (hl : l.Pairwise fun a b => rank a.1 < rank b.1) (h : (k, a) ∈ l) : lookup k l = some a := by
  induction l with
  | nil => simp at h
  | cons x rest ih =>
    obtain ⟨hx, hr⟩ := List.pairwise_cons.mp hl
    simp only [lookup]
    rcases List.mem_cons.mp h with h | h
    · subst h; simp
    · have := hx _ h
      rw [if_neg (by simp only at this; omega)]
      exact ih hr h

/-- An entry is listed exactly when its key is looked up to its value. -/
theorem mem_iff_find? (t : Table κ α) (k : κ) (a : α) :
    (k, a) ∈ t.entries ↔ t.find? k = some a :=
  ⟨lookup_of_mem t.ascending, lookup_eq_some⟩

/-- In an ordered list an entry is found at its key when it was before and was not dropped. -/
theorem lookup_filter (p : κ → α → Bool) (k : κ) {l : List (κ × α)}
    (hl : l.Pairwise fun a b => rank a.1 < rank b.1) :
    lookup k (l.filter fun e => p e.1 e.2) = (lookup k l).filter (p k) := by
  induction l with
  | nil => rfl
  | cons x rest ih =>
    obtain ⟨hx, hr⟩ := List.pairwise_cons.mp hl
    simp only [lookup, List.filter_cons]
    by_cases hk : rank k = rank x.1
    · have hkx : k = x.1 := rank_injective hk
      by_cases hp : p x.1 x.2 = true
      · simp [lookup, ← hkx, Option.filter, hkx ▸ hp]
      · -- the entry of the key is dropped, and no other one has this key
        have : lookup k rest = none := by
          cases hn : lookup k rest with
          | none => rfl
          | some b => have := hx _ (lookup_eq_some hn); simp only at this; omega
        simp [ih hr, ← hkx, this, Option.filter, hkx ▸ hp]
    · by_cases hp : p x.1 x.2 = true
      · simp [hp, lookup, hk, ih hr]
      · simp [hp, hk, ih hr]

/-- A lookup in a filtered table finds a value exactly when it passes the test. -/
theorem find?_filter (t : Table κ α) (p : κ → α → Bool) (k : κ) :
    (t.filter p).find? k = (t.find? k).filter (p k) := lookup_filter p k t.ascending

/-- A lookup after forgetting a key finds nothing under it, and the old values elsewhere. -/
theorem find?_erase (t : Table κ α) (k k' : κ) :
    (t.erase k).find? k' = if rank k' = rank k then none else t.find? k' := by
  rw [erase, find?_filter]
  by_cases h : rank k' = rank k
  · cases t.find? k' <;> simp [Option.filter, h]
  · cases t.find? k' <;> simp [Option.filter, h]

/-- A key that was erased has no value. -/
@[simp] theorem find?_erase_self (t : Table κ α) (k : κ) : (t.erase k).find? k = none := by
  simp [find?_erase]

/-- Every other key keeps its value. -/
theorem find?_erase_of_ne (t : Table κ α) {k k' : κ} (h : k' ≠ k) :
    (t.erase k).find? k' = t.find? k' := by simp [find?_erase, rank_ne.mpr h]

/-- The keys of a table are those that have a value. -/
theorem mem_keys (t : Table κ α) (k : κ) : k ∈ t.keys ↔ (t.find? k).isSome := by
  constructor
  · intro h
    obtain ⟨e, he, rfl⟩ := List.mem_map.mp h
    simp [(t.mem_iff_find? e.1 e.2).mp he]
  · intro h
    obtain ⟨a, ha⟩ := Option.isSome_iff_exists.mp h
    exact List.mem_map.mpr ⟨(k, a), (t.mem_iff_find? k a).mpr ha, rfl⟩

/-! ## Equality -/

/-- A table is its entries. -/
theorem ext_entries {s t : Table κ α} (h : s.entries = t.entries) : s = t := by
  cases s; cases t; simp_all

/-- Two ascending lists with the same lookup are equal. -/
theorem eq_of_lookup_eq {l m : List (κ × α)}
    (hl : l.Pairwise fun a b => rank a.1 < rank b.1)
    (hm : m.Pairwise fun a b => rank a.1 < rank b.1)
    (h : ∀ k, lookup k l = lookup k m) : l = m := by
  induction l generalizing m with
  | nil =>
    cases m with
    | nil => rfl
    | cons y _ => have := h y.1; simp [lookup] at this
  | cons x rest ih =>
    cases m with
    | nil => have := h x.1; simp [lookup] at this
    | cons y tail =>
      obtain ⟨hx, hr⟩ := List.pairwise_cons.mp hl
      obtain ⟨hy, ht⟩ := List.pairwise_cons.mp hm
      have hxm : x ∈ y :: tail := lookup_eq_some (by rw [← h x.1]; simp [lookup])
      have hym : y ∈ x :: rest := lookup_eq_some (by rw [h y.1]; simp [lookup])
      have hxy : x = y := by
        -- otherwise each head would be in the tail of the other list, so behind the other head
        rcases List.mem_cons.mp hxm with e | e
        · exact e
        · rcases List.mem_cons.mp hym with e' | e'
          · exact e'.symm
          · have h1 := hy _ e
            have h2 := hx _ e'
            omega
      subst hxy
      refine congrArg _ (ih hr ht fun k => ?_)
      have hk := h k
      simp only [lookup] at hk
      -- the key of the common head is not in the tails
      by_cases hkx : rank k = rank x.1
      · have none_of {n : List (κ × α)} (hn : ∀ e ∈ n, rank x.1 < rank e.1) :
            lookup k n = none := by
          cases hf : lookup k n with
          | none => rfl
          | some b => have := hn _ (lookup_eq_some hf); simp only at this; omega
        rw [none_of hx, none_of hy]
      · simpa [hkx] using hk

/-- Tables with the same lookup are equal. -/
theorem ext_find? {s t : Table κ α} (h : ∀ k, s.find? k = t.find? k) : s = t :=
  ext_entries (eq_of_lookup_eq s.ascending t.ascending h)

end Table

end Telecontrol
