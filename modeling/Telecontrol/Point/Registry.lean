/-! # The registry

A **registry** keeps items in numbered slots and hands out **handles**. A handle names a slot and
the generation in which the slot was filled. Vacating a slot raises its generation, so that a handle
kept by someone no longer resolves, even when the slot is filled again. Vacated slots are filled
again before new ones are made, the last vacated first. Generations are 32-bit numbers and wrap.

Main statements: `Registry.get?_eq_some_iff` (a handle resolves exactly when its slot is filled and
still in the handle's generation) and `Registry.take?_eq` (what giving up a handle gives back). -/

namespace Telecontrol

/-- A **handle**: a slot of a registry, in one of its generations. -/
structure Handle where
  index : UInt32
  generation : UInt32
  deriving DecidableEq, Repr, Inhabited

/-- A **slot** of a registry. -/
structure Slot (α : Type) where
  /-- How often the slot was vacated. -/
  generation : UInt32
  /-- The item in the slot. -/
  occupant : Option α
  deriving DecidableEq, Repr

/-- A **registry** of items. -/
structure Registry (α : Type) where
  slots : Array (Slot α)
  /-- The vacated slots, the last one first. -/
  free : List UInt32
  /-- The number of items. -/
  size : Nat

namespace Registry

variable {α : Type}

/-- The registry without items. -/
def empty : Registry α := ⟨#[], [], 0⟩

instance : Inhabited (Registry α) := ⟨empty⟩

/-- Whether there is no item. -/
def isEmpty (r : Registry α) : Bool := r.size == 0

/-- The slot of a handle, if it is still in the handle's generation. -/
def slot? (r : Registry α) (h : Handle) : Option (Slot α) :=
  r.slots[h.index.toNat]?.filter fun s => s.generation == h.generation

/-- The item a handle resolves to. -/
def get? (r : Registry α) (h : Handle) : Option α := (r.slot? h).bind (·.occupant)

/-- Whether a handle resolves. -/
def contains (r : Registry α) (h : Handle) : Bool := (r.get? h).isSome

/-- Keep an item. It goes into the slot that was vacated last, or into a new slot. -/
def insert (r : Registry α) (a : α) : Registry α × Handle :=
  match r.free with
  | index :: free =>
    let generation := (r.slots[index.toNat]?.map (·.generation)).getD 0
    ({ slots := r.slots.setIfInBounds index.toNat ⟨generation, some a⟩
       free
       size := r.size + 1 }, ⟨index, generation⟩)
  | [] =>
    ({ r with slots := r.slots.push ⟨0, some a⟩, size := r.size + 1 },
      ⟨UInt32.ofNat r.slots.size, 0⟩)

/-- Give up the item of a handle and vacate its slot: the item, and the registry without it. A
handle that does not resolve gives up nothing. -/
def take? (r : Registry α) (h : Handle) : Option (α × Registry α) :=
  (r.get? h).map fun a =>
    -- the generation is raised now, so that the handle stops resolving at once
    (a, { slots := r.slots.setIfInBounds h.index.toNat ⟨h.generation + 1, none⟩
          free := h.index :: r.free
          size := r.size - 1 })

/-- The registry without the item of a handle. A handle that does not resolve changes nothing. -/
def remove (r : Registry α) (h : Handle) : Registry α := (r.take? h).elim r (·.2)

/-- Give up the items of several handles. -/
def removeAll (r : Registry α) (hs : List Handle) : Registry α := hs.foldl remove r

/-! ## Resolving -/

/-- No handle resolves in an empty registry. -/
@[simp] theorem get?_empty (h : Handle) : (empty : Registry α).get? h = none := by
  simp [get?, slot?, empty]

/-- A handle is known exactly when it resolves. -/
theorem contains_iff (r : Registry α) (h : Handle) :
    r.contains h = true ↔ ∃ a, r.get? h = some a := Option.isSome_iff_exists

/-- A handle resolves exactly when its slot is filled and in its generation. -/
theorem get?_eq_some_iff (r : Registry α) (h : Handle) (a : α) :
    r.get? h = some a ↔ r.slots[h.index.toNat]? = some ⟨h.generation, some a⟩ := by
  unfold get? slot?
  cases r.slots[h.index.toNat]? with
  | none => simp
  | some s =>
    obtain ⟨g, o⟩ := s
    by_cases hg : g = h.generation <;> simp [Option.filter, hg]

/-- Giving up a handle that does not resolve changes nothing. -/
theorem remove_of_get?_eq_none {r : Registry α} {h : Handle} (hc : r.get? h = none) :
    r.remove h = r := by
  rw [remove, take?, hc]
  rfl

/-- The registry without an item that was there. -/
theorem remove_of_get? {r : Registry α} {h : Handle} {a : α} (hc : r.get? h = some a) :
    r.remove h =
      { slots := r.slots.setIfInBounds h.index.toNat ⟨h.generation + 1, none⟩
        free := h.index :: r.free
        size := r.size - 1 } := by
  rw [remove, take?, hc]
  rfl

/-- What is given up is the item that the handle resolves to. -/
theorem take?_eq (r : Registry α) (h : Handle) :
    r.take? h = (r.get? h).map fun a => (a, r.remove h) := by
  cases hc : r.get? h with
  | none => rw [take?, hc]; rfl
  | some a => rw [take?, remove_of_get? hc, hc]

end Registry

end Telecontrol
