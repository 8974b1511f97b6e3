import Telecontrol.Proofs.Splitting

/-! # How long a handle lasts

Deferred work keeps the handle of a point and uses it later, whatever has happened in between. As
long as the point lives, this handle resolves to it, and no other one does. Once it does not live
any more, the handle resolves to nothing, or to a later point of the same slot: then the slot was
vacated a multiple of 2^32 times, and at least as many points were made.

Main statements: `Server.Visited.lasts` (what is known of a handle after any moves), with
`Plant.Lasts.resolve?_iff` and `Plant.Lasts.eq_of_resolve?` to read it, and
`Server.Visited.resolve?_none` for handles that are listed, but resolve to nothing. -/

namespace Telecontrol

namespace Registry

variable {α : Type} {r : Registry α} {h h' : Handle} {a b : α} {i n : Nat} {g : UInt32}

/-! ## Slots -/

/-- The slot of a handle has **turned** since the handle resolved to an item: it was vacated `v`
times, and each time but perhaps the last one of the `n` items inserted meanwhile has filled it. -/
def Turned (r : Registry α) (h : Handle) (a : α) (n : Nat) : Prop :=
  ∃ (v : Nat) (o : Option α), r.slots[h.index.toNat]? = some ⟨h.generation + UInt32.ofNat v, o⟩ ∧
    (v = 0 → o = some a) ∧ v ≤ n + o.elim 1 fun _ => 0

/-- The slot of a handle has turned no time at all when the handle resolves. -/
theorem Turned.of_get? (ha : r.get? h = some a) : r.Turned h a 0 :=
  ⟨0, some a, by rw [(r.get?_eq_some_iff h a).mp ha]; simp, fun _ => rfl, Nat.le_refl _⟩

/-- With one more item, the slot may have been filled once more. -/
theorem Turned.insert (ht : r.Turned h a n) (hr : r.Sound) (b : α) :
    (r.insert b).1.Turned h a (n + 1) := by
  obtain ⟨v, o, hslot, hzero, hle⟩ := ht
  obtain ⟨m, g, hfills⟩ := hr.fills b
  rw [Turned, hfills.slots]
  by_cases hm : h.index.toNat = m
  · -- the slot was vacant, so this is not the first item in it
    rcases hfills.before with hv | ⟨hsize, -⟩
    · rw [← hm, hslot] at hv
      obtain ⟨rfl, rfl⟩ := Slot.mk.inj (Option.some.inj hv)
      exact ⟨v, some b, if_pos hm, fun hv0 => (nomatch hzero hv0), hle⟩
    · exact absurd (Array.getElem?_eq_some_iff.mp hslot).1 (by omega)
  · exact ⟨v, o, (if_neg hm).trans hslot, hzero, by omega⟩

/-- Giving up any handle vacates the slot once at most, and only when it was filled. -/
theorem Turned.remove (ht : r.Turned h a n) (h' : Handle) : (r.remove h').Turned h a n := by
  cases hc : r.get? h' with
  | none => rwa [remove_of_get?_eq_none hc]
  | some b =>
    obtain ⟨v, o, hslot, hzero, hle⟩ := ht
    rw [Turned, slots_remove hc]
    by_cases hi : h.index.toNat = h'.index.toNat
    · -- the slot was filled, so one more vacancy is within the bound for an empty one
      rw [hi, (r.get?_eq_some_iff h' b).mp hc] at hslot
      obtain ⟨hgen, rfl⟩ := Slot.mk.inj (Option.some.inj hslot)
      refine ⟨v + 1, none, ?_, nofun, Nat.succ_le_succ hle⟩
      rw [if_pos hi, hgen, UInt32.ofNat_add, ← UInt32.add_assoc]
      rfl
    · exact ⟨v, o, (if_neg hi).trans hslot, hzero, hle⟩

/-- A handle that resolves again after fewer than 2^32 items resolves to the same item. -/
theorem Turned.eq (ht : r.Turned h a n) (hb : r.get? h = some b) (hn : n < 2 ^ 32) : b = a := by
  obtain ⟨v, o, hslot, hzero, hle⟩ := ht
  rw [(r.get?_eq_some_iff h b).mp hb] at hslot
  obtain ⟨hgen, rfl⟩ := Slot.mk.inj (Option.some.inj hslot)
  have hlt : v < 2 ^ 32 := Nat.lt_of_le_of_lt hle hn
  -- the generation is back at its old value, so it was raised by a multiple of 2^32
  have hv : UInt32.ofNat v = 0 := UInt32.left_eq_add.mp hgen
  have hv0 : v = 0 := by
    have hmod := congrArg UInt32.toNat hv
    rwa [UInt32.toNat_ofNat_of_lt' hlt] at hmod
  exact Option.some.inj (hzero hv0)

/-- An item is **held** by a handle when it is in the slot and the generation of the handle, or
nowhere. -/
def HeldBy (r : Registry α) (a : α) (h : Handle) : Prop :=
  ∀ {i : Nat} {g : UInt32}, r.slots[i]? = some ⟨g, some a⟩ → i = h.index.toNat ∧ g = h.generation

/-- Nobody moves in when handles are given up. -/
theorem slots_of_removeAll (hs : List Handle)
    (hi : (r.removeAll hs).slots[i]? = some ⟨g, some a⟩) : r.slots[i]? = some ⟨g, some a⟩ := by
  refine removeAll_induction (P := fun q => q.slots[i]? = some ⟨g, some a⟩ →
    r.slots[i]? = some ⟨g, some a⟩) hs id (fun q h hq hi => hq ?_) hi
  cases hc : q.get? h with
  | none => rwa [remove_of_get?_eq_none hc] at hi
  | some b =>
    rw [slots_remove hc] at hi
    split at hi
    · cases (Slot.mk.inj (Option.some.inj hi)).2
    · exact hi

end Registry

/-! ## Plants -/

namespace Plant

variable {p q q' : Plant} {now : Int} {h h' : Handle} {i j : PointId}

/-- The points of a plant are **numbered**: a point that lives was made, and it is in one slot. -/
def Numbered (p : Plant) : Prop :=
  ∀ {n : Nat} {g : UInt32} {i : PointId}, p.points.registry.slots[n]? = some ⟨g, some i⟩ →
    i < p.points.points.size ∧
      ∀ {m g'}, p.points.registry.slots[m]? = some ⟨g', some i⟩ → m = n

/-- One plant **restocks** to another one when points are given up, or one is made, which gets the
next number. -/
def Restocks (p q : Plant) : Prop :=
  (∃ hs, q.points.registry = p.points.registry.removeAll hs ∧
    q.points.points.size = p.points.points.size) ∨
  q.points.registry = (p.points.registry.insert p.points.points.size).1 ∧
    q.points.points.size = p.points.points.size + 1

/-- Changes of the plant do nothing else to its registry. -/
theorem Change.restocks (hc : p.Change now q) : p.Restocks q := by
  rcases hc.cases with hshrink | ⟨ca, new, ha⟩ | ⟨new, spec, h', ha⟩
  · obtain ⟨hs, hhs⟩ := hshrink.registry
    exact .inl ⟨hs, hhs, by rw [hshrink.points]⟩
  · obtain ⟨-, -, -, rfl⟩ := (addStation_eq_ok_iff ..).mp ha
    exact .inl ⟨[], rfl, rfl⟩
  · obtain rfl := eq_enlist ha
    exact .inr ⟨rfl, Array.size_push _⟩

/-- Before any point is made, the points are numbered. -/
theorem numbered_empty : Plant.empty.Numbered := by
  intro n g i hi
  simp [empty, PointStore.empty, Registry.empty] at hi

/-- The points stay numbered however a plant is restocked. -/
theorem Restocks.numbered (hr : p.Restocks q) (hs : p.points.registry.Sound) (hp : p.Numbered) :
    q.Numbered := by
  intro n g i hi
  rcases hr with ⟨handles, hreg, hsize⟩ | ⟨hreg, hsize⟩
  · rw [hreg] at hi ⊢
    rw [hsize]
    obtain ⟨hlt, hone⟩ := hp (Registry.slots_of_removeAll handles hi)
    exact ⟨hlt, fun hm => hone (Registry.slots_of_removeAll handles hm)⟩
  · -- the new point has a number that no point had before
    obtain ⟨k, g', hfills⟩ := hs.fills p.points.points.size
    have hnew {m : Nat} {g : UInt32}
        (hm : p.points.registry.slots[m]? = some ⟨g, some p.points.points.size⟩) : False :=
      Nat.lt_irrefl _ (hp hm).1
    rw [hreg, hfills.slots] at hi
    rw [hreg, hsize]
    split at hi
    · rename_i hn
      obtain ⟨-, hi⟩ := Slot.mk.inj (Option.some.inj hi)
      obtain rfl := Option.some.inj hi
      refine ⟨Nat.lt_succ_self _, fun {m g'} hm => ?_⟩
      rw [hfills.slots] at hm
      split at hm
      · rename_i hm'
        rw [hm', hn]
      · exact (hnew hm).elim
    · obtain ⟨hlt, hone⟩ := hp hi
      refine ⟨Nat.lt_succ_of_lt hlt, fun {m g'} hm => ?_⟩
      rw [hfills.slots] at hm
      split at hm
      · obtain ⟨-, hm⟩ := Slot.mk.inj (Option.some.inj hm)
        exact absurd (Option.some.inj hm) (Nat.ne_of_gt hlt)
      · exact hone hm

/-- What is known of a handle that resolved to a point in a plant, in a plant that came later. -/
structure Lasts (p q : Plant) (h : Handle) (i : PointId) : Prop where
  known : i < p.points.points.size
  size_le : p.points.points.size ≤ q.points.points.size
  turned : q.points.registry.Turned h i (q.points.points.size - p.points.points.size)
  held : q.points.registry.HeldBy i h

/-- A handle that resolves lasts from the plant it is looked up in. -/
theorem lasts_refl (hp : p.Numbered) (hi : p.points.resolve? h = some i) : p.Lasts p h i where
  known := (hp ((Registry.get?_eq_some_iff ..).mp hi)).1
  size_le := Nat.le_refl _
  turned := by
    rw [Nat.sub_self]
    exact .of_get? hi
  held {n g} hn := by
    have hslot := (Registry.get?_eq_some_iff ..).mp hi
    obtain rfl := (hp hslot).2 hn
    rw [hslot] at hn
    exact ⟨rfl, (Slot.mk.inj (Option.some.inj hn)).1.symm⟩

/-- What is known of a handle stays known. -/
theorem Lasts.restocks (hl : p.Lasts q h i) (hs : q.points.registry.Sound) (hr : q.Restocks q') :
    p.Lasts q' h i := by
  obtain ⟨hknown, hle, hturned, hheld⟩ := hl
  rcases hr with ⟨handles, hreg, hsize⟩ | ⟨hreg, hsize⟩
  · refine ⟨hknown, hsize ▸ hle, ?_, fun {n g} hn => ?_⟩
    · rw [hreg, hsize]
      exact Registry.removeAll_induction (P := fun r => r.Turned h i _) handles hturned
        fun _ h' hr => hr.remove h'
    · rw [hreg] at hn
      exact hheld (Registry.slots_of_removeAll handles hn)
  · refine ⟨hknown, by omega, ?_, fun {n g} hn => ?_⟩
    · rw [hreg, hsize, Nat.succ_sub hle]
      exact hturned.insert hs _
    · -- what was made now has another number
      obtain ⟨k, g', hfills⟩ := hs.fills q.points.points.size
      rw [hreg, hfills.slots] at hn
      split at hn
      · obtain ⟨-, hn⟩ := Slot.mk.inj (Option.some.inj hn)
        exact absurd (Option.some.inj hn) (Nat.ne_of_gt (Nat.lt_of_lt_of_le hknown hle))
      · exact hheld hn

/-- A point that lives is resolved to by the handle that it had. -/
theorem Lasts.resolve?_iff (hl : p.Lasts q h i) :
    q.points.resolve? h = some i ↔ ∃ h', q.points.resolve? h' = some i := by
  refine ⟨fun hi => ⟨h, hi⟩, ?_⟩
  rintro ⟨h', hi⟩
  obtain ⟨hindex, hgen⟩ := hl.held ((Registry.get?_eq_some_iff ..).mp hi)
  rwa [← Registry.handle_eq hindex hgen]

/-- The handle resolves to no other point, unless 2^32 points were made in the meantime. -/
theorem Lasts.eq_of_resolve? (hl : p.Lasts q h i) (hj : q.points.resolve? h = some j) :
    j = i ∨ p.points.points.size + 2 ^ 32 ≤ q.points.points.size := by
  by_cases hlt : q.points.points.size - p.points.points.size < 2 ^ 32
  · exact .inl (hl.turned.eq hj hlt)
  · exact .inr (by have := hl.size_le; omega)

end Plant

/-! ## Visited servers -/

/-- Every move restocks the plant. -/
theorem Move.restocks {d : Deed} {s s' : Server} (h : Move d s s') :
    s.plant.Restocks s'.plant := by
  rcases h.plant_cases with heq | ⟨id, f, -, heq⟩ | hc
  · exact .inl ⟨[], by rw [heq]; rfl, by rw [heq]⟩
  · exact .inl ⟨[], by rw [heq]; rfl, heq ▸ Array.size_modify⟩
  · exact hc.restocks

namespace Server

variable {s s' : Server} {deeds : Set Deed} {station : StationId} {a : ObjectAddress} {h : Handle}
  {i : PointId}

/-- The points of every visited server are numbered. -/
theorem Visited.numbered (h : s.Visited) : s.plant.Numbered := by
  induction h with
  | new h =>
    obtain rfl := new_eq_ok h
    exact Plant.numbered_empty
  | move hs hm ih => exact hm.restocks.numbered hs.sound ih

/-- What is known of a handle that resolved to a point in a state of a run, after any moves. -/
theorem Visited.lasts (hs : s.Visited) (hi : s.plant.points.resolve? h = some i)
    (hm : Moves deeds s s') : s.plant.Lasts s'.plant h i :=
  (hm.induction (P := fun u => u.Visited ∧ s.plant.Lasts u.plant h i)
    (fun _ hm hu => ⟨hu.1.move hm, hu.2.restocks hu.1.sound hm.restocks⟩)
    ⟨hs, Plant.lasts_refl hs.numbered hi⟩).2

/-- A handle that a station lists, but that resolves to nothing, resolves to nothing later, as long
as no generation can have wrapped. -/
theorem Visited.resolve?_none (hs : s.Visited) (hlisted : s.plant.handle? station a = some h)
    (hnone : s.plant.points.resolve? h = none) (hm : Moves deeds s s')
    (hlt : s'.plant.points.points.size < 2 ^ 32) : s'.plant.points.resolve? h = none := by
  refine ((hm.induction (P := fun u => u.Visited ∧ (u.plant.points.points.size < 2 ^ 32 →
    u.plant.points.registry.Issued h ∧ u.plant.points.resolve? h = none))
    (fun {u v d} _ hm hu => ⟨hu.1.move hm, fun hlt => ?_⟩)
    ⟨hs, fun hlt => ⟨(hs.tidy hlt).issued hlisted, hnone⟩⟩).2 hlt).2
  rcases hm.plant_cases with heq | ⟨id, f, -, heq⟩ | hc
  · rw [heq] at hlt ⊢
    exact hu.2 hlt
  · rw [heq] at hlt ⊢
    exact hu.2 (Array.size_modify ▸ hlt)
  · have hlt' : u.plant.points.points.size < 2 ^ 32 := Nat.lt_of_le_of_lt hc.size_le hlt
    obtain ⟨hissued, hvacant⟩ := hu.2 hlt'
    obtain ⟨hissued', hresolve⟩ := hc.of_issued (hu.1.tidy hlt') hlt hissued
    refine ⟨hissued', Option.eq_none_iff_forall_ne_some.mpr fun i hi => ?_⟩
    rw [(hresolve hi).1] at hvacant
    cases hvacant

end Server

end Telecontrol
