import Mathlib.Algebra.Group.Nat.Defs
import Mathlib.Data.List.Nodup
import Telecontrol.Point.Registry

/-! # Generations of handles

A handle resolves to the item it was given out for until that item is given up. Inserting an item
lets its own handle resolve and no other; giving up a handle lets it resolve no more, and no other
is touched. All this holds as long as the free slots are vacant, which every operation keeps, and as
long as no generation wraps: a slot that was filled `n` times is in no higher generation than `n`.

Main statements: `Registry.get?_remove` and `Registry.Sound.get?_insert` (what the operations do to
resolving), `Registry.Sound.not_issued_insert` (a new handle is like no handle given out before). -/

namespace Telecontrol

namespace Registry

variable {α : Type} {r : Registry α} {h h' : Handle} {a b : α} {n : Nat} {g : UInt32}

/-- A registry is **sound** when its free slots are vacant and each is listed once. -/
structure Sound (r : Registry α) : Prop where
  nodup : r.free.Nodup
  vacant : ∀ i ∈ r.free, ∃ g, r.slots[i.toNat]? = some ⟨g, none⟩

/-- A handle was **issued** if its slot was filled in its generation once. -/
def Issued (r : Registry α) (h : Handle) : Prop :=
  ∃ g o, r.slots[h.index.toNat]? = some ⟨g, o⟩ ∧
    (h.generation < g ∨ h.generation = g ∧ o.isSome = true)

/-- No slot was filled more than `n` times, and there are no more slots than that. -/
structure Within (r : Registry α) (n : Nat) : Prop where
  size : r.slots.size ≤ n
  filled : ∀ {i : Nat} {g : UInt32} {o : Option α}, r.slots[i]? = some ⟨g, o⟩ →
    g.toNat + o.elim 0 (fun _ => 1) ≤ n

/-- Inserting an item **fills** the slot `n` in its generation `g`. -/
structure Fills (r : Registry α) (a : α) (n : Nat) (g : UInt32) : Prop where
  slots : ∀ j, (r.insert a).1.slots[j]? = if j = n then some ⟨g, some a⟩ else r.slots[j]?
  handle : (r.insert a).2 = ⟨UInt32.ofNat n, g⟩
  before : r.slots[n]? = some ⟨g, none⟩ ∨ n = r.slots.size ∧ g = 0
  free : (r.insert a).1.free = r.free.tail
  other : ∀ i ∈ r.free.tail, i.toNat ≠ n
  size : (r.insert a).1.slots.size ≤ r.slots.size + 1

/-- An empty registry is sound. -/
theorem sound_empty : (empty : Registry α).Sound :=
  ⟨.nil, fun _ h => absurd h List.not_mem_nil⟩

/-! ## Inserting and giving up -/

/-- An item goes into a slot that was vacant, or into a new one. -/
theorem Sound.fills (hr : r.Sound) (a : α) : ∃ n g, r.Fills a n g := by
  cases hfree : r.free with
  -- no slot is free: a new one is added, in generation 0
  | nil =>
    have hins : r.insert a = ({ r with slots := r.slots.push ⟨0, some a⟩, size := r.size + 1 },
        ⟨UInt32.ofNat r.slots.size, 0⟩) := by rw [insert, hfree]
    refine ⟨r.slots.size, 0, fun j => ?_, by rw [hins], .inr ⟨rfl, rfl⟩, ?_, ?_, ?_⟩
    · rw [hins]
      exact Array.getElem?_push
    · rw [hins, hfree]
      rfl
    · rw [hfree]
      exact fun _ h => absurd h List.not_mem_nil
    · rw [hins]
      exact Nat.le_of_eq (Array.size_push _)
  -- the free slot is vacant, and its generation stays
  | cons i rest =>
    obtain ⟨g, hg⟩ := hr.vacant i (hfree ▸ List.mem_cons_self)
    have hins : r.insert a = ({
        slots := r.slots.setIfInBounds i.toNat ⟨g, some a⟩
        free := rest
        size := r.size + 1 }, ⟨i, g⟩) := by
      rw [insert, hfree]
      dsimp only
      rw [hg]
      rfl
    have hlt := (Array.getElem?_eq_some_iff.mp hg).1
    refine ⟨i.toNat, g, fun j => ?_, ?_, .inl hg, ?_, ?_, ?_⟩
    · rw [hins, Array.getElem?_setIfInBounds]
      by_cases hj : i.toNat = j
      · rw [if_pos hj, if_pos hlt, if_pos hj.symm]
      · rw [if_neg hj, if_neg (Ne.symm hj)]
    · rw [hins, UInt32.ofNat_toNat]
    · rw [hins, hfree]
      rfl
    · rw [hfree]
      -- the slot is listed as free no longer, since no slot was listed twice
      intro j hj he
      obtain rfl := UInt32.toNat_inj.mp he
      exact (List.nodup_cons.mp (hfree ▸ hr.nodup)).1 hj
    · rw [hins]
      exact Nat.le_trans (Nat.le_of_eq Array.size_setIfInBounds) (Nat.le_succ _)

/-- The slots after a handle was given up. -/
theorem slots_remove (hc : r.get? h = some a) (j : Nat) :
    (r.remove h).slots[j]? =
      if j = h.index.toNat then some ⟨h.generation + 1, none⟩ else r.slots[j]? := by
  have hlt := (Array.getElem?_eq_some_iff.mp ((r.get?_eq_some_iff h a).mp hc)).1
  rw [remove_of_get? hc, Array.getElem?_setIfInBounds]
  by_cases hj : h.index.toNat = j
  · rw [if_pos hj, if_pos hlt, if_pos hj.symm]
  · rw [if_neg hj, if_neg (Ne.symm hj)]

/-- Handles are told apart by slot and generation. -/
theorem handle_eq (hi : h.index.toNat = h'.index.toNat) (hg : h.generation = h'.generation) :
    h = h' := by
  obtain ⟨i, g⟩ := h
  obtain ⟨i', g'⟩ := h'
  obtain rfl : i = i' := UInt32.toNat_inj.mp hi
  exact congrArg _ hg

/-- A handle that is given up resolves no more, and all others resolve as before. -/
theorem get?_remove (r : Registry α) (h h' : Handle) :
    (r.remove h).get? h' = if h' = h then none else r.get? h' := by
  cases hc : r.get? h with
  | none =>
    rw [remove_of_get?_eq_none hc]
    split
    · rename_i heq
      rw [heq, hc]
    · rfl
  | some a =>
    have hslot := (r.get?_eq_some_iff h a).mp hc
    refine Option.ext fun b => ?_
    rw [get?_eq_some_iff, slots_remove hc]
    by_cases hi : h'.index.toNat = h.index.toNat
    · -- the slot is vacant now, and was filled for no other handle before
      rw [if_pos hi]
      refine ⟨fun he => (nomatch (Slot.mk.inj (Option.some.inj he)).2), fun he => ?_⟩
      split at he
      · cases he
      · rename_i hne
        have hslot' := (r.get?_eq_some_iff h' b).mp he
        rw [hi, hslot] at hslot'
        exact absurd (handle_eq hi (Slot.mk.inj (Option.some.inj hslot')).1.symm) hne
    · rw [if_neg hi, if_neg fun he => hi (by rw [he]), get?_eq_some_iff]

/-- After several handles were given up. -/
theorem get?_removeAll (r : Registry α) (hs : List Handle) (h' : Handle) :
    (r.removeAll hs).get? h' = if h' ∈ hs then none else r.get? h' := by
  induction hs generalizing r with
  | nil => rfl
  | cons h rest ih =>
    rw [removeAll, List.foldl_cons]
    show ((r.remove h).removeAll rest).get? h' = _
    rw [ih, get?_remove]
    by_cases hr : h' ∈ rest
    · rw [if_pos hr, if_pos (List.mem_cons_of_mem _ hr)]
    · rw [if_neg hr]
      exact if_congr (by simp [hr]) rfl rfl

/-- What resolves goes on resolving when an item is inserted. -/
theorem Sound.get?_insert_of_get? (hr : r.Sound) (a : α) (hb : r.get? h = some b) :
    (r.insert a).1.get? h = some b := by
  obtain ⟨n, g, hfills⟩ := hr.fills a
  have hslot := (r.get?_eq_some_iff h b).mp hb
  rw [get?_eq_some_iff, hfills.slots, if_neg, hslot]
  -- a filled slot is not filled again
  rintro rfl
  rcases hfills.before with hv | ⟨hsize, -⟩
  · rw [hslot] at hv
    cases (Slot.mk.inj (Option.some.inj hv)).2
  · exact absurd (Array.getElem?_eq_some_iff.mp hslot).1 (by omega)

/-- The slot that an insertion fills has a number of 32 bits, as long as there are no more slots. -/
theorem Fills.toNat_ofNat (hfills : r.Fills a n g) (hfit : (r.insert a).1.slots.size ≤ 2 ^ 32) :
    (UInt32.ofNat n).toNat = n := by
  have hslot : (r.insert a).1.slots[n]? = some ⟨g, some a⟩ := by rw [hfills.slots, if_pos rfl]
  have hlt := (Array.getElem?_eq_some_iff.mp hslot).1
  exact UInt32.toNat_ofNat_of_lt' (Nat.lt_of_lt_of_le hlt hfit)

/-- What resolves after a slot was filled: the new handle, and what resolved before. -/
theorem Fills.get?_insert (hfills : r.Fills a n g) (hfit : (r.insert a).1.slots.size ≤ 2 ^ 32)
    (h : Handle) : (r.insert a).1.get? h = if h = (r.insert a).2 then some a else r.get? h := by
  have hn := hfills.toNat_ofNat hfit
  refine Option.ext fun b => ?_
  rw [get?_eq_some_iff, hfills.slots, hfills.handle]
  by_cases hi : h.index.toNat = n
  · rw [if_pos hi]
    by_cases hg : g = h.generation
    · rw [if_pos (handle_eq (hi.trans hn.symm) hg.symm), hg]
      simp
    · -- another generation of the slot did not resolve before either
      rw [if_neg fun he => hg (by rw [he]), get?_eq_some_iff, hi]
      refine ⟨fun he => absurd (Slot.mk.inj (Option.some.inj he)).1 hg, fun he => ?_⟩
      rcases hfills.before with hv | ⟨rfl, -⟩
      · rw [hv] at he
        cases (Slot.mk.inj (Option.some.inj he)).2
      · exact absurd (Array.getElem?_eq_some_iff.mp he).1 (Nat.lt_irrefl _)
  · rw [if_neg hi, if_neg fun he => hi (by rw [he, hn]), get?_eq_some_iff]

/-- The handle of a new item did not resolve before. -/
theorem Fills.get?_new (hfills : r.Fills a n g) (hfit : (r.insert a).1.slots.size ≤ 2 ^ 32) :
    r.get? (r.insert a).2 = none := by
  have hn := hfills.toNat_ofNat hfit
  refine Option.eq_none_iff_forall_ne_some.mpr fun b hb => ?_
  rw [get?_eq_some_iff, hfills.handle, hn] at hb
  rcases hfills.before with hv | ⟨rfl, -⟩
  · rw [hv] at hb
    cases (Slot.mk.inj (Option.some.inj hb)).2
  · exact absurd (Array.getElem?_eq_some_iff.mp hb).1 (Nat.lt_irrefl _)

/-- Only the new handle begins to resolve when an item is inserted. -/
theorem Sound.get?_insert (hr : r.Sound) (hsize : r.slots.size < 2 ^ 32) (a : α) (h : Handle) :
    (r.insert a).1.get? h = if h = (r.insert a).2 then some a else r.get? h := by
  obtain ⟨n, g, hfills⟩ := hr.fills a
  exact hfills.get?_insert (Nat.le_trans hfills.size hsize) h

/-! ## Invariants -/

/-- What giving up one handle keeps is kept by giving up several. -/
theorem removeAll_induction {P : Registry α → Prop} (hs : List Handle) (hr : P r)
    (hP : ∀ q h, P q → P (q.remove h)) : P (r.removeAll hs) :=
  List.foldlRecOn hs Registry.remove hr fun q hq h _ => hP q h hq

/-- A registry stays sound when an item is put in. -/
theorem Sound.insert (hr : r.Sound) (a : α) : (r.insert a).1.Sound := by
  obtain ⟨n, g, hfills⟩ := hr.fills a
  refine ⟨by rw [hfills.free]; exact hr.nodup.tail, fun i hi => ?_⟩
  rw [hfills.free] at hi
  rw [hfills.slots, if_neg (hfills.other i hi)]
  exact hr.vacant i (List.mem_of_mem_tail hi)

/-- A registry stays sound when an item is removed. -/
theorem Sound.remove (hr : r.Sound) (h : Handle) : (r.remove h).Sound := by
  cases hc : r.get? h with
  | none => rwa [remove_of_get?_eq_none hc]
  | some a =>
    have hfree : (r.remove h).free = h.index :: r.free := by rw [remove_of_get? hc]
    -- the slot was filled, so it was not among the free ones
    have hnot : h.index ∉ r.free := fun hmem => by
      obtain ⟨g, hg⟩ := hr.vacant _ hmem
      rw [(r.get?_eq_some_iff h a).mp hc] at hg
      cases (Slot.mk.inj (Option.some.inj hg)).2
    refine ⟨by rw [hfree]; exact List.nodup_cons.mpr ⟨hnot, hr.nodup⟩, fun i hi => ?_⟩
    rw [slots_remove hc]
    split
    · exact ⟨_, rfl⟩
    · rename_i hne
      rw [hfree] at hi
      rcases List.mem_cons.mp hi with rfl | hi
      · exact absurd rfl hne
      · exact hr.vacant i hi

/-- A registry stays sound when several items are removed. -/
theorem Sound.removeAll (hr : r.Sound) (hs : List Handle) : (r.removeAll hs).Sound :=
  removeAll_induction hs hr fun _ h hq => hq.remove h

/-- A generation that does not wrap is raised by one. -/
theorem toNat_succ (hg : g.toNat + 1 < 2 ^ 32) : (g + 1).toNat = g.toNat + 1 := by
  rw [UInt32.toNat_add]
  exact Nat.mod_eq_of_lt hg

/-- The generations of an empty registry are zero. -/
theorem within_empty : (empty : Registry α).Within 0 := by
  refine ⟨Nat.le_refl _, fun h => ?_⟩
  simp [empty] at h

/-- Putting in one more item stays within one more. -/
theorem Within.insert (hw : r.Within n) (hr : r.Sound) (a : α) :
    (r.insert a).1.Within (n + 1) := by
  obtain ⟨m, g, hfills⟩ := hr.fills a
  refine ⟨Nat.le_trans hfills.size (Nat.succ_le_succ hw.size), fun {i g' o} hi => ?_⟩
  rw [hfills.slots] at hi
  split at hi
  · obtain ⟨rfl, rfl⟩ := Slot.mk.inj (Option.some.inj hi)
    rcases hfills.before with hv | ⟨-, rfl⟩
    · exact Nat.succ_le_succ (hw.filled hv)
    · exact Nat.le_add_left 1 n
  · exact Nat.le_succ_of_le (hw.filled hi)

/-- Removing an item stays within the same number. -/
theorem Within.remove (hw : r.Within n) (hn : n < 2 ^ 32) (h : Handle) :
    (r.remove h).Within n := by
  cases hc : r.get? h with
  | none => rwa [remove_of_get?_eq_none hc]
  | some a =>
    have hle : h.generation.toNat + 1 ≤ n := hw.filled ((r.get?_eq_some_iff h a).mp hc)
    refine ⟨?_, fun {i g o} hi => ?_⟩
    · rw [remove_of_get? hc]
      exact Nat.le_trans (Nat.le_of_eq Array.size_setIfInBounds) hw.size
    · rw [slots_remove hc] at hi
      split at hi
      · obtain ⟨rfl, rfl⟩ := Slot.mk.inj (Option.some.inj hi)
        rw [toNat_succ (Nat.lt_of_le_of_lt hle hn)]
        exact hle
      · exact hw.filled hi

/-- Removing several items stays within the same number. -/
theorem Within.removeAll (hw : r.Within n) (hn : n < 2 ^ 32) (hs : List Handle) :
    (r.removeAll hs).Within n :=
  removeAll_induction (P := fun q => q.Within n) hs hw fun _ h hq => hq.remove hn h

/-- A handle that resolves was issued. -/
theorem Issued.of_get? (hb : r.get? h = some b) : r.Issued h :=
  ⟨_, _, (r.get?_eq_some_iff h b).mp hb, .inr ⟨rfl, rfl⟩⟩

/-- Handles stay issued when an item is inserted. -/
theorem Issued.insert (hi : r.Issued h) (hr : r.Sound) (a : α) : (r.insert a).1.Issued h := by
  obtain ⟨n, g, hfills⟩ := hr.fills a
  obtain ⟨g', o, hslot, hgen⟩ := hi
  rw [Issued, hfills.slots]
  split
  · rename_i hn
    rw [hn] at hslot
    rcases hfills.before with hv | ⟨rfl, -⟩
    · rw [hv] at hslot
      obtain ⟨rfl, rfl⟩ := Slot.mk.inj (Option.some.inj hslot)
      exact ⟨_, _, rfl, hgen.imp_right fun hg => by cases hg.2⟩
    · exact absurd (Array.getElem?_eq_some_iff.mp hslot).1 (Nat.lt_irrefl _)
  · exact ⟨g', o, hslot, hgen⟩

/-- Handles stay issued when one is given up. -/
theorem Issued.remove (hi : r.Issued h') (hw : r.Within n) (hn : n < 2 ^ 32) (h : Handle) :
    (r.remove h).Issued h' := by
  cases hc : r.get? h with
  | none => rwa [remove_of_get?_eq_none hc]
  | some a =>
    obtain ⟨g, o, hslot, hgen⟩ := hi
    rw [Issued, slots_remove hc]
    split
    · rename_i heq
      have hown := (r.get?_eq_some_iff h a).mp hc
      have hle : h.generation.toNat + 1 ≤ n := hw.filled hown
      rw [heq, hown] at hslot
      obtain ⟨rfl, rfl⟩ := Slot.mk.inj (Option.some.inj hslot)
      refine ⟨_, _, rfl, .inl ?_⟩
      rw [UInt32.lt_iff_toNat_lt, toNat_succ (Nat.lt_of_le_of_lt hle hn)]
      rcases hgen with hlt | ⟨heq', -⟩
      · exact Nat.lt_succ_of_lt (UInt32.lt_iff_toNat_lt.mp hlt)
      · rw [heq']
        exact Nat.lt_succ_self _
    · exact ⟨g, o, hslot, hgen⟩

/-- A handle that was issued stays so when several items are removed. -/
theorem Issued.removeAll (hi : r.Issued h') (hw : r.Within n) (hn : n < 2 ^ 32)
    (hs : List Handle) : (r.removeAll hs).Issued h' :=
  (removeAll_induction (P := fun q => q.Within n ∧ q.Issued h') hs ⟨hw, hi⟩
    fun _ h hq => ⟨hq.1.remove hn h, hq.2.remove hq.1 hn h⟩).2

/-- The handle of a new item was not issued before. -/
theorem Sound.not_issued_insert (hr : r.Sound) (hsize : r.slots.size < 2 ^ 32) (a : α) :
    ¬ r.Issued (r.insert a).2 := by
  obtain ⟨n, g, hfills⟩ := hr.fills a
  rintro ⟨g', o, hslot, hgen⟩
  rw [hfills.handle] at hslot hgen
  rcases hfills.before with hv | ⟨rfl, -⟩
  · have hn := Nat.lt_trans (Array.getElem?_eq_some_iff.mp hv).1 hsize
    rw [UInt32.toNat_ofNat_of_lt' hn, hv] at hslot
    obtain ⟨rfl, rfl⟩ := Slot.mk.inj (Option.some.inj hslot)
    rcases hgen with hlt | ⟨-, ho⟩
    · exact absurd hlt (UInt32.lt_irrefl _)
    · cases ho
  · rw [UInt32.toNat_ofNat_of_lt' hsize] at hslot
    exact absurd (Array.getElem?_eq_some_iff.mp hslot).1 (Nat.lt_irrefl _)

end Registry

end Telecontrol
