import Telecontrol.Proofs.Generations

/-! # The ledger of a registry

Whether a handle resolves is a matter of the history of the registry. The **ledger** writes down
every handle that was issued for an item and every one whose item was given up; it is kept beside
the registry, which never reads it. From the ledger one reads who occupies a slot and how often the
slot was vacated, and these two numbers are all that the registry keeps of its past: the second one
modulo 2^32.

Main statements: `Ledger.Kept.call` (what the ledger says of a registry stays true from call to
call), `Ledger.Kept.get?_eq_some_iff` (what a handle resolves to by the ledger) and
`generation_checked` (the life of a handle). -/

namespace Telecontrol

namespace Registry

variable {α : Type}

/-! ## Calls and what they lead to -/

/-- A **call** to a registry. -/
inductive Call (α : Type) where
  | insert (item : α)
  | remove (handle : Handle)
  deriving DecidableEq, Repr

/-- What a call leads to. -/
inductive Deal (α : Type) where
  /-- A handle was issued for an item. -/
  | issued (handle : Handle) (item : α)
  /-- The item of a handle was given up, and its slot vacated. -/
  | freed (handle : Handle) (item : α)
  deriving DecidableEq, Repr

/-- Whether a slot was vacated. -/
def Deal.vacates (i : UInt32) : Deal α → Bool
  | .issued .. => false
  | .freed h _ => h.index == i

/-- How often a slot was vacated. -/
def vacated (i : UInt32) (deals : List (Deal α)) : Nat := deals.countP (Deal.vacates i)

/-- Who is in a slot by what has happened, the latest first. -/
def tenant? (i : UInt32) : List (Deal α) → Option α
  | [] => none
  | .issued h a :: older => if h.index = i then some a else tenant? i older
  | .freed h _ :: older => if h.index = i then none else tenant? i older

/-- The item in a slot. -/
def occupant? (r : Registry α) (i : UInt32) : Option α := r.slots[i.toNat]?.bind (·.occupant)

/-- Slots are numbered with 32 bits, so that a registry **fits** while it has no more of them. -/
def Fits (r : Registry α) : Prop := r.slots.size ≤ 2 ^ 32

instance (r : Registry α) : Decidable r.Fits := inferInstanceAs (Decidable (_ ≤ _))

/-- A registry with its **ledger**. -/
structure Ledger (α : Type) where
  registry : Registry α
  /-- What has happened, the latest first. -/
  deals : List (Deal α)

namespace Ledger

/-- A new registry. -/
def opened : Ledger α := ⟨.empty, []⟩

/-- A call is made, and what it leads to is written down. A call that changes nothing is not. -/
def call (l : Ledger α) : Call α → Ledger α
  | .insert a => ⟨(l.registry.insert a).1, .issued (l.registry.insert a).2 a :: l.deals⟩
  | .remove h =>
    ⟨l.registry.remove h, (l.registry.get? h).elim l.deals fun a => .freed h a :: l.deals⟩

/-- Calls one after the other. -/
def after (l : Ledger α) (calls : List (Call α)) : Ledger α := calls.foldl call l

/-- No calls change nothing. -/
@[simp] theorem after_nil (l : Ledger α) : l.after [] = l := rfl

/-- The first call comes first. -/
@[simp] theorem after_cons (l : Ledger α) (c : Call α) (cs : List (Call α)) :
    l.after (c :: cs) = (l.call c).after cs := rfl

end Ledger

/-! ## Reading the ledger -/

section Reading

variable {i : UInt32} {h : Handle} {a : α} {newer older deals : List (Deal α)}

/-- Issuing a handle vacates no slot. -/
@[simp] theorem vacated_issued : vacated i (.issued h a :: deals) = vacated i deals := by
  simp [vacated, Deal.vacates]

/-- Freeing a handle vacates its own slot and no other one. -/
@[simp] theorem vacated_freed :
    vacated i (.freed h a :: deals) = vacated i deals + if h.index = i then 1 else 0 := by
  simp [vacated, Deal.vacates, List.countP_cons]

/-- How often a slot was vacated adds up over what happened. -/
@[simp] theorem vacated_append :
    vacated i (newer ++ older) = vacated i newer + vacated i older := List.countP_append

/-- A slot that was vacated by its tenant was vacated. -/
theorem vacated_pos_of_mem (hmem : .freed h a ∈ deals) : 0 < vacated h.index deals :=
  List.countP_pos_iff.mpr ⟨_, hmem, by simp [Deal.vacates]⟩

/-- A slot was not vacated more often earlier. -/
theorem vacated_le_of_suffix (h : older <:+ deals) : vacated i older ≤ vacated i deals :=
  h.sublist.countP_le

/-- Two numbers agree modulo 2^32 when they differ by a multiple of it. -/
theorem ofNat_add_eq_iff (m n : Nat) : UInt32.ofNat (m + n) = UInt32.ofNat n ↔ 2 ^ 32 ∣ m := by
  rw [← UInt32.toNat_inj, UInt32.toNat_ofNat', UInt32.toNat_ofNat', Nat.dvd_iff_mod_eq_zero]
  omega

end Reading

/-! ## Ledgers that are true -/

/-- The handle that is issued or given up. -/
def Deal.handle : Deal α → Handle
  | .issued h _ => h
  | .freed h _ => h

/-- The tenant that must be in the slot before. -/
def Deal.former? : Deal α → Option α
  | .issued .. => none
  | .freed _ a => some a

/-- What **may follow** what has happened: a handle is issued for a slot without a tenant, and given
up by its tenant; its generation counts how often the slot was vacated. -/
structure Deal.Follows (older : List (Deal α)) (d : Deal α) : Prop where
  generation : d.handle.generation = UInt32.ofNat (vacated d.handle.index older)
  tenant : tenant? d.handle.index older = d.former?

namespace Ledger

/-- A ledger is **kept** when it says what is in the registry. -/
structure Kept (l : Ledger α) : Prop where
  sound : l.registry.Sound
  /-- A slot has its tenant, and its generation counts how often it was vacated. -/
  slot : ∀ {i : UInt32} {s : Slot α}, l.registry.slots[i.toNat]? = some s →
    s = ⟨UInt32.ofNat (vacated i l.deals), tenant? i l.deals⟩
  /-- Nothing has happened to a slot that is not there. -/
  unmade : ∀ {i : UInt32}, l.registry.slots[i.toNat]? = none →
    vacated i l.deals = 0 ∧ tenant? i l.deals = none
  /-- A slot without a tenant was vacated and is free. -/
  free : ∀ {i : UInt32} {g : UInt32}, l.registry.slots[i.toNat]? = some ⟨g, none⟩ →
    i ∈ l.registry.free ∧ 0 < vacated i l.deals
  written : ∀ {d older}, d :: older <:+ l.deals → d.Follows older
  counted : ∃ hs : List Handle, hs.Nodup ∧ (∀ h, h ∈ hs ↔ l.registry.contains h = true) ∧
    l.registry.size = hs.length

variable {l : Ledger α} {h : Handle} {a b : α} {newer older : List (Deal α)}

/-- Nothing is in a new registry. -/
theorem kept_opened : (opened : Ledger α).Kept where
  sound := sound_empty
  slot hs := by simp [opened, empty] at hs
  unmade _ := ⟨rfl, rfl⟩
  free hs := by simp [opened, empty] at hs
  written hd := nomatch List.suffix_nil.mp hd
  counted := ⟨[], .nil, fun h => by simp [contains, opened], rfl⟩

/-- The tenant by the ledger is the item in the slot. -/
theorem Kept.occupant?_eq (hl : l.Kept) (i : UInt32) :
    l.registry.occupant? i = tenant? i l.deals := by
  rw [occupant?]
  cases hs : l.registry.slots[i.toNat]? with
  | none => exact (hl.unmade hs).2.symm
  | some s => rw [hl.slot hs]; rfl

/-- What a handle resolves to by the ledger: the tenant of its slot, if the slot was vacated as
often as the generation says. -/
theorem Kept.get?_eq_some_iff (hl : l.Kept) (h : Handle) (a : α) :
    l.registry.get? h = some a ↔
      h.generation = UInt32.ofNat (vacated h.index l.deals) ∧ tenant? h.index l.deals = some a := by
  rw [Registry.get?_eq_some_iff]
  cases hs : l.registry.slots[h.index.toNat]? with
  | none => simp [(hl.unmade hs).2]
  | some s =>
    rw [hl.slot hs, Option.some.injEq, Slot.mk.injEq]
    exact and_congr_left' eq_comm

/-! ## Every call keeps the ledger -/

/-- The slot that was vacated last is filled first. -/
theorem index_insert {r : Registry α} {i : UInt32} {rest : List UInt32} (hfree : r.free = i :: rest)
    (a : α) : (r.insert a).2.index = i := by
  simp [insert, hfree]

/-- An insertion fills a slot that has no tenant, in the generation that counts how often it was
vacated. -/
theorem Kept.fills (hl : l.Kept) (a : α) (hfit : (l.registry.insert a).1.Fits) :
    ∃ i : UInt32, (l.registry.insert a).2 = ⟨i, UInt32.ofNat (vacated i l.deals)⟩ ∧
      tenant? i l.deals = none ∧
      (∀ j : UInt32, (l.registry.insert a).1.slots[j.toNat]? =
        if j = i then some ⟨UInt32.ofNat (vacated i l.deals), some a⟩
        else l.registry.slots[j.toNat]?) ∧
      ∀ j ∈ l.registry.free, j ≠ i → j ∈ (l.registry.insert a).1.free := by
  obtain ⟨n, g, hfills⟩ := hl.sound.fills a
  have hn : (UInt32.ofNat n).toNat = n := hfills.toNat_ofNat hfit
  have hindex : (l.registry.insert a).2.index = UInt32.ofNat n := by rw [hfills.handle]
  have hvacant : UInt32.ofNat (vacated (UInt32.ofNat n) l.deals) = g ∧
      tenant? (UInt32.ofNat n) l.deals = none := by
    rcases hfills.before with hv | ⟨rfl, rfl⟩
    · rw [← hn] at hv
      obtain ⟨hg, ht⟩ := Slot.mk.inj (hl.slot hv)
      exact ⟨hg.symm, ht.symm⟩
    · have hnone : l.registry.slots[(UInt32.ofNat l.registry.slots.size).toNat]? = none := by
        rw [hn]
        exact Array.getElem?_eq_none (Nat.le_refl _)
      obtain ⟨hzero, ht⟩ := hl.unmade hnone
      exact ⟨by rw [hzero]; rfl, ht⟩
  refine ⟨UInt32.ofNat n, by rw [hfills.handle, hvacant.1], hvacant.2, fun j => ?_,
    fun j hj hne => ?_⟩
  · have hiff : j.toNat = n ↔ j = UInt32.ofNat n := by rw [← UInt32.toNat_inj, hn]
    rw [hfills.slots, hvacant.1]
    exact if_congr hiff rfl rfl
  · -- the slot filled was the first of the free ones, if there were any
    rw [hfills.free]
    cases hfree : l.registry.free with
    | nil => rw [hfree] at hj; cases hj
    | cons k rest =>
      have hk : UInt32.ofNat n = k := hindex.symm.trans (index_insert hfree a)
      rw [hfree] at hj
      exact (List.mem_cons.mp hj).resolve_left fun he => hne (he.trans hk.symm)

/-- The size of a registry counts what is inserted. -/
theorem size_insert (r : Registry α) (a : α) : (r.insert a).1.size = r.size + 1 := by
  rw [insert]
  split <;> rfl

/-- The number of live items after an insertion. -/
theorem Kept.counted_insert (hl : l.Kept) (a : α) (hfit : (l.registry.insert a).1.Fits) :
    ∃ hs : List Handle, hs.Nodup ∧ (∀ h, h ∈ hs ↔ (l.registry.insert a).1.contains h = true) ∧
      (l.registry.insert a).1.size = hs.length := by
  obtain ⟨n, g, hfills⟩ := hl.sound.fills a
  obtain ⟨hs, hnodup, hmem, hsize⟩ := hl.counted
  have hnew : l.registry.get? (l.registry.insert a).2 = none := hfills.get?_new hfit
  have hnot : (l.registry.insert a).2 ∉ hs := by
    intro hin
    have hcontains := (hmem _).mp hin
    rw [contains, hnew] at hcontains
    cases hcontains
  refine ⟨(l.registry.insert a).2 :: hs, List.nodup_cons.mpr ⟨hnot, hnodup⟩, fun h => ?_, ?_⟩
  · rw [List.mem_cons, hmem, contains, contains, hfills.get?_insert hfit]
    by_cases heq : h = (l.registry.insert a).2 <;> simp [heq]
  · rw [size_insert, hsize, List.length_cons]

/-- An insertion is written down, and the ledger is kept. -/
theorem Kept.insert (hl : l.Kept) (a : α) (hfit : (l.registry.insert a).1.Fits) :
    (l.call (.insert a)).Kept := by
  obtain ⟨i, hhandle, hvacant, hslots, hfree⟩ := hl.fills a hfit
  -- the item goes into one slot, which was vacant; the ledger says the same of all others
  have htenant (j : UInt32) : tenant? j (l.call (.insert a)).deals =
      if j = i then some a else tenant? j l.deals := by
    show (if (l.registry.insert a).2.index = j then _ else _) = _
    rw [hhandle]
    exact if_congr eq_comm rfl rfl
  have hvacated (j : UInt32) : vacated j (l.call (.insert a)).deals = vacated j l.deals :=
    vacated_issued
  refine ⟨hl.sound.insert a, fun {j s} hs => ?_, fun {j} hs => ?_, fun {j g} hs => ?_,
    fun {d older} hd => ?_, hl.counted_insert a hfit⟩
  · rw [htenant, hvacated]
    have hs := (hslots j).symm.trans hs
    split at hs
    · rename_i hj
      rw [if_pos hj, hj]
      exact (Option.some.inj hs).symm
    · rename_i hj
      rw [if_neg hj]
      exact hl.slot hs
  · rw [htenant, hvacated]
    have hs := (hslots j).symm.trans hs
    -- the slot is made now
    split at hs
    · cases hs
    · rename_i hj
      rw [if_neg hj]
      exact hl.unmade hs
  · rw [hvacated]
    have hs := (hslots j).symm.trans hs
    split at hs
    · -- the slot is filled, so it is free no longer
      cases (Slot.mk.inj (Option.some.inj hs)).2
    · rename_i hj
      exact ⟨hfree j (hl.free hs).1 hj, (hl.free hs).2⟩
  · -- the latest entry is the one that was written just now
    rcases List.suffix_cons_iff.mp hd with heq | hsuffix
    · obtain ⟨rfl, rfl⟩ := List.cons.inj heq
      rw [hhandle]
      exact ⟨rfl, hvacant⟩
    · exact hl.written hsuffix

/-- The number of live items after one was given up. -/
theorem Kept.counted_remove (hl : l.Kept) (hc : l.registry.get? h = some a) :
    ∃ hs : List Handle, hs.Nodup ∧ (∀ h', h' ∈ hs ↔ (l.registry.remove h).contains h' = true) ∧
      (l.registry.remove h).size = hs.length := by
  obtain ⟨hs, hnodup, hmem, hsize⟩ := hl.counted
  have hin : h ∈ hs := (hmem h).mpr ((contains_iff _ _).mpr ⟨a, hc⟩)
  refine ⟨hs.erase h, hnodup.erase h, fun h' => ?_, ?_⟩
  · rw [hnodup.mem_erase_iff, hmem, contains, contains, get?_remove]
    by_cases heq : h' = h <;> simp [heq]
  · rw [remove_of_get? hc, hsize, List.length_erase_of_mem hin]

/-- Giving up a handle is written down if the handle resolves, and the ledger is kept. -/
theorem Kept.remove (hl : l.Kept) (h : Handle) : (l.call (.remove h)).Kept := by
  cases hc : l.registry.get? h with
  | none =>
    have hsame : l.call (.remove h) = l := by
      rw [call, hc, remove_of_get?_eq_none hc]
      rfl
    rwa [hsame]
  | some a =>
    -- the handle resolves, so its slot is filled in its generation
    obtain ⟨hgen, hown⟩ := (hl.get?_eq_some_iff h a).mp hc
    have hcall : l.call (.remove h) = ⟨l.registry.remove h, .freed h a :: l.deals⟩ := by
      rw [call, hc]
      rfl
    have hslots (j : UInt32) : (l.registry.remove h).slots[j.toNat]? =
        if h.index = j then some ⟨h.generation + 1, none⟩ else l.registry.slots[j.toNat]? := by
      rw [slots_remove hc]
      exact if_congr (by rw [UInt32.toNat_inj]; exact eq_comm) rfl rfl
    rw [hcall]
    refine ⟨hl.sound.remove h, fun {j s} hs => ?_, fun {j} hs => ?_, fun {j g} hs => ?_,
      fun {d older} hd => ?_, hl.counted_remove hc⟩
    · have hs := (hslots j).symm.trans hs
      rw [vacated_freed, tenant?]
      split at hs
      · rename_i hj
        -- one vacancy more, and one generation more
        rw [if_pos hj, if_pos hj, ← Option.some.inj hs, hgen, hj, UInt32.ofNat_add]
        rfl
      · rename_i hj
        rw [if_neg hj, if_neg hj]
        exact hl.slot hs
    · have hs := (hslots j).symm.trans hs
      rw [vacated_freed, tenant?]
      split at hs
      · -- a slot that was vacated was made
        cases hs
      · rename_i hj
        rw [if_neg hj, if_neg hj]
        exact hl.unmade hs
    · have hs := (hslots j).symm.trans hs
      rw [vacated_freed, remove_of_get? hc]
      split at hs
      · -- the slot that was vacated is free
        rename_i hj
        rw [if_pos hj, hj]
        exact ⟨List.mem_cons_self, Nat.succ_pos _⟩
      · obtain ⟨hmem, hpos⟩ := hl.free hs
        exact ⟨List.mem_cons_of_mem _ hmem, Nat.lt_of_lt_of_le hpos (Nat.le_add_right _ _)⟩
    · rcases List.suffix_cons_iff.mp hd with heq | hsuffix
      · obtain ⟨rfl, rfl⟩ := List.cons.inj heq
        exact ⟨hgen, hown⟩
      · exact hl.written hsuffix

/-- A registry never has fewer slots than before. -/
theorem slots_le_call (l : Ledger α) (c : Call α) :
    l.registry.slots.size ≤ (l.call c).registry.slots.size := by
  cases c with
  | insert a =>
    show _ ≤ (l.registry.insert a).1.slots.size
    rw [Registry.insert]
    split
    · exact Nat.le_of_eq Array.size_setIfInBounds.symm
    · simp
  | remove h =>
    show _ ≤ (l.registry.remove h).slots.size
    cases hc : l.registry.get? h with
    | none => exact Nat.le_of_eq (by rw [Registry.remove_of_get?_eq_none hc])
    | some a =>
      rw [Registry.remove_of_get? hc]
      exact Nat.le_of_eq Array.size_setIfInBounds.symm

/-- Calls never take slots away. -/
theorem slots_le_after (l : Ledger α) (cs : List (Call α)) :
    l.registry.slots.size ≤ (l.after cs).registry.slots.size := by
  induction cs generalizing l with
  | nil => exact Nat.le_refl _
  | cons c cs ih => exact Nat.le_trans (l.slots_le_call c) (ih (l.call c))

/-- What was written down stays. -/
theorem deals_suffix_call (l : Ledger α) (c : Call α) : l.deals <:+ (l.call c).deals := by
  cases c with
  | insert a => exact List.suffix_cons _ _
  | remove h =>
    rw [call]
    cases l.registry.get? h with
    | none => exact List.suffix_refl _
    | some a => exact List.suffix_cons _ _

/-- Calls only add to what has happened. -/
theorem deals_suffix_after (l : Ledger α) (cs : List (Call α)) :
    l.deals <:+ (l.after cs).deals := by
  induction cs generalizing l with
  | nil => exact List.suffix_refl _
  | cons c cs ih => exact (l.deals_suffix_call c).trans (ih (l.call c))

/-- Giving up handles one by one. -/
theorem registry_after_remove (l : Ledger α) (hs : List Handle) :
    (l.after (hs.map .remove)).registry = l.registry.removeAll hs := by
  induction hs generalizing l with
  | nil => rfl
  | cons h hs ih => exact ih (l.call (.remove h))

/-- Every call keeps the ledger. -/
theorem Kept.call (hl : l.Kept) (c : Call α) (hfit : (l.call c).registry.Fits) :
    (l.call c).Kept := by
  cases c with
  | insert a => exact hl.insert a hfit
  | remove h => exact hl.remove h

/-- Calls keep the ledger. -/
theorem Kept.after (hl : l.Kept) (cs : List (Call α)) (hfit : (l.after cs).registry.Fits) :
    (l.after cs).Kept := by
  induction cs generalizing l with
  | nil => exact hl
  | cons c cs ih =>
    exact ih (hl.call c (Nat.le_trans (slots_le_after (l.call c) cs) hfit)) hfit

/-! ## The life of a handle -/

/-- Nobody moves into the slot of a handle that was issued while the slot is not vacated. -/
theorem Kept.tenant?_of_issued (hl : l.Kept) (hnew : newer ++ .issued h a :: older <:+ l.deals)
    (hzero : vacated h.index newer = 0) :
    tenant? h.index (newer ++ .issued h a :: older) = some a := by
  induction newer with
  | nil => exact if_pos rfl
  | cons d newer ih =>
    have hsuffix : newer ++ .issued h a :: older <:+ l.deals := (List.suffix_cons _ _).trans hnew
    cases d with
    | issued h' b =>
      rw [vacated_issued] at hzero
      have htenant := ih hsuffix hzero
      have hvacant : tenant? h'.index (newer ++ .issued h a :: older) = none :=
        (hl.written hnew).tenant
      rw [List.cons_append, tenant?]
      split
      -- a slot with a tenant is not given to another one
      · rename_i hi
        rw [hi, htenant] at hvacant
        cases hvacant
      · exact htenant
    | freed h' b =>
      rw [vacated_freed] at hzero
      have hi : h'.index ≠ h.index := fun heq => by rw [if_pos heq] at hzero; omega
      rw [List.cons_append, tenant?, if_neg hi]
      exact ih hsuffix (by omega)

/-- The slot of a handle that was issued is vacated by that handle first. -/
theorem Kept.freed_of_vacated (hl : l.Kept) (hnew : newer ++ .issued h a :: older <:+ l.deals)
    (hpos : 0 < vacated h.index newer) : .freed h a ∈ newer := by
  have hgen : h.generation = UInt32.ofNat (vacated h.index older) :=
    (hl.written ((List.suffix_append newer _).trans hnew)).generation
  induction newer with
  | nil => exact absurd hpos (Nat.lt_irrefl _)
  | cons d newer ih =>
    have hsuffix : newer ++ .issued h a :: older <:+ l.deals := (List.suffix_cons _ _).trans hnew
    by_cases hzero : vacated h.index newer = 0
    · -- this is the first time that the slot is vacated, so its tenant is still the same
      have htenant := hl.tenant?_of_issued hsuffix hzero
      have hfollows : d.Follows (newer ++ .issued h a :: older) := hl.written hnew
      cases d with
      | issued h' b =>
        rw [vacated_issued] at hpos
        omega
      | freed h' b =>
        have hi : h'.index = h.index := by
          by_contra hne
          rw [vacated_freed, if_neg hne] at hpos
          omega
        have hgen' := hfollows.generation
        have htenant' := hfollows.tenant
        rw [Deal.handle, hi] at hgen' htenant'
        rw [vacated_append, vacated_issued, hzero, Nat.zero_add, ← hgen] at hgen'
        have hh : h' = h := handle_eq (by rw [hi]) hgen'
        have hb : a = b := Option.some.inj (htenant.symm.trans htenant')
        rw [hh, hb]
        exact List.mem_cons_self
    · exact List.mem_cons_of_mem _ (ih hsuffix (Nat.pos_of_ne_zero hzero))

/-- What a handle that was issued resolves to: the tenant of its slot, if the slot was vacated a
multiple of 2^32 times since. -/
theorem Kept.get?_issued (hl : l.Kept) (hdeals : l.deals = newer ++ .issued h a :: older) :
    l.registry.get? h =
      if 2 ^ 32 ∣ vacated h.index newer then tenant? h.index l.deals else none := by
  have hsuffix : .issued h a :: older <:+ l.deals := hdeals ▸ List.suffix_append newer _
  have hgen : h.generation = UInt32.ofNat (vacated h.index older) := (hl.written hsuffix).generation
  have hiff : h.generation = UInt32.ofNat (vacated h.index l.deals) ↔
      2 ^ 32 ∣ vacated h.index newer := by
    rw [hgen, hdeals, vacated_append, vacated_issued, eq_comm, ofNat_add_eq_iff]
  refine Option.ext fun b => ?_
  rw [hl.get?_eq_some_iff, hiff, Option.ite_none_right_eq_some]

/-- A tenant moved in with a handle, and its slot was not vacated since. -/
theorem exists_issued_of_tenant? {i : UInt32} {deals : List (Deal α)}
    (ht : tenant? i deals = some a) : ∃ newer h older,
      deals = newer ++ .issued h a :: older ∧ h.index = i ∧ vacated i newer = 0 := by
  induction deals with
  | nil => cases ht
  | cons d older ih =>
    cases d with
    | issued h b =>
      rw [tenant?] at ht
      split at ht
      · rename_i hi
        exact ⟨[], h, older, by rw [Option.some.inj ht]; rfl, hi, rfl⟩
      · obtain ⟨newer, h', older', rfl, hi, hzero⟩ := ih ht
        exact ⟨.issued h b :: newer, h', older', rfl, hi, vacated_issued.trans hzero⟩
    | freed h b =>
      rw [tenant?] at ht
      split at ht
      · cases ht
      · rename_i hne
        obtain ⟨newer, h', older', rfl, hi, hzero⟩ := ih ht
        exact ⟨.freed h b :: newer, h', older', rfl, hi, by rw [vacated_freed, if_neg hne, hzero]⟩

/-- A handle that resolves was issued for what it resolves to. -/
theorem Kept.issued_of_get? (hl : l.Kept) (hc : l.registry.get? h = some a) :
    .issued h a ∈ l.deals := by
  obtain ⟨hgen, htenant⟩ := (hl.get?_eq_some_iff h a).mp hc
  obtain ⟨newer, h', older, hdeals, hi, hzero⟩ := exists_issued_of_tenant? htenant
  have hsuffix : .issued h' a :: older <:+ l.deals := hdeals ▸ List.suffix_append newer _
  have hgen' : h'.generation = UInt32.ofNat (vacated h'.index older) :=
    (hl.written hsuffix).generation
  have hh : h' = h := by
    refine handle_eq (by rw [hi]) (hgen'.trans (Eq.trans ?_ hgen.symm))
    rw [hi, hdeals, vacated_append, vacated_issued, hzero, Nat.zero_add]
  rw [hdeals, ← hh]
  exact List.mem_append_right _ List.mem_cons_self

/-- While its slot was vacated fewer than 2^32 times, a new handle is none that was issued before.
-/
theorem Kept.not_issued (hl : l.Kept) (hfit : (l.registry.insert a).1.Fits)
    (hlt : vacated (l.registry.insert a).2.index l.deals < 2 ^ 32) (b : α) :
    .issued (l.registry.insert a).2 b ∉ l.deals := by
  intro hmem
  obtain ⟨newer, older, hdeals⟩ := List.append_of_mem hmem
  obtain ⟨i, hhandle, hvacant, -⟩ := hl.fills a hfit
  rw [hhandle] at hdeals hlt
  have hsuffix : newer ++ .issued ⟨i, UInt32.ofNat (vacated i l.deals)⟩ b :: older <:+ l.deals :=
    hdeals ▸ List.suffix_refl _
  -- both times the generation counts how often the slot was vacated, so it was not vacated between
  have hgen : UInt32.ofNat (vacated i l.deals) = UInt32.ofNat (vacated i older) :=
    (hl.written ((List.suffix_append newer _).trans hsuffix)).generation
  have hcount : vacated i l.deals = vacated i newer + vacated i older := by
    rw [hdeals, vacated_append, vacated_issued]
  rw [hcount, ofNat_add_eq_iff] at hgen
  have hlt : vacated i newer + vacated i older < 2 ^ 32 := hcount ▸ hlt
  have hzero : vacated i newer = 0 := Nat.eq_zero_of_dvd_of_lt hgen (by omega)
  have htenant := hl.tenant?_of_issued hsuffix hzero
  rw [← hdeals, hvacant] at htenant
  cases htenant

/-- **Handles are checked by generation.** A handle was issued when `older` had happened, and
`newer` is what has happened since. -/
structure Checked (l : Ledger α) : Prop where
  /-- The handle of a new item is none that resolves. -/
  new : ∀ a, (l.registry.insert a).1.Fits → l.registry.contains (l.registry.insert a).2 = false
  /-- A new item is resolved to by its handle, and no other handle is affected. -/
  insert : ∀ a, (l.registry.insert a).1.Fits → ∀ h,
    (l.registry.insert a).1.get? h =
      if h = (l.registry.insert a).2 then some a else l.registry.get? h
  /-- A handle that resolves is given up, and no other handle is affected; one that does not resolve
  changes nothing. -/
  remove : ∀ h,
    (l.registry.contains h = true → (l.registry.remove h).size + 1 = l.registry.size ∧
      ∀ h', (l.registry.remove h).get? h' = if h' = h then none else l.registry.get? h') ∧
    (l.registry.contains h = false → l.registry.remove h = l.registry)
  /-- What is given up is the item that the handle resolves to. -/
  take : ∀ h, l.registry.take? h = (l.registry.get? h).map fun a => (a, l.registry.remove h)
  /-- A handle resolves to the item it was issued for until that item is given up. -/
  resolves : ∀ {newer h a older}, l.deals = newer ++ .issued h a :: older → .freed h a ∉ newer →
    l.registry.get? h = some a
  /-- Afterwards it resolves exactly when its slot has a tenant and was vacated a positive multiple
  of 2^32 times since the handle was issued, and then it resolves to that tenant. -/
  again : ∀ {newer h a older}, l.deals = newer ++ .issued h a :: older → .freed h a ∈ newer →
    ∀ b, l.registry.get? h = some b ↔
      l.registry.occupant? h.index = some b ∧ ∃ k, 0 < k ∧ vacated h.index newer = k * 2 ^ 32
  /-- With fewer vacancies it resolves to no later tenant. -/
  stale : ∀ {newer h a older}, l.deals = newer ++ .issued h a :: older → .freed h a ∈ newer →
    vacated h.index newer < 2 ^ 32 → l.registry.contains h = false
  /-- The free slots are those that were vacated and not filled again, each once. -/
  free : l.registry.free.Nodup ∧
    ∀ i, i ∈ l.registry.free ↔ 0 < vacated i l.deals ∧ l.registry.occupant? i = none
  /-- The size is the number of handles that resolve. -/
  size : ∃ hs : List Handle, hs.Nodup ∧ (∀ h, h ∈ hs ↔ l.registry.contains h = true) ∧
    l.registry.size = hs.length

/-- The free slots are those that were vacated and have no tenant. -/
theorem Kept.mem_free_iff (hl : l.Kept) (i : UInt32) :
    i ∈ l.registry.free ↔ 0 < vacated i l.deals ∧ l.registry.occupant? i = none := by
  constructor
  · intro hi
    obtain ⟨g, hg⟩ := hl.sound.vacant i hi
    exact ⟨(hl.free hg).2, by rw [occupant?, hg]; rfl⟩
  · rintro ⟨hpos, hnone⟩
    cases hs : l.registry.slots[i.toNat]? with
    | none => rw [(hl.unmade hs).1] at hpos; exact absurd hpos (Nat.lt_irrefl _)
    | some s =>
      obtain ⟨g, o⟩ := s
      rw [occupant?, hs] at hnone
      obtain rfl : o = none := hnone
      exact (hl.free hs).1

/-- Giving up a handle that resolves makes a registry smaller by one. -/
theorem Kept.size_remove (hl : l.Kept) (hc : l.registry.get? h = some a) :
    (l.registry.remove h).size + 1 = l.registry.size := by
  obtain ⟨hs, -, hmem, hsize⟩ := hl.counted
  have hin : h ∈ hs := (hmem h).mpr ((contains_iff _ _).mpr ⟨a, hc⟩)
  rw [remove_of_get? hc, hsize]
  exact Nat.sub_add_cancel (List.length_pos_of_mem hin)

/-- A ledger that is kept checks its handles. -/
theorem Kept.checked (hl : l.Kept) : l.Checked where
  new a hfit := by
    obtain ⟨n, g, hfills⟩ := hl.sound.fills a
    rw [contains, hfills.get?_new hfit]
    rfl
  insert a hfit h := by
    obtain ⟨n, g, hfills⟩ := hl.sound.fills a
    exact hfills.get?_insert hfit h
  remove h := by
    refine ⟨fun hc => ?_, fun hc => remove_of_get?_eq_none ?_⟩
    · obtain ⟨a, ha⟩ := (contains_iff _ _).mp hc
      exact ⟨hl.size_remove ha, get?_remove _ h⟩
    · exact Option.isNone_iff_eq_none.mp (Option.isSome_eq_false_iff.mp hc)
  take := l.registry.take?_eq
  resolves {newer h a older} hdeals hkept := by
    have hsuffix : newer ++ .issued h a :: older <:+ l.deals := hdeals ▸ List.suffix_refl _
    -- the slot was not vacated since, for the handle would have been given up by that
    have hzero : vacated h.index newer = 0 := by
      by_contra hne
      exact hkept (hl.freed_of_vacated hsuffix (Nat.pos_of_ne_zero hne))
    rw [hl.get?_issued hdeals, hzero, if_pos (Nat.dvd_zero _), hdeals]
    exact hl.tenant?_of_issued hsuffix hzero
  again {newer h a older} hdeals hfreed b := by
    have hpos := vacated_pos_of_mem hfreed
    -- the generation comes round after every 2^32 vacancies
    have hiff : 2 ^ 32 ∣ vacated h.index newer ↔
        ∃ k, 0 < k ∧ vacated h.index newer = k * 2 ^ 32 := by
      constructor
      · rintro ⟨k, hk⟩
        exact ⟨k, by omega, by omega⟩
      · rintro ⟨k, -, hk⟩
        exact ⟨k, by omega⟩
    rw [hl.get?_issued hdeals, hl.occupant?_eq, ← hiff, Option.ite_none_right_eq_some]
    exact and_comm
  stale {newer h a older} hdeals hfreed hlt := by
    have hpos := vacated_pos_of_mem hfreed
    rw [contains, hl.get?_issued hdeals, if_neg (Nat.not_dvd_of_pos_of_lt hpos hlt)]
    rfl
  free := ⟨hl.sound.nodup, hl.mem_free_iff⟩
  size := hl.counted

end Ledger

/-- **Generation-checked handles.** Whatever was inserted and given up, as long as there were never
more than 2^32 slots, the handles of a registry are checked by generation. -/
theorem generation_checked (calls : List (Call α))
    (hfit : (Ledger.opened.after calls).registry.Fits) : (Ledger.opened.after calls).Checked :=
  (Ledger.kept_opened.after calls hfit).checked

/-- Calls after which a slot is used again: the old handle does not resolve to its new tenant. -/
def sampleCalls : List (Call Nat) :=
  [.insert 1, .insert 2, .remove ⟨0, 0⟩, .insert 7, .remove ⟨0, 0⟩]

/-- The handle of an item that was given up resolves to nothing, and its slot serves the next item
under a new generation. -/
theorem sample_generation_checked :
    (Ledger.opened.after sampleCalls).registry.Fits ∧
      (Ledger.opened.after sampleCalls).registry.get? ⟨0, 0⟩ = none ∧
      (Ledger.opened.after sampleCalls).registry.get? ⟨0, 1⟩ = some 7 ∧
      (Ledger.opened.after sampleCalls).Checked := by
  have hfit : (Ledger.opened.after sampleCalls).registry.Fits := by decide
  exact ⟨hfit, by decide, by decide, generation_checked sampleCalls hfit⟩

end Registry

end Telecontrol
