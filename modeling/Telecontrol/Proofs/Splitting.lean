import Mathlib.Data.List.Chain
import Mathlib.Data.List.Infix
import Telecontrol.Proofs.Operate
import Telecontrol.Proofs.Ownership
import Telecontrol.Proofs.Packing

/-! # How a batch is split

The **capacity** of a frame is the number of objects that its counter and its octets allow. Packing
begins another frame only when the current one has reached its capacity, for the addresses of a
sequence always continue it. So all frames but the last are full, and their number is that of the
objects divided by the capacity, rounded up.

What is packed are the live points of a batch. A batch is **orderly** when each of them has the type
and the station of the batch and the address at which it was entered; every batch that someone keeps
beside a server is orderly, whatever becomes of its points.

Main statements: `Frame.hasRoom_iff` (room is what capacity leaves), `pack_full` (all frames but the
last are full), `Batch.KeptAt.orderly` and `Batch.frames_split`. -/

namespace Telecontrol

/-! ## The capacity of a frame -/

namespace Frame

/-- The octets of a frame that are left for its objects; a sequence has its first address before
them. -/
def objectSpace (sequence : Bool) : Nat :=
  maxFrameSize - frameHeaderSize - if sequence then objectAddressSize else 0

/-- The octets of one object; in a sequence the objects have no addresses. -/
def objectSize (type : TypeId) (sequence : Bool) : Nat :=
  type.elementSize + if sequence then 0 else objectAddressSize

/-- The **capacity** of a frame: the objects that its counter and its octets allow. -/
def capacity (type : TypeId) (sequence : Bool) : Nat :=
  if objectSize type sequence = 0 then maxObjectCount
  else min maxObjectCount (objectSpace sequence / objectSize type sequence)

/-- A number of objects keeps within both limits exactly when it does not exceed the capacity. -/
theorem within_iff (type : TypeId) (sequence : Bool) (n : Nat) :
    n ≤ maxObjectCount ∧ sizeFor type sequence n ≤ maxFrameSize ↔ n ≤ capacity type sequence := by
  -- the size of the frame is the header, then the objects, with one address or with one each
  have hsize : sizeFor type sequence n ≤ maxFrameSize ↔
      n * objectSize type sequence ≤ objectSpace sequence := by
    rw [sizeFor, objectSize, objectSpace]
    split
    · rename_i hzero
      rw [hzero, Nat.zero_mul]
      exact iff_of_true (by decide) (Nat.zero_le _)
    · cases sequence
      · simp only [Bool.false_eq_true, if_false, Nat.add_comm type.elementSize, maxFrameSize,
          frameHeaderSize]
        omega
      · simp only [if_true, Nat.add_zero, maxFrameSize, frameHeaderSize, objectAddressSize]
        omega
  rw [hsize, capacity]
  split
  · rename_i hzero
    rw [hzero, Nat.mul_zero]
    exact and_iff_left (Nat.zero_le _)
  · rename_i hpos
    rw [Nat.le_min, Nat.le_div_iff_mul_le (Nat.pos_of_ne_zero hpos)]

/-- Every frame can hold an object. -/
theorem capacity_pos (type : TypeId) (sequence : Bool) : 0 < capacity type sequence :=
  (within_iff type sequence 1).mp ⟨by decide, sizeFor_one_le type sequence⟩

/-- A frame has room until its capacity is reached. -/
theorem hasRoom_iff (f : Frame) :
    f.hasRoom = true ↔ f.objects.length < capacity f.type f.sequence := by
  rw [hasRoom, Bool.and_eq_true, decide_eq_true_eq, decide_eq_true_eq, within_iff, Nat.succ_le_iff]

/-- A frame whose capacity is reached takes no object. -/
theorem tryAdd_of_full {f : Frame} (hf : f.objects.length = capacity f.type f.sequence)
    (o : InformationObject) : f.tryAdd o = none := by
  refine Option.eq_none_iff_forall_ne_some.mpr fun g hg => ?_
  have hroom := f.hasRoom_iff.mp ((tryAdd_eq_some_iff ..).mp hg).1.1
  exact Nat.ne_of_lt hroom hf

end Frame

/-! ## Runs of addresses -/

/-- Addresses are **gapless** when each one follows its predecessor. -/
def Gapless (l : List ObjectAddress) : Prop := l.IsChain fun a b => b.toNat = a.toNat + 1

/-- Addresses are gapless when the first two are, and the rest from the second one on. -/
theorem gapless_cons_cons {a b : ObjectAddress} {l : List ObjectAddress} :
    Gapless (a :: b :: l) ↔ b.toNat = a.toNat + 1 ∧ Gapless (b :: l) := List.isChain_cons_cons

/-- The address with the next number is the next address. -/
theorem eq_add_one_of_toNat {a b : ObjectAddress} (hnext : b.toNat = a.toNat + 1) : b = a + 1 := by
  have hb : a.toNat + 1 < 2 ^ 32 := hnext ▸ b.toNat_lt
  refine UInt32.toNat_inj.mp ?_
  rw [UInt32.toNat_add, hnext]
  exact (Nat.mod_eq_of_lt hb).symm

/-- The next address has the next number, unless addresses wrap. -/
theorem eq_add_one_iff {a b : ObjectAddress} (hlt : a < b) :
    b = a + 1 ↔ b.toNat = a.toNat + 1 := by
  refine ⟨?_, eq_add_one_of_toNat⟩
  rintro rfl
  have hlt : a.toNat < (a + 1).toNat := UInt32.lt_iff_toNat_lt.mp hlt
  have hmod : (a + 1).toNat = (a.toNat + 1) % 2 ^ 32 := UInt32.toNat_add a 1
  have ha : a.toNat < 2 ^ 32 := a.toNat_lt
  omega

/-- Whether ascending addresses are gapless is decided as it should be. -/
theorem Batch.isContiguous_iff {l : List ObjectAddress} (hl : l.Pairwise (· < ·)) :
    isContiguous l = true ↔ Gapless l := by
  induction l with
  | nil => exact iff_of_true rfl .nil
  | cons a rest ih =>
    cases rest with
    | nil => exact iff_of_true rfl (.singleton a)
    | cons b rest =>
      obtain ⟨ha, hrest⟩ := List.pairwise_cons.mp hl
      rw [isContiguous, Bool.and_eq_true, beq_iff_eq, ih hrest, gapless_cons_cons,
        eq_add_one_iff (ha b List.mem_cons_self)]

/-- An object that follows the last one continues the frame. -/
theorem Frame.continues_of_gapless {f : Frame} {o : InformationObject}
    {rest : List InformationObject}
    (hgap : f.sequence = true → Gapless ((f.objects ++ o :: rest).map (·.address))) :
    f.continues o.address = true := by
  rw [continues]
  split
  · rename_i last hsequence hlast
    obtain ⟨front, hfront⟩ := List.getLast?_eq_some_iff.mp hlast
    have hchain := hgap hsequence
    rw [hfront, List.append_assoc, Gapless, List.isChain_map] at hchain
    have hnext := (List.isChain_cons_cons.mp (List.isChain_append.mp hchain).2.1).1
    exact beq_iff_eq.mpr (eq_add_one_of_toNat hnext)
  · rfl

/-- A part of gapless addresses is gapless. -/
theorem Gapless.part {l m : List InformationObject} (hm : Gapless (m.map (·.address)))
    (hlm : l <:+: m) : Gapless (l.map (·.address)) :=
  List.IsChain.infix hm (hlm.map _)

/-! ## Packing -/

/-- Packing fills frames: none exceeds its capacity, and all but the last reach it. -/
theorem pack_full {blank current : Frame} (hblank : blank.objects = []) (hcur : blank.Fills current)
    (hle : current.objects.length ≤ Frame.capacity blank.type blank.sequence)
    {os : List InformationObject}
    (hgap : blank.sequence = true → Gapless ((current.objects ++ os).map (·.address))) :
    (∀ f ∈ (pack blank current os).1,
      f.objects.length ≤ Frame.capacity blank.type blank.sequence) ∧
    ∀ f ∈ (pack blank current os).1.dropLast,
      f.objects.length = Frame.capacity blank.type blank.sequence := by
  have htype : current.type = blank.type := by rw [hcur]
  have hsequence : current.sequence = blank.sequence := by rw [hcur]
  induction os generalizing current with
  | nil =>
    rw [pack]
    split
    · exact ⟨List.forall_mem_nil _, List.forall_mem_nil _⟩
    · exact ⟨fun f hf => List.mem_singleton.mp hf ▸ hle, List.forall_mem_nil _⟩
  | cons o rest ih =>
    rw [pack]
    cases hadd : current.tryAdd o with
    | some next =>
      obtain ⟨⟨hroom, -⟩, rfl⟩ := (Frame.tryAdd_eq_some_iff ..).mp hadd
      have hlt := current.hasRoom_iff.mp hroom
      rw [htype, hsequence] at hlt
      refine ih (by rw [Frame.Fills, hcur]) ?_ (fun hseq => ?_) htype hsequence
      · rw [List.length_append]
        exact hlt
      · rw [List.append_assoc]
        exact hgap hseq
    | none =>
      -- the address would continue the frame, so that it can only have been full
      have hfull : current.objects.length = Frame.capacity blank.type blank.sequence := by
        refine Nat.le_antisymm hle (Nat.le_of_not_lt fun hlt => ?_)
        have hroom : current.hasRoom = true :=
          current.hasRoom_iff.mpr (by rw [htype, hsequence]; exact hlt)
        have hcontinues : current.continues o.address = true :=
          Frame.continues_of_gapless fun hseq => hgap (hsequence ▸ hseq)
        rw [(Frame.tryAdd_eq_some_iff ..).mpr ⟨⟨hroom, hcontinues⟩, rfl⟩] at hadd
        cases hadd
      have hfirst : blank.Fills { blank with objects := [o] } := rfl
      obtain ⟨hmost, hfront⟩ := ih hfirst (Frame.capacity_pos ..) (fun hseq =>
        (hgap hseq).part (List.suffix_append ..).isInfix) rfl rfl
      have hsome : (pack blank { blank with objects := [o] } rest).1 ≠ [] := by
        intro hnil
        have hobjects := (pack_spec hblank hfirst rest).2.1
        rw [hnil] at hobjects
        cases hobjects
      rw [Frame.tryAdd_of_empty hblank]
      refine ⟨fun f hf => ?_, fun f hf => ?_⟩
      · rcases List.mem_cons.mp hf with rfl | hf
        · exact hle
        · exact hmost f hf
      · rw [List.dropLast_cons_of_ne_nil hsome] at hf
        rcases List.mem_cons.mp hf with rfl | hf
        · exact hfull
        · exact hfront f hf

/-- If all frames but the last hold `n` objects, and the last one some, their number is that of the
objects divided by `n`, rounded up. -/
theorem length_eq_of_full {n : Nat} (hn : 0 < n) {frames : List Frame}
    (hsome : ∀ f ∈ frames, f.objects ≠ []) (hle : ∀ f ∈ frames, f.objects.length ≤ n)
    (hfull : ∀ f ∈ frames.dropLast, f.objects.length = n) :
    frames.length = ((frames.flatMap (·.objects)).length + n - 1) / n := by
  induction frames with
  | nil => exact (Nat.div_eq_of_lt (by simp only [List.flatMap_nil, List.length_nil]; omega)).symm
  | cons f rest ih =>
    rw [List.flatMap_cons, List.length_append, List.length_cons]
    cases rest with
    | nil =>
      have hpos := List.length_pos_iff.mpr (hsome f List.mem_cons_self)
      have hmost := hle f List.mem_cons_self
      -- some objects, and no more than fit: one frame
      refine (Nat.div_eq_of_lt_le ?_ ?_).symm
      · simp only [List.flatMap_nil, List.length_nil]
        omega
      · simp only [List.flatMap_nil, List.length_nil]
        omega
    | cons g rest =>
      rw [hfull f (by simp), ih (fun f hf => hsome f (List.mem_cons_of_mem _ hf))
        (fun f hf => hle f (List.mem_cons_of_mem _ hf))
        (fun f hf => hfull f (by
          rw [List.dropLast_cons_of_ne_nil (by simp)]
          exact List.mem_cons_of_mem _ hf))]
      -- one full frame, and then those of the rest
      have hpos := List.length_pos_iff.mpr (hsome g (by simp))
      rw [← Nat.add_div_right _ hn]
      congr 1
      simp only [List.flatMap_cons, List.length_append]
      omega

/-! ## Orderly batches -/

namespace Batch

/-- A batch is **orderly** when each member that lives is a point of the batch's type and station at
the address at which it was entered. -/
def Orderly (b : Batch) (store : PointStore) : Prop :=
  ∀ {a h i}, b.members.find? a = some h → store.resolve? h = some i →
    ∃ pt, store.point? i = some pt ∧ pt.address = a ∧ b.kind = some (pt.type, pt.station)

variable {b c : Batch} {store : PointStore} {s : Server} {a : ObjectAddress} {h : Handle}
  {pt : Point}

namespace Orderly

/-- A live member is the point that was entered. -/
theorem of_get? (hb : b.Orderly store) (hmem : b.members.find? a = some h)
    (hget : store.get? h = some pt) : pt.address = a ∧ b.kind = some (pt.type, pt.station) := by
  obtain ⟨i, hi, hpt⟩ := Option.bind_eq_some_iff.mp hget
  obtain ⟨pt', hpt', haddr, hkind⟩ := hb hmem hi
  obtain rfl := Option.some.inj (hpt.symm.trans hpt')
  exact ⟨haddr, hkind⟩

/-- A member lives exactly when it has a point. -/
theorem contains_iff (hb : b.Orderly store) (hmem : b.members.find? a = some h) :
    store.contains h = true ↔ ∃ pt, store.get? h = some pt := by
  constructor
  · intro hlive
    obtain ⟨i, hi⟩ := (Registry.contains_iff ..).mp hlive
    obtain ⟨pt, hpt, -⟩ := hb hmem hi
    exact ⟨pt, Option.bind_eq_some_iff.mpr ⟨i, hi, hpt⟩⟩
  · rintro ⟨pt, hget⟩
    obtain ⟨i, hi, -⟩ := Option.bind_eq_some_iff.mp hget
    exact (Registry.contains_iff ..).mpr ⟨i, hi⟩

/-- The addresses whose points are live are the addresses of the live points. -/
theorem liveAddresses_eq (hb : b.Orderly store) :
    b.liveAddresses store = (b.points store).map (·.address) := by
  rw [liveAddresses, points, Table.values, List.filterMap_map, List.map_filterMap,
    ← List.filterMap_eq_filter, List.map_filterMap]
  refine List.filterMap_congr fun e he => ?_
  obtain ⟨a, h⟩ := e
  have hmem := (Table.mem_iff_find? ..).mp he
  cases hget : store.get? h with
  | none =>
    have hgone : store.contains h = false := by
      refine Bool.eq_false_iff.mpr fun hlive => ?_
      obtain ⟨pt, hpt⟩ := (hb.contains_iff hmem).mp hlive
      rw [hget] at hpt
      cases hpt
    simp [Option.guard, hgone, hget]
  | some pt =>
    have hlive := (hb.contains_iff hmem).mpr ⟨pt, hget⟩
    simp [Option.guard, hlive, hget, (hb.of_get? hmem hget).1]

/-- The points of an orderly batch are sorted by their addresses. -/
theorem pairwise_points (hb : b.Orderly store) :
    (b.points store).Pairwise fun x y => x.address < y.address :=
  b.pairwise_points fun hmem hget => (hb.of_get? hmem hget).1

/-- The points of an orderly batch are sent as a sequence exactly when there are several and their
addresses are gapless. -/
theorem isSequence_iff (hb : b.Orderly store) :
    b.isSequence store = true ↔ Gapless ((b.points store).map (·.address)) := by
  rw [isSequence, hb.liveAddresses_eq]
  exact isContiguous_iff (List.pairwise_map.mpr hb.pairwise_points)

/-- A batch without a kind has no live points. -/
theorem points_eq_nil (hb : b.Orderly store) (hkind : b.kind = none) : b.points store = [] := by
  refine List.eq_nil_iff_forall_not_mem.mpr fun pt hpt => ?_
  obtain ⟨a, h, hmem, hget⟩ := mem_points.mp hpt
  have hsome := (hb.of_get? hmem hget).2
  rw [hkind] at hsome
  cases hsome

/-- A batch stays orderly when it takes a point. -/
theorem add (hb : b.Orderly store) (ha : b.add store h = .ok c) : c.Orderly store := by
  obtain ⟨pt, hget, hfault, rfl⟩ := (add_eq_ok_iff ..).mp ha
  obtain ⟨i, hi, hpt⟩ := Option.bind_eq_some_iff.mp hget
  have hkind {type : TypeId} {station : CommonAddress} (hk : b.kind = some (type, station)) :
      type = pt.type ∧ station = pt.station := by
    rw [fault?, hk] at hfault
    by_contra hne
    grind
  intro a h' j hmem hj
  rw [Table.find?_insert] at hmem
  split at hmem
  · rename_i ha
    obtain rfl := Option.some.inj hmem
    obtain rfl := Option.some.inj (hi.symm.trans hj)
    exact ⟨pt, hpt, (Ranked.rank_injective ha).symm, rfl⟩
  · obtain ⟨pt', hpt', haddr, hk⟩ := hb hmem hj
    obtain ⟨htype, hstation⟩ := hkind hk
    exact ⟨pt', hpt', haddr, by rw [htype, hstation]⟩

/-- A batch stays orderly when values are written to points. -/
theorem modify (hb : b.Orderly store) (id : PointId) {f : Point → Point}
    (hf : ∀ pt : Point, pt.SameAs (f pt)) : b.Orderly (store.modify id f) := by
  intro a h i hmem hi
  obtain ⟨pt, hpt, haddr, hkind⟩ := hb hmem hi
  rw [PointStore.point?_modify, hpt]
  split
  · exact ⟨f pt, rfl, (hf pt).address.trans haddr, by rw [hkind, (hf pt).type, (hf pt).station]⟩
  · exact ⟨pt, rfl, haddr, hkind⟩

end Orderly

/-! ## Splitting -/

/-- A batch **splits** into frames: what the frames hold, what they say and how full they are. -/
structure Splits (b : Batch) (store : PointStore) (now : Int) (originator : Originator)
    (frames : List Frame) : Prop where
  /-- The frames hold what the live points say, one after the other. -/
  objects : frames.flatMap (·.objects) = (b.points store).map (·.shown now)
  /-- The live points are those that the members resolve to, by ascending address. -/
  live : ∀ pt, pt ∈ b.points store ↔
    ∃ a h, b.members.find? a = some h ∧ store.get? h = some pt
  ascending : (b.points store).Pairwise fun x y => x.address < y.address
  some_object : ∀ f ∈ frames, f.objects ≠ []
  within : ∀ f ∈ frames, f.objects.length ≤ maxObjectCount ∧ f.size ≤ maxFrameSize
  header : ∀ f ∈ frames, b.kind = some (f.type, f.station) ∧ f.cause = b.cause ∧
    f.test = b.test ∧ f.negative = b.negative ∧ f.originator = originator
  sequence : ∀ f ∈ frames, f.sequence = true ↔
    2 ≤ (b.points store).length ∧ Gapless ((b.points store).map (·.address))
  gapless : ∀ f ∈ frames, f.sequence = true → Gapless (f.objects.map (·.address))
  /-- All frames but the last are full. -/
  full : ∀ f ∈ frames.dropLast, f.objects.length = Frame.capacity f.type f.sequence ∧
    ∀ o, f.tryAdd o = none
  /-- There are as many frames as the capacity demands. -/
  number : ∀ f ∈ frames, frames.length =
    ((b.points store).length + Frame.capacity f.type f.sequence - 1) /
      Frame.capacity f.type f.sequence
  none_iff : frames = [] ↔ b.points store = []

namespace Orderly

variable {type : TypeId} {station : CommonAddress}

/-- The frames of an orderly batch are sequences exactly when there are several points and their
addresses are gapless. -/
theorem sequence_form_iff (hb : b.Orderly store) (originator : Originator) :
    (b.form store type station originator).sequence = true ↔
      2 ≤ (b.points store).length ∧ Gapless ((b.points store).map (·.address)) := by
  rw [← hb.isSequence_iff]
  exact Bool.and_eq_true_iff.trans (and_congr_left' decide_eq_true_iff)

/-- A batch without a kind splits into no frames, and every clause is about none. -/
theorem splits_of_none (hb : b.Orderly store) (hkind : b.kind = none) (now : Int)
    (originator : Originator) :
    (b.frames store now originator).2 = [] ∧
      b.Splits store now originator (b.frames store now originator).1 := by
  have hnone := hb.points_eq_nil hkind
  have hframes : b.frames store now originator = ([], []) := by rw [frames, hkind]
  rw [hframes]
  exact ⟨rfl, {
    objects := by rw [hnone]; rfl
    live := fun _ => mem_points
    ascending := hb.pairwise_points
    some_object := List.forall_mem_nil _
    within := List.forall_mem_nil _
    header := List.forall_mem_nil _
    sequence := List.forall_mem_nil _
    gapless := List.forall_mem_nil _
    full := List.forall_mem_nil _
    number := List.forall_mem_nil _
    none_iff := iff_of_true rfl hnone }⟩

/-- A batch with a kind splits into the frames of its form. -/
theorem splits_of_some (hb : b.Orderly store) (hkind : b.kind = some (type, station)) (now : Int)
    (originator : Originator) :
    (b.frames store now originator).2 = [] ∧
      b.Splits store now originator (b.frames store now originator).1 := by
  have hframes := frames_eq_pack hkind store now originator
  set form := b.form store type station originator with hform
  have hsequence : form.sequence = true ↔ _ := hb.sequence_form_iff originator
  have hself : form.Fills form := rfl
  -- whether addresses are gapless does not depend on what else is shown
  have hgap : form.sequence = true →
      Gapless (((b.points store).map (·.shown now)).map (·.address)) := by
    rw [List.map_map]
    exact fun hseq => (hsequence.mp hseq).2
  obtain ⟨hlost, hobjects, hfills⟩ := pack_spec rfl hself ((b.points store).map (·.shown now))
  obtain ⟨hmost, hfull⟩ := pack_full rfl hself (Nat.zero_le _) hgap
  rw [← hframes] at hlost hobjects hfills hmost hfull
  generalize b.frames store now originator = split at hlost hobjects hfills hmost hfull ⊢
  obtain ⟨frames, lost⟩ := split
  have hobjects : frames.flatMap (·.objects) = (b.points store).map (·.shown now) := hobjects
  have hseq {f : Frame} (hf : f ∈ frames) : f.sequence = form.sequence := by rw [(hfills f hf).1]
  have hcapacity {f : Frame} (hf : f ∈ frames) :
      Frame.capacity f.type f.sequence = Frame.capacity form.type form.sequence := by
    rw [(hfills f hf).1]
  have hnumber : frames.length =
      ((b.points store).length + Frame.capacity form.type form.sequence - 1) /
        Frame.capacity form.type form.sequence := by
    rw [length_eq_of_full (Frame.capacity_pos ..) (fun f hf => (hfills f hf).2) hmost hfull,
      hobjects, List.length_map]
  exact ⟨hlost, {
    objects := hobjects
    live := fun _ => mem_points
    ascending := hb.pairwise_points
    some_object := fun f hf => (hfills f hf).2
    within := fun f hf => (Frame.within_iff ..).mpr (hcapacity hf ▸ hmost f hf)
    header := fun f hf => by
      rw [(hfills f hf).1]
      exact ⟨hkind, rfl, rfl, rfl, rfl⟩
    sequence := fun f hf => by rw [hseq hf, hsequence]
    gapless := fun f hf hseq' => by
      -- a frame holds a piece of the whole list
      refine (hgap (hseq hf ▸ hseq')).part ?_
      rw [← hobjects, List.flatMap_def]
      exact List.infix_of_mem_flatten (List.mem_map_of_mem hf)
    full := fun f hf => by
      have hlength := (hfull f hf).trans (hcapacity (List.mem_of_mem_dropLast hf)).symm
      exact ⟨hlength, Frame.tryAdd_of_full hlength⟩
    number := fun f hf => by rw [hcapacity hf, hnumber]
    none_iff := by
      constructor
      · rintro rfl
        exact List.map_eq_nil_iff.mp hobjects.symm
      · intro hnil
        -- some frame would hold some object of a point
        refine List.eq_nil_iff_forall_not_mem.mpr fun f hf => (hfills f hf).2 ?_
        rw [hnil] at hobjects
        exact List.flatMap_eq_nil_iff.mp hobjects f hf }⟩

/-- An orderly batch splits into its frames, and nothing is left out. -/
theorem splits (hb : b.Orderly store) (now : Int) (originator : Originator) :
    (b.frames store now originator).2 = [] ∧
      b.Splits store now originator (b.frames store now originator).1 := by
  cases hkind : b.kind with
  | none => exact hb.splits_of_none hkind now originator
  | some kind => exact hb.splits_of_some hkind now originator

end Orderly

end Batch

/-! ## Batches that are kept -/

/-- What a change of a tidy plant leaves of a handle that was issued before: it resolves to the same
point or no longer. -/
theorem Plant.Change.of_issued {p q : Plant} {now : Int} (hc : p.Change now q) (ht : p.Tidy)
    (hlt : q.points.points.size < 2 ^ 32) {h : Handle} (hissued : p.points.registry.Issued h) :
    q.points.registry.Issued h ∧ ∀ {i}, q.points.resolve? h = some i →
      p.points.resolve? h = some i ∧ q.points.point? i = p.points.point? i := by
  have hlt' : p.points.points.size < 2 ^ 32 := Nat.lt_of_le_of_lt hc.size_le hlt
  rcases hc.cases with hshrink | ⟨ca, new, ha⟩ | ⟨new, spec, h', ha⟩
  · obtain ⟨hs, hhs⟩ := hshrink.registry
    refine ⟨by rw [hhs]; exact hissued.removeAll ht.within hlt' hs, fun {i} hi =>
      ⟨hshrink.resolve? hi, ?_⟩⟩
    rw [PointStore.point?, hshrink.points]
    rfl
  · obtain ⟨-, -, -, rfl⟩ := (addStation_eq_ok_iff ..).mp ha
    exact ⟨hissued, fun hi => ⟨hi, rfl⟩⟩
  · obtain rfl := eq_enlist ha
    have hslots : p.points.registry.slots.size < 2 ^ 32 :=
      Nat.lt_of_le_of_lt ht.within.size hlt'
    refine ⟨hissued.insert ht.sound _, fun {i} hi => ?_⟩
    have hresolve : (p.enlist new now spec).1.points.resolve? h =
        if h = (p.points.insert (.ofSpec (p.station new).address now spec)).2 then
          some p.points.points.size
        else p.points.resolve? h := ht.sound.get?_insert hslots _ h
    -- the handle of the new point was never issued
    rw [hresolve, if_neg fun heq => ht.sound.not_issued_insert hslots _ (heq ▸ hissued)] at hi
    have hpoint : (p.enlist new now spec).1.points.point? i =
        if i = p.points.points.size then
          some (.ofSpec (p.station new).address now spec)
        else p.points.point? i := Array.getElem?_push
    exact ⟨hi, hpoint.trans (if_neg (Nat.ne_of_lt (ht.known hi)))⟩

namespace Batch

variable {b c : Batch} {s s' : Server}

/-- A batch that someone **keeps** beside a server: it is made, it takes points, and between that
the server goes its ways. -/
inductive KeptAt : Batch → Server → Prop where
  | new {s : Server} (h : s.Visited) (cause : Cause) (test negative : Bool) :
      KeptAt { cause, test, negative } s
  | add {b c : Batch} {s : Server} {h : Handle} (hb : KeptAt b s)
      (ha : b.add s.plant.points h = .ok c) : KeptAt c s
  | move {b : Batch} {s s' : Server} {d : Deed} (hb : KeptAt b s) (hm : Move d s s') : KeptAt b s'

/-- A batch is kept beside a visited server. -/
theorem KeptAt.visited (hb : b.KeptAt s) : s.Visited := by
  induction hb with
  | new h => exact h
  | add _ _ ih => exact ih
  | move _ hm ih => exact ih.move hm

/-- The members of a batch were issued by the registry of a plant, where the batch is orderly. -/
def FitsIn (b : Batch) (p : Plant) : Prop :=
  (∀ {a h}, b.members.find? a = some h → p.points.registry.Issued h) ∧ b.Orderly p.points

/-- A point that a batch accepts is of its kind, and the earlier members are as well. -/
theorem FitsIn.add {p : Plant} {h : Handle} (hb : b.FitsIn p) (ha : b.add p.points h = .ok c) :
    c.FitsIn p := by
  refine ⟨fun {a h'} hmem => ?_, Orderly.add hb.2 ha⟩
  obtain ⟨pt, hget, -, rfl⟩ := (add_eq_ok_iff ..).mp ha
  obtain ⟨i, hi, -⟩ := Option.bind_eq_some_iff.mp hget
  rw [Table.find?_insert] at hmem
  split at hmem
  · exact Option.some.inj hmem ▸ .of_get? hi
  · exact hb.1 hmem

/-- The members of a batch that is kept were issued, and what still lives of them is as it was
entered, as long as no generation can have wrapped. -/
theorem KeptAt.fitsIn (hb : b.KeptAt s) (hlt : s.plant.points.points.size < 2 ^ 32) :
    b.FitsIn s.plant := by
  induction hb with
  | new => exact ⟨fun hmem => (nomatch hmem), fun hmem => (nomatch hmem)⟩
  | add _ ha ih => exact (ih hlt).add ha
  | @move b s s' d hb hm ih =>
    rcases hm.plant_cases with heq | ⟨id, f, hf, heq⟩ | hc
    · rw [heq] at hlt ⊢
      exact ih hlt
    · rw [heq] at hlt ⊢
      obtain ⟨hissued, horderly⟩ := ih (Array.size_modify ▸ hlt)
      exact ⟨hissued, horderly.modify id hf⟩
    · have hlt' : s.plant.points.points.size < 2 ^ 32 := Nat.lt_of_le_of_lt hc.size_le hlt
      have ht := hb.visited.tidy hlt'
      obtain ⟨hissued, horderly⟩ := ih hlt'
      refine ⟨fun hmem => (hc.of_issued ht hlt (hissued hmem)).1, fun {a h i} hmem hi => ?_⟩
      obtain ⟨hi', hpoint⟩ := (hc.of_issued ht hlt (hissued hmem)).2 hi
      rw [hpoint]
      exact horderly hmem hi'

/-- A batch that is kept is orderly, as long as no generation can have wrapped. -/
theorem KeptAt.orderly (hb : b.KeptAt s) (hlt : s.plant.points.points.size < 2 ^ 32) :
    b.Orderly s.plant.points := (hb.fitsIn hlt).2

/-- **Splitting loses nothing and respects every limit.** An orderly batch splits into its frames,
and none of its points is left out for want of space. Whatever batch is kept beside a server is
orderly, as long as no generation can have wrapped. -/
theorem frames_split :
    (∀ (b : Batch) (store : PointStore) (now : Int) (originator : Originator), b.Orderly store →
      (b.frames store now originator).2 = [] ∧
        b.Splits store now originator (b.frames store now originator).1) ∧
    ∀ (b : Batch) (s : Server), b.KeptAt s → s.plant.points.points.size < 2 ^ 32 →
      b.Orderly s.plant.points :=
  ⟨fun _ _ now originator hb => hb.splits now originator, fun _ _ hb hlt => hb.orderly hlt⟩

/-- The batch after points are entered one after the other; one that is refused is left out. -/
def enter (b : Batch) (store : PointStore) (handles : List Handle) : Batch :=
  handles.foldl (fun b h => (b.add store h).toOption.getD b) b

/-- A batch that is kept stays so, whatever handles are entered. -/
theorem KeptAt.enter (hb : b.KeptAt s) (handles : List Handle) :
    (b.enter s.plant.points handles).KeptAt s := by
  refine List.foldlRecOn (motive := (KeptAt · s)) _ _ hb fun b hb h _ => ?_
  cases ha : b.add s.plant.points h with
  | ok c => exact hb.add ha
  | error e => exact hb

/-- The sample site gets twenty-one points with time tags, at addresses without gaps. -/
def sampleServer : Server :=
  Sample.site.run (.addStation 1 :: (List.range 21).map fun n =>
    .addPoint 0 { address := 10 + n.toUInt32, type := .M_ME_TF_1 })

/-- A batch of the points of the sample server. -/
def sampleBatch : Batch :=
  enter { cause := .spontaneous } sampleServer.plant.points
    ((List.range 21).map fun n => ⟨n.toUInt32, 0⟩)

/-- A sequence frame has room for twenty objects of the batch, so the last one is sent alone. -/
theorem sample_frames_split :
    sampleBatch.Splits sampleServer.plant.points 0 7
        (sampleBatch.frames sampleServer.plant.points 0 7).1 ∧
      (sampleBatch.frames sampleServer.plant.points 0 7).1.map
        (fun f => (f.sequence, f.objects.length)) = [(true, 20), (true, 1)] := by
  have hvisited : sampleServer.Visited := Sample.visited _
  have hkept : sampleBatch.KeptAt sampleServer :=
    KeptAt.enter (KeptAt.new hvisited .spontaneous false false) _
  have horderly : sampleBatch.Orderly sampleServer.plant.points :=
    frames_split.2 sampleBatch sampleServer hkept (by decide +kernel)
  exact ⟨(frames_split.1 sampleBatch sampleServer.plant.points 0 7 horderly).2, by decide +kernel⟩

end Batch

end Telecontrol
