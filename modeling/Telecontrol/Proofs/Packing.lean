import Telecontrol.Batch

/-! # Packing loses nothing

A frame without objects takes any object, so an object that no longer fits in the current frame
begins the next one. **Packing** therefore leaves nothing out: the frames hold the objects that were
given, all of them, once, and in their order.

What an object says of a point is written out field by field (`Point.shown`), whatever builds it,
and so is what the frames of a batch have in common (`Batch.form`).

Main statements: `pack_spec` and, for the live points of a batch, `Batch.frames_spec`. -/

namespace Telecontrol

/-! ## What an object says of a point -/

/-- What is **shown** of a point: its address, its value and its quality. There is a time tag only
if the type has one: the time of the last update, or the present when there was none. -/
def Point.shown (p : Point) (now : Int) : InformationObject where
  address := p.address
  value := p.value
  quality := p.quality
  select := false
  qualifier := 0
  time := if p.type.hasTimeTag then some (p.updated.getD now) else none

/-- A point is sent as it is shown. -/
theorem Point.toObject_eq (p : Point) (now : Int) : p.toObject now = p.shown now := rfl

namespace Frame

/-- Every frame has room for one object. -/
theorem sizeFor_one_le (type : TypeId) (sequence : Bool) :
    sizeFor type sequence 1 ≤ maxFrameSize := by
  cases sequence <;> cases type <;> decide

/-- A frame without objects takes any object. -/
theorem tryAdd_of_empty {f : Frame} (hf : f.objects = []) (o : InformationObject) :
    f.tryAdd o = some { f with objects := [o] } := by
  refine (tryAdd_eq_some_iff ..).mpr ⟨⟨?_, ?_⟩, by rw [hf]; rfl⟩
  · rw [hasRoom, hf, Bool.and_eq_true, decide_eq_true_eq, decide_eq_true_eq]
    exact ⟨show 0 + 1 ≤ maxObjectCount by decide, sizeFor_one_le ..⟩
  · rw [continues, hf]
    split
    · rename_i hlast
      cases hlast
    · rfl

/-- A frame **fills** a blank form when it differs from it in its objects only. -/
def Fills (blank f : Frame) : Prop := f = { blank with objects := f.objects }

end Frame

/-- Packing into frames of one form leaves nothing out: the frames hold the objects of the current
frame and then those that were given, and none of them is empty. -/
theorem pack_spec {blank current : Frame} (hblank : blank.objects = []) (hcur : blank.Fills current)
    (os : List InformationObject) :
    (pack blank current os).2 = [] ∧
      (pack blank current os).1.flatMap (·.objects) = current.objects ++ os ∧
      ∀ f ∈ (pack blank current os).1, blank.Fills f ∧ f.objects ≠ [] := by
  induction os generalizing current with
  | nil =>
    rw [pack, List.append_nil]
    split
    · rename_i hempty
      exact ⟨rfl, (List.isEmpty_iff.mp hempty).symm, fun _ hf => nomatch hf⟩
    · rename_i hsome
      refine ⟨rfl, List.append_nil _, fun f hf => ?_⟩
      obtain rfl := List.mem_singleton.mp hf
      exact ⟨hcur, fun hnil => hsome (List.isEmpty_iff.mpr hnil)⟩
  | cons o rest ih =>
    rw [pack]
    cases hadd : current.tryAdd o with
    | some next =>
      obtain rfl := ((Frame.tryAdd_eq_some_iff ..).mp hadd).2
      have hnext : blank.Fills { current with objects := current.objects ++ [o] } := by
        rw [Frame.Fills, hcur]
      obtain ⟨hlost, hobjects, hframes⟩ := ih hnext
      exact ⟨hlost, hobjects.trans (List.append_assoc ..), hframes⟩
    | none =>
      -- the current frame has objects, for an empty one would have taken this one
      have hsome : current.objects ≠ [] := fun hnil => by
        rw [Frame.tryAdd_of_empty hnil] at hadd
        cases hadd
      rw [Frame.tryAdd_of_empty hblank]
      have hfirst : blank.Fills { blank with objects := [o] } := rfl
      obtain ⟨hlost, hobjects, hframes⟩ := ih hfirst
      refine ⟨hlost, ?_, fun f hf => ?_⟩
      · exact congrArg (current.objects ++ ·) hobjects
      · rcases List.mem_cons.mp hf with rfl | hf
        · exact ⟨hcur, hsome⟩
        · exact hframes f hf

/-- The live points of a batch are those that its members resolve to. -/
theorem Batch.mem_points {b : Batch} {store : PointStore} {pt : Point} :
    pt ∈ b.points store ↔ ∃ a h, b.members.find? a = some h ∧ store.get? h = some pt := by
  rw [points, List.mem_filterMap]
  constructor
  · rintro ⟨h, hmem, hget⟩
    obtain ⟨⟨a, _⟩, he, rfl⟩ := List.mem_map.mp hmem
    exact ⟨a, _, (Table.mem_iff_find? ..).mp he, hget⟩
  · rintro ⟨a, h, hmem, hget⟩
    exact ⟨h, List.mem_map.mpr ⟨_, (Table.mem_iff_find? ..).mpr hmem, rfl⟩, hget⟩

/-- The live points of a batch are in the order of their addresses, if they have the addresses at
which they were entered. -/
theorem Batch.pairwise_points {b : Batch} {store : PointStore}
    (haddr : ∀ {a h pt}, b.members.find? a = some h → store.get? h = some pt → pt.address = a) :
    (b.points store).Pairwise fun x y => x.address < y.address := by
  rw [points, Table.values, List.filterMap_map, List.pairwise_filterMap]
  refine b.members.ascending.imp_of_mem fun {e f} he hf hlt x hx y hy => ?_
  rw [UInt32.lt_iff_toNat_lt, haddr ((Table.mem_iff_find? ..).mp he) hx,
    haddr ((Table.mem_iff_find? ..).mp hf) hy]
  exact hlt

/-- The **form** of the frames of a batch: what all of them say, whatever objects they hold. -/
def Batch.form (b : Batch) (store : PointStore) (type : TypeId) (station : CommonAddress)
    (originator : Originator) : Frame where
  type := type
  station := station
  originator := originator
  cause := b.cause
  test := b.test
  negative := b.negative
  sequence := 1 < (b.points store).length && b.isSequence store

/-- The frames of a batch are packed into its form, and hold the live points as they are shown. -/
theorem Batch.frames_eq_pack {b : Batch} {type : TypeId} {station : CommonAddress}
    (hkind : b.kind = some (type, station)) (store : PointStore) (now : Int)
    (originator : Originator) :
    b.frames store now originator = pack (b.form store type station originator)
      (b.form store type station originator) ((b.points store).map (·.shown now)) := by
  have hshown : (fun p : Point => p.toObject now) = (·.shown now) :=
    funext fun p => p.toObject_eq now
  rw [frames, hkind, hshown]
  rfl

/-- The frames of a batch hold its live points in the order of their addresses, and nothing is left
out. -/
theorem Batch.frames_spec {b : Batch} {type : TypeId} {station : CommonAddress}
    (hkind : b.kind = some (type, station)) (store : PointStore) (now : Int)
    (originator : Originator) :
    (b.frames store now originator).2 = [] ∧
      (b.frames store now originator).1.flatMap (·.objects) =
        (b.points store).map (·.shown now) ∧
      ∀ f ∈ (b.frames store now originator).1, f.objects ≠ [] ∧ f.type = type ∧
        f.station = station ∧ f.originator = originator ∧ f.cause = b.cause ∧ f.test = b.test ∧
        f.negative = b.negative := by
  rw [frames_eq_pack hkind]
  -- the form is itself a frame that is still empty
  have hform : (b.form store type station originator).Fills
      (b.form store type station originator) := rfl
  obtain ⟨hlost, hobjects, hframes⟩ := pack_spec rfl hform ((b.points store).map (·.shown now))
  refine ⟨hlost, hobjects, fun f hf => ?_⟩
  obtain ⟨hfills, hsome⟩ := hframes f hf
  rw [hfills]
  exact ⟨hsome, rfl, rfl, rfl, rfl, rfl, rfl⟩

end Telecontrol
