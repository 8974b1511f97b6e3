import Telecontrol.Proofs.Packing
import Telecontrol.Proofs.Survey

/-! # The batches of a station

What a survey finds is put into batches, one for each type. An **item** is what one object of a
frame says: a station, a type and the object. The batches of a station **gather** the points that
were found: each of them is a member of the batch of its type, as long as it lives, and there are no
other members. So the items of the batches are those of the points that were found and still live,
in the order of types and addresses.

Main statements: `Gathers.collect` (one more point is gathered), `Gathers.mem_items` and
`Gathers.pairwise_items`. -/

namespace Telecontrol

open Ranked (rank)

/-! ## Items -/

/-- An **item**: what one object of a frame says. -/
structure Item where
  station : CommonAddress
  type : TypeId
  object : InformationObject
  deriving DecidableEq, Repr

/-- Items are ordered by station, then by the code of the type, then by address. -/
def Item.Before (x y : Item) : Prop :=
  x.station < y.station ∨ x.station = y.station ∧
    (x.type.code < y.type.code ∨ x.type = y.type ∧ x.object.address < y.object.address)

/-- The items of a frame. -/
def Frame.items (f : Frame) : List Item := f.objects.map (⟨f.station, f.type, ·⟩)

/-- The item that says what a point is: its station, its type and what is shown of it. -/
def Point.item (p : Point) (now : Int) : Item := ⟨p.station, p.type, p.shown now⟩

/-- The items of the live points of a batch. -/
def Batch.items (b : Batch) (store : PointStore) (now : Int) : List Item :=
  (b.points store).map (·.item now)

/-- A batch for the points of one type and one station, to be sent with a cause. -/
structure Batch.IsFor (b : Batch) (cause : Cause) (station : CommonAddress) (type : TypeId) :
    Prop where
  cause : b.cause = cause
  test : b.test = false
  negative : b.negative = false
  /-- A batch without a kind has never accepted a point. -/
  kind : b.kind = some (type, station) ∨ b.kind = none ∧ b.members = .empty

/-! ## Gathering -/

/-- Batches **gather** what was found at a station: the live points among them are members of the
batches of their types, and there are no other members. -/
structure Gathers (cause : Cause) (station : CommonAddress) (xs : List Find) (store : PointStore)
    (groups : Table TypeId Batch) : Prop where
  isFor : ∀ {type b}, groups.find? type = some b → b.IsFor cause station type
  found : ∀ {type b a h}, groups.find? type = some b → b.members.find? a = some h →
    ∃ x ∈ xs, x.handle = h ∧ x.point.type = type ∧ x.point.address = a
  complete : ∀ x ∈ xs, store.contains x.handle = true →
    ∃ b, groups.find? x.point.type = some b ∧ b.members.find? x.point.address = some x.handle

/-- The store still has what was found: if the handle resolves, then to the same point, which has
kept its station, address and type. -/
def Find.Stays (x : Find) (store : PointStore) : Prop :=
  ∀ i, store.resolve? x.handle = some i →
    i = x.id ∧ ∃ pt, store.point? i = some pt ∧ x.point.SameAs pt

/-- A live point that was found is the point of its number. -/
theorem Find.Stays.get?_eq_some_iff {x : Find} {store : PointStore} (hstays : x.Stays store)
    {pt : Point} : store.get? x.handle = some pt ↔
      store.resolve? x.handle = some x.id ∧ store.point? x.id = some pt := by
  rw [PointStore.get?, Option.bind_eq_some_iff]
  constructor
  · rintro ⟨i, hi, hpt⟩
    obtain ⟨rfl, -⟩ := hstays i hi
    exact ⟨hi, hpt⟩
  · exact fun h => ⟨x.id, h⟩

/-- A live point that was found is still of its station, address and type. -/
theorem Find.Stays.sameAs {x : Find} {store : PointStore} (hstays : x.Stays store) {pt : Point}
    (hget : store.get? x.handle = some pt) : x.point.SameAs pt := by
  obtain ⟨hi, hpt⟩ := hstays.get?_eq_some_iff.mp hget
  obtain ⟨-, pt', hpt', hsame⟩ := hstays x.id hi
  obtain rfl := Option.some.inj (hpt.symm.trans hpt')
  exact hsame

/-- What was found in a plant stays when the plant is tended. -/
theorem Plant.Tends.stays {p q : Plant} {written : Set PointId} (hpq : p.Tends written q) {x : Find}
    (hid : p.points.resolve? x.handle = some x.id) (hpt : p.points.point? x.id = some x.point) :
    x.Stays q.points := by
  intro i hi
  obtain rfl := Option.some.inj (hid.symm.trans (hpq.resolve? hi))
  obtain ⟨b, hb, hsame, -, -⟩ := hpq.point hpt
  exact ⟨rfl, b, hb, hsame⟩

/-- No removed point comes back when the plant is tended. -/
theorem Plant.Tends.contains {p q : Plant} {written : Set PointId} (hpq : p.Tends written q)
    {h : Handle} (hh : q.points.contains h = true) : p.points.contains h = true := by
  obtain ⟨i, hi⟩ := (Registry.contains_iff ..).mp hh
  exact (Registry.contains_iff ..).mpr ⟨i, hpq.resolve? hi⟩

namespace Gathers

variable {cause : Cause} {station : CommonAddress} {xs : List Find} {store : PointStore}
  {groups : Table TypeId Batch} {x : Find} {s : Server} {now : Int}

/-- Before anything was found there is nothing in the batches. -/
theorem empty : Gathers cause station [] store .empty :=
  ⟨fun h => (nomatch h), fun h => (nomatch h), fun _ h => (nomatch h)⟩

/-- Points that are removed drop out. -/
theorem mono (hg : Gathers cause station xs store groups) {later : PointStore}
    (hmono : ∀ h, later.contains h = true → store.contains h = true) :
    Gathers cause station xs later groups :=
  ⟨hg.isFor, hg.found, fun x hx hlater => hg.complete x hx (hmono _ hlater)⟩

/-- The batch of a type, a new one if there is none yet. -/
theorem isFor_getD (hg : Gathers cause station xs store groups) (type : TypeId) :
    ((groups.find? type).getD { cause }).IsFor cause station type := by
  cases hb : groups.find? type with
  | none => exact ⟨rfl, rfl, rfl, .inr ⟨rfl, rfl⟩⟩
  | some b => exact hg.isFor hb

/-- What is in the batch of a type was found, with its address and its type. -/
theorem found_getD (hg : Gathers cause station xs store groups) {type : TypeId}
    {a : ObjectAddress} {h : Handle}
    (hmem : ((groups.find? type).getD { cause }).members.find? a = some h) :
    ∃ x ∈ xs, x.handle = h ∧ x.point.type = type ∧ x.point.address = a := by
  cases hb : groups.find? type with
  | none =>
    rw [hb] at hmem
    cases hmem
  | some b =>
    rw [hb] at hmem
    exact hg.found hb hmem

/-- A batch finds no fault with a point that was found, if its address is new. -/
theorem fault?_eq_none (hg : Gathers cause station xs store groups)
    (hnew : ∀ y ∈ xs, y.point.address ≠ x.point.address) (hst : x.point.station = station)
    (hmon : x.point.type.isMonitoring = true) {pt : Point} (hsame : x.point.SameAs pt) :
    ((groups.find? x.point.type).getD { cause }).fault? store pt = none := by
  have hfree : ((groups.find? x.point.type).getD { cause }).members.find? pt.address = none := by
    rw [Option.eq_none_iff_forall_ne_some]
    intro h hmem
    obtain ⟨y, hy, -, -, haddr⟩ := hg.found_getD hmem
    exact hnew y hy (haddr.trans hsame.address)
  have hstation : station = pt.station := hst.symm.trans hsame.station.symm
  rcases (hg.isFor_getD x.point.type).kind with hkind | ⟨hkind, -⟩
  · simp [Batch.fault?, hkind, hsame.type, hmon, hstation, hfree]
  · simp [Batch.fault?, hkind, hsame.type, hmon]

/-- Putting a batch in the place of the one of its type. -/
theorem insert (hg : Gathers cause station xs store groups) {ys : List Find} {type : TypeId}
    {c : Batch} (hc : c.IsFor cause station type) (hsub : xs ⊆ ys)
    (hfound : ∀ {a h}, c.members.find? a = some h →
      ∃ y ∈ ys, y.handle = h ∧ y.point.type = type ∧ y.point.address = a)
    (hcomplete : ∀ y ∈ ys, store.contains y.handle = true →
      if y.point.type = type then c.members.find? y.point.address = some y.handle else y ∈ xs) :
    Gathers cause station ys store (groups.insert type c) where
  isFor {type' b} hb := by
    -- the batch is the new one, or the one that was there for its type
    by_cases htype : type' = type
    · obtain rfl := htype
      rw [Table.find?_insert_self] at hb
      exact Option.some.inj hb ▸ hc
    · rw [Table.find?_insert_of_ne _ _ htype] at hb
      exact hg.isFor hb
  found {type' b a h} hb hmem := by
    by_cases htype : type' = type
    · obtain rfl := htype
      rw [Table.find?_insert_self] at hb
      obtain rfl := Option.some.inj hb
      exact hfound hmem
    · rw [Table.find?_insert_of_ne _ _ htype] at hb
      obtain ⟨x, hx, hfacts⟩ := hg.found hb hmem
      exact ⟨x, hsub hx, hfacts⟩
  complete y hy hlive := by
    have hplace := hcomplete y hy hlive
    split at hplace
    · rename_i htype
      exact ⟨c, htype ▸ Table.find?_insert_self .., hplace⟩
    · rename_i htype
      rw [Table.find?_insert_of_ne _ _ htype]
      exact hg.complete y hplace hlive

/-- One more point is gathered, at an address that no other point had. -/
theorem collect (hg : Gathers cause station xs s.plant.points groups)
    (hnew : ∀ y ∈ xs, y.point.address ≠ x.point.address) (hst : x.point.station = station)
    (hmon : x.point.type.isMonitoring = true) (hstays : x.Stays s.plant.points) :
    Gathers cause station (xs ++ [x]) s.plant.points
      (s.collect cause groups x.point x.handle).2 := by
  have hfor := hg.isFor_getD x.point.type
  have hold {y : Find} (hy : y ∈ xs) (hlive : s.plant.points.contains y.handle = true)
      (htype : y.point.type = x.point.type) :
      ((groups.find? x.point.type).getD { cause }).members.find? y.point.address =
        some y.handle := by
    obtain ⟨b, hb, hmem⟩ := hg.complete y hy hlive
    rw [← htype, hb]
    exact hmem
  have hsub : xs ⊆ xs ++ [x] := fun y hy => List.mem_append_left _ hy
  rw [Server.collect]
  cases hadd : ((groups.find? x.point.type).getD { cause }).add s.plant.points x.handle with
  | ok c =>
    obtain ⟨pt, hget, -, rfl⟩ := (Batch.add_eq_ok_iff ..).mp hadd
    have hsame := hstays.sameAs hget
    have hkind : some (pt.type, pt.station) = some (x.point.type, station) := by
      rw [hsame.type, hsame.station, hst]
    refine hg.insert ⟨hfor.cause, hfor.test, hfor.negative, .inl hkind⟩ hsub ?_ fun y hy hlive => ?_
    · intro a h hmem
      rw [Table.find?_insert] at hmem
      split at hmem
      · rename_i ha
        exact ⟨x, by simp, Option.some.inj hmem, rfl,
          hsame.address.symm.trans (Ranked.rank_injective ha).symm⟩
      · obtain ⟨y, hy, hfacts⟩ := hg.found_getD hmem
        exact ⟨y, hsub hy, hfacts⟩
    · rcases List.mem_append.mp hy with hy | hy
      · split
        · rename_i htype
          rw [Table.find?_insert_of_ne _ _ (hsame.address ▸ hnew y hy)]
          exact hold hy hlive htype
        · exact hy
      · obtain rfl := List.mem_singleton.mp hy
        rw [if_pos rfl, ← hsame.address, Table.find?_insert_self]
  | error e =>
    -- the point is gone, for the batch would have found no fault with it
    have hgone : s.plant.points.contains x.handle ≠ true := by
      intro hlive
      obtain ⟨i, hi⟩ := (Registry.contains_iff ..).mp hlive
      obtain ⟨-, pt, hpt, hsame⟩ := hstays i hi
      have hget : s.plant.points.get? x.handle = some pt :=
        Option.bind_eq_some_iff.mpr ⟨i, hi, hpt⟩
      have hok := (Batch.add_eq_ok_iff ..).mpr
        ⟨pt, hget, hg.fault?_eq_none hnew hst hmon hsame, rfl⟩
      rw [hok] at hadd
      cases hadd
    refine hg.insert hfor hsub (fun hmem => ?_) fun y hy hlive => ?_
    · obtain ⟨y, hy, hfacts⟩ := hg.found_getD hmem
      exact ⟨y, hsub hy, hfacts⟩
    · rcases List.mem_append.mp hy with hy | hy
      · split
        · rename_i htype
          exact hold hy hlive htype
        · exact hy
      · obtain rfl := List.mem_singleton.mp hy
        exact absurd hlive hgone

/-- One more point is gathered when it has been prepared: callbacks may have removed points by then,
this one as well. -/
theorem collect_of_tends {p : Plant} {written : Set PointId}
    (hg : Gathers cause station xs p.points groups) (htends : p.Tends written s.plant)
    (hnew : ∀ y ∈ xs, y.point.address ≠ x.point.address) (hst : x.point.station = station)
    (hmon : x.point.type.isMonitoring = true) (hid : p.points.resolve? x.handle = some x.id)
    (hpt : p.points.point? x.id = some x.point) :
    Gathers cause station (xs ++ [x]) s.plant.points
      (s.collect cause groups x.point x.handle).2 :=
  (hg.mono fun _ => htends.contains).collect hnew hst hmon (htends.stays hid hpt)

/-! ## The items of a station -/

/-- The live points of the batches are the live points among those that were found. -/
theorem mem_points (hg : Gathers cause station xs store groups) {type : TypeId} {b : Batch}
    (hb : groups.find? type = some b) {pt : Point} :
    pt ∈ b.points store ↔
      ∃ x ∈ xs, x.point.type = type ∧ store.get? x.handle = some pt := by
  rw [Batch.mem_points]
  constructor
  · rintro ⟨a, h, hmem, hget⟩
    obtain ⟨x, hx, rfl, htype, -⟩ := hg.found hb hmem
    exact ⟨x, hx, htype, hget⟩
  · rintro ⟨x, hx, rfl, hget⟩
    obtain ⟨i, hi, -⟩ := Option.bind_eq_some_iff.mp hget
    obtain ⟨c, hc, hmem⟩ := hg.complete x hx ((Registry.contains_iff ..).mpr ⟨i, hi⟩)
    obtain rfl := Option.some.inj (hb.symm.trans hc)
    exact ⟨_, _, hmem, hget⟩

/-- The points of a batch are of its type and station. -/
theorem type_station (hg : Gathers cause station xs store groups) (hstays : ∀ x ∈ xs, x.Stays store)
    (hst : ∀ x ∈ xs, x.point.station = station) {type : TypeId} {b : Batch}
    (hb : groups.find? type = some b) {pt : Point} (hpt : pt ∈ b.points store) :
    pt.type = type ∧ pt.station = station := by
  obtain ⟨x, hx, rfl, hget⟩ := (hg.mem_points hb).mp hpt
  have hsame := (hstays x hx).sameAs hget
  exact ⟨hsame.type, hsame.station.trans (hst x hx)⟩

/-- The items of the batches are those of the live points that were found. -/
theorem mem_items (hg : Gathers cause station xs store groups) (hstays : ∀ x ∈ xs, x.Stays store)
    {item : Item} :
    item ∈ groups.values.flatMap (·.items store now) ↔
      ∃ x ∈ xs, ∃ pt, store.resolve? x.handle = some x.id ∧ store.point? x.id = some pt ∧
        item = pt.item now := by
  constructor
  · intro hitem
    obtain ⟨b, hb, hitem⟩ := List.mem_flatMap.mp hitem
    obtain ⟨⟨type, _⟩, he, rfl⟩ := List.mem_map.mp hb
    obtain ⟨pt, hpt, rfl⟩ := List.mem_map.mp hitem
    obtain ⟨x, hx, -, hget⟩ := (hg.mem_points ((Table.mem_iff_find? ..).mp he)).mp hpt
    obtain ⟨hi, hp⟩ := (hstays x hx).get?_eq_some_iff.mp hget
    exact ⟨x, hx, pt, hi, hp, rfl⟩
  · rintro ⟨x, hx, pt, hi, hp, rfl⟩
    have hget := (hstays x hx).get?_eq_some_iff.mpr ⟨hi, hp⟩
    obtain ⟨b, hb, -⟩ := hg.complete x hx ((Registry.contains_iff ..).mpr ⟨x.id, hi⟩)
    refine List.mem_flatMap.mpr ⟨b, ?_, ?_⟩
    · exact List.mem_map.mpr ⟨_, (Table.mem_iff_find? ..).mpr hb, rfl⟩
    · exact List.mem_map.mpr ⟨pt, (hg.mem_points hb).mpr ⟨x, hx, rfl, hget⟩, rfl⟩

/-- The items of a batch are in the order of their addresses. -/
theorem pairwise_points (hg : Gathers cause station xs store groups)
    (hstays : ∀ x ∈ xs, x.Stays store) {type : TypeId} {b : Batch}
    (hb : groups.find? type = some b) :
    (b.points store).Pairwise fun x y => x.address < y.address := by
  refine b.pairwise_points fun hmem hget => ?_
  obtain ⟨x, hx, rfl, -, haddr⟩ := hg.found hb hmem
  exact ((hstays x hx).sameAs hget).address.trans haddr

/-- The items of the batches are in the order of types and addresses. -/
theorem pairwise_items (hg : Gathers cause station xs store groups)
    (hstays : ∀ x ∈ xs, x.Stays store) (hst : ∀ x ∈ xs, x.point.station = station) :
    (groups.values.flatMap (·.items store now)).Pairwise Item.Before := by
  rw [Table.values, List.flatMap_map, List.pairwise_flatMap]
  constructor
  · rintro ⟨type, b⟩ he
    have hb := (Table.mem_iff_find? ..).mp he
    refine List.pairwise_map.mpr ((hg.pairwise_points hstays hb).imp_of_mem ?_)
    intro x y hx hy hlt
    obtain ⟨hxtype, hxst⟩ := hg.type_station hstays hst hb hx
    obtain ⟨hytype, hyst⟩ := hg.type_station hstays hst hb hy
    exact .inr ⟨hxst.trans hyst.symm, .inr ⟨hxtype.trans hytype.symm, hlt⟩⟩
  · refine groups.ascending.imp_of_mem fun {e f} he hf hlt x hx y hy => ?_
    obtain ⟨a, ha, rfl⟩ := List.mem_map.mp hx
    obtain ⟨b, hb, rfl⟩ := List.mem_map.mp hy
    obtain ⟨hatype, hast⟩ := hg.type_station hstays hst ((Table.mem_iff_find? ..).mp he) ha
    obtain ⟨hbtype, hbst⟩ := hg.type_station hstays hst ((Table.mem_iff_find? ..).mp hf) hb
    refine .inr ⟨hast.trans hbst.symm, .inl ?_⟩
    show a.type.code < b.type.code
    rw [UInt8.lt_iff_toNat_lt, hatype, hbtype]
    exact hlt

end Gathers

/-! ## The frames of a batch -/

/-- A frame **reports** for a cause: it says something about points of a station. -/
structure Frame.Reports (f : Frame) (cause : Cause) (station : CommonAddress)
    (originator : Originator) : Prop where
  objects : f.objects ≠ []
  station : f.station = station
  cause : f.cause = cause
  originator : f.originator = originator
  test : f.test = false
  negative : f.negative = false

namespace Batch

variable {b : Batch} {store : PointStore}

/-- A batch that has no points has none. -/
theorem points_eq_nil (h : b.hasPoints store = false) : b.points store = [] := by
  rw [hasPoints, decide_eq_false_iff_not, Nat.not_lt, Nat.le_zero, size, liveAddresses,
    List.length_map, List.length_eq_zero_iff, List.filter_eq_nil_iff] at h
  rw [points, List.filterMap_eq_nil_iff]
  intro handle hmem
  obtain ⟨e, he, rfl⟩ := List.mem_map.mp hmem
  have hgone : store.resolve? e.2 = none := by
    cases hr : store.resolve? e.2 with
    | none => rfl
    | some i => exact absurd ((Registry.contains_iff ..).mpr ⟨i, hr⟩) (h e he)
  rw [PointStore.get?, hgone]
  rfl

variable {cause : Cause} {station : CommonAddress} {type : TypeId}

/-- The frames of a batch report, leave out nothing and say what its live points are. -/
theorem IsFor.frames (hb : b.IsFor cause station type)
    (hpoints : ∀ pt ∈ b.points store, pt.type = type ∧ pt.station = station) (now : Int)
    (originator : Originator) :
    (b.frames store now originator).2 = [] ∧
      (b.frames store now originator).1.flatMap (·.items) = b.items store now ∧
      ∀ f ∈ (b.frames store now originator).1, f.Reports cause station originator := by
  rcases hb.kind with hkind | ⟨hkind, hnone⟩
  · obtain ⟨hlost, hobjects, hframes⟩ := frames_spec hkind store now originator
    refine ⟨hlost, ?_, fun f hf => ?_⟩
    · -- the frames carry the points in order, and each one shows its point
      calc (b.frames store now originator).1.flatMap (·.items)
          = (b.frames store now originator).1.flatMap fun f =>
              f.objects.map (⟨station, type, ·⟩) := by
            refine List.flatMap_congr fun f hf => ?_
            obtain ⟨-, htype, hst, -⟩ := hframes f hf
            rw [Frame.items, htype, hst]
        _ = ((b.frames store now originator).1.flatMap (·.objects)).map (⟨station, type, ·⟩) :=
            List.map_flatMap.symm
        _ = (b.points store).map fun pt => ⟨station, type, pt.shown now⟩ := by
            rw [hobjects, List.map_map]
            rfl
        _ = b.items store now := List.map_congr_left fun pt hpt => by
            rw [Point.item, (hpoints pt hpt).1, (hpoints pt hpt).2]
    · obtain ⟨hsome, -, hst, horig, hcause, htest, hneg⟩ := hframes f hf
      exact ⟨hsome, hst, hcause.trans hb.cause, horig, htest.trans hb.test,
        hneg.trans hb.negative⟩
  · -- an empty batch has no type, no frames and no points
    rw [Batch.frames, hkind, items, points, hnone]
    exact ⟨rfl, rfl, fun _ hf => absurd hf List.not_mem_nil⟩

end Batch

end Telecontrol
