import Telecontrol.Proofs.Generations
import Telecontrol.Proofs.WellFormed

/-! # Stations own their points

No change of the plant exchanges the point that is registered at an address for another one: the
address is vacant for a moment in between. As long as fewer than 2^32 points were made, every handle
that a station lists belongs to it: if it resolves, it resolves to the point of that station at that
address.

Main statements: `Plant.Change.registered?`, and for visited servers `Server.Visited.sound` and
`Server.Visited.orderly`. -/

namespace Telecontrol

namespace Plant

variable {p q r : Plant} {now : Int} {id : StationId} {i j : PointId} {a : ObjectAddress}
  {k : CommonAddress × ObjectAddress} {h : Handle}

/-! ## Registered points -/

/-- The point that is **registered** at an address: the live point that the station there lists. -/
def registered? (p : Plant) (k : CommonAddress × ObjectAddress) : Option PointId :=
  (p.find? k.1).bind fun id => p.pointId? id k.2

/-- A point is registered where a station on the roster lists a handle that resolves to it. -/
theorem registered?_eq_some_iff : p.registered? k = some i ↔
    ∃ id h, p.find? k.1 = some id ∧ p.handle? id k.2 = some h ∧ p.points.resolve? h = some i := by
  simp only [registered?, pointId?, Option.bind_eq_some_iff]
  constructor
  · rintro ⟨id, hid, h, hh, hi⟩
    exact ⟨id, h, hid, hh, hi⟩
  · rintro ⟨id, h, hid, hh, hi⟩
    exact ⟨id, hid, h, hh, hi⟩

/-- A plant is **orderly** when each live point that a station on the roster lists is a point of
that station at that address. -/
def Orderly (p : Plant) : Prop :=
  ∀ {ca id a h i}, p.find? ca = some id → p.handle? id a = some h → p.points.resolve? h = some i →
    ∃ pt, p.points.point? i = some pt ∧ pt.station = ca ∧ pt.address = a

/-! ## Stations that are written -/

/-- Writing to a station writes to no other. -/
theorem station_modifyStation (p : Plant) (id id' : StationId) (f : Station → Station) :
    (p.modifyStation id f).station id' =
      if id = id' ∧ id < p.stations.size then f (p.station id') else p.station id' := by
  rw [station, modifyStation, Array.getElem?_modify, station]
  by_cases hid : id = id'
  · subst hid
    rw [if_pos rfl]
    by_cases hlt : id < p.stations.size
    · rw [if_pos ⟨rfl, hlt⟩, Array.getElem?_eq_getElem hlt]
      rfl
    · rw [if_neg fun h => hlt h.2, Array.getElem?_eq_none (Nat.le_of_not_lt hlt)]
      rfl
  · rw [if_neg hid, if_neg fun h => hid h.1]

/-- A station that was never made lists nothing. -/
theorem lt_of_handle? (hh : p.handle? id a = some h) : id < p.stations.size := by
  by_contra hlt
  rw [handle?, station, Array.getElem?_eq_none (Nat.le_of_not_lt hlt)] at hh
  cases hh

/-! ## Plants that only lose points -/

/-- A plant **shrinks** to another when handles are given up, entries of stations and of the roster
are dropped, and nothing is added. -/
structure Shrinks (p q : Plant) : Prop where
  points : q.points.points = p.points.points
  registry : ∃ hs, q.points.registry = p.points.registry.removeAll hs
  size : q.stations.size = p.stations.size
  address : ∀ id, (q.station id).address = (p.station id).address
  listed : ∀ {id a h}, q.handle? id a = some h → p.handle? id a = some h
  roster : ∀ {ca id}, q.find? ca = some id → p.find? ca = some id

namespace Shrinks

/-- A plant that stays as it is shrinks to itself. -/
theorem refl (p : Plant) : p.Shrinks p :=
  ⟨rfl, ⟨[], rfl⟩, rfl, fun _ => rfl, fun h => h, fun h => h⟩

/-- Losses follow each other. -/
theorem trans (hpq : p.Shrinks q) (hqr : q.Shrinks r) : p.Shrinks r where
  points := hqr.points.trans hpq.points
  registry := by
    obtain ⟨hs, hhs⟩ := hpq.registry
    obtain ⟨hs', hhs'⟩ := hqr.registry
    exact ⟨hs ++ hs', by rw [hhs', hhs, Registry.removeAll, Registry.removeAll, Registry.removeAll,
      List.foldl_append]⟩
  size := hqr.size.trans hpq.size
  address id := (hqr.address id).trans (hpq.address id)
  listed h := hpq.listed (hqr.listed h)
  roster h := hpq.roster (hqr.roster h)

/-- What resolves resolved to the same point before. -/
theorem resolve? (hpq : p.Shrinks q) (hi : q.points.resolve? h = some i) :
    p.points.resolve? h = some i := by
  obtain ⟨hs, hhs⟩ := hpq.registry
  rw [PointStore.resolve?, hhs, Registry.get?_removeAll] at hi
  split at hi
  · cases hi
  · exact hi

/-- What is registered was registered before. -/
theorem registered? (hpq : p.Shrinks q) (hi : q.registered? k = some i) :
    p.registered? k = some i := by
  obtain ⟨id, h, hid, hh, hr⟩ := registered?_eq_some_iff.mp hi
  exact registered?_eq_some_iff.mpr ⟨id, h, hpq.roster hid, hpq.listed hh, hpq.resolve? hr⟩

/-- A station loses entries, and their handles are given up. -/
theorem of_modifyStation (p : Plant) (id : StationId)
    {f : Table ObjectAddress Handle → Table ObjectAddress Handle}
    (hf : ∀ {t a h}, (f t).find? a = some h → t.find? a = some h) (hs : List Handle) :
    p.Shrinks { p.modifyStation id fun s => { s with points := f s.points } with
      points := p.points.removeAll hs } where
  points := rfl
  registry := ⟨hs, rfl⟩
  size := Array.size_modify
  address id' := by
    show ((p.modifyStation id _).station id').address = _
    rw [station_modifyStation]
    split <;> rfl
  listed {id' a h} hh := by
    have hh : ((p.modifyStation id fun s =>
        { s with points := f s.points }).station id').handle? a = some h := hh
    rw [station_modifyStation] at hh
    split at hh
    · exact hf hh
    · exact hh
  roster hr := hr

/-- Clearing a station shrinks the plant. -/
theorem clear (p : Plant) (id : StationId) : p.Shrinks (p.clear id) :=
  of_modifyStation p id (f := fun _ => .empty) (fun hh => nomatch hh) _

/-- So does abandoning a station. -/
theorem abandon (p : Plant) (id : StationId) : p.Shrinks (p.abandon id) := by
  rw [Plant.abandon]
  split
  · exact refl p
  · exact clear p id

/-- Stations are taken off the roster. -/
theorem of_roster (p : Plant) {roster : Table CommonAddress StationId}
    (hr : ∀ {ca id}, roster.find? ca = some id → p.roster.find? ca = some id) :
    p.Shrinks { p with roster } :=
  ⟨rfl, ⟨[], rfl⟩, rfl, fun _ => rfl, fun h => h, hr⟩

/-- So does removing a point from a station. -/
theorem removePoint (p : Plant) (id : StationId) (a : ObjectAddress) :
    p.Shrinks (p.removePoint id a).1 := by
  rw [Plant.removePoint]
  split
  · exact refl p
  · rename_i h _
    refine of_modifyStation p id (f := (·.erase a)) (fun {t a' h'} hh => ?_) [h]
    rw [Table.find?_erase] at hh
    split at hh
    · cases hh
    · exact hh

end Shrinks

/-- Every change of the plant takes something away, or adds a station or a point. -/
theorem Change.cases (hc : p.Change now q) : p.Shrinks q ∨
    (∃ ca id, p.addStation ca = .ok (q, id)) ∨
      ∃ id spec h, p.addPoint id now spec = .ok (q, h) := by
  cases hc with
  | addStation ha => exact .inr (.inl ⟨_, _, ha⟩)
  | addPoint ha => exact .inr (.inr ⟨_, _, _, ha⟩)
  | @removeStation _ ca hr =>
    obtain ⟨id, -, rfl⟩ := Option.map_eq_some_iff.mp hr
    -- the entry leaves the roster, and the points of the station are given up
    refine .inl ((Shrinks.of_roster p fun {ca' id'} hf => ?_).trans (.clear _ id))
    rw [Table.find?_erase] at hf
    split at hf
    · cases hf
    · exact hf
  | keep id => exact .inl ⟨rfl, ⟨[], rfl⟩, rfl, fun _ => rfl, fun h => h, fun h => h⟩
  | release id =>
    -- one hold less, and perhaps the points of the station are given up
    have hrelease : p.Shrinks { p with kept := p.kept.erase id } :=
      ⟨rfl, ⟨[], rfl⟩, rfl, fun _ => rfl, fun h => h, fun h => h⟩
    exact .inl (hrelease.trans (.abandon _ id))
  | removePoint id a => exact .inl (.removePoint p id a)
  | vacate h => exact .inl ⟨rfl, ⟨[h], rfl⟩, rfl, fun _ => rfl, fun h => h, fun h => h⟩
  | dissolve =>
    -- the roster is emptied, and each station that nobody keeps is given up
    refine .inl (List.foldlRecOn (motive := p.Shrinks) _ _ ?_ fun u hu id _ => ?_)
    · exact .of_roster p fun hf => nomatch hf
    · exact hu.trans (.abandon u id)

/-! ## What is added -/

/-- A station that is added lists nothing, and the others are as before. -/
theorem handle?_addStation {ca : CommonAddress} {new : StationId}
    (ha : p.addStation ca = .ok (q, new)) (id : StationId) (a : ObjectAddress) :
    q.handle? id a = p.handle? id a := by
  obtain ⟨-, -, rfl, rfl⟩ := (addStation_eq_ok_iff ..).mp ha
  rw [handle?, station, handle?, station, Array.getElem?_push]
  split
  · rename_i hid
    rw [hid, Array.getElem?_eq_none (Nat.le_refl _)]
    rfl
  · rfl

/-- A point that is accepted is made and listed. -/
theorem eq_enlist {spec : PointSpec} {new : StationId} {h' : Handle}
    (ha : p.addPoint new now spec = .ok (q, h')) : q = (p.enlist new now spec).1 :=
  congrArg Prod.fst ((addPoint_eq_ok_iff ..).mp ha).2.2

/-- The handles that stations list after a point was added. -/
theorem handle?_enlist {spec : PointSpec} {new : StationId}
    (hh : (p.enlist new now spec).1.handle? id a = some h) :
    p.handle? id a = some h ∨
      id = new ∧ a = spec.address ∧
        h = (p.points.insert (.ofSpec (p.station new).address now spec)).2 := by
  have hh : ((p.modifyStation new _).station id).handle? a = some h := hh
  rw [station_modifyStation] at hh
  split at hh
  · rename_i hid
    rw [Station.handle?, Table.find?_insert] at hh
    split at hh
    · rename_i ha
      exact .inr ⟨hid.1.symm, Ranked.rank_injective ha, (Option.some.inj hh).symm⟩
    · exact .inl hh
  · exact .inl hh

/-- A point is added where nothing was listed, so that what stations list stays. -/
theorem handle?_addPoint {spec : PointSpec} {new : StationId} {h' : Handle}
    (ha : p.addPoint new now spec = .ok (q, h')) (hh : p.handle? id a = some h) :
    q.handle? id a = some h := by
  have hfree := ((addPoint_eq_ok_iff ..).mp ha).2.1
  obtain rfl := eq_enlist ha
  show ((p.modifyStation new _).station id).handle? a = some h
  rw [station_modifyStation]
  split
  · rename_i hid
    rw [Station.handle?, Table.find?_insert, if_neg]
    · exact hh
    -- the address was not listed, but this one is
    · intro heq
      rw [← hid.1] at hh
      rw [Station.lists, Table.contains, ← Ranked.rank_injective heq, ← Station.handle?,
        ← handle?, hh] at hfree
      cases hfree
  · exact hh

/-- No change exchanges the point that is registered at an address for another one. -/
theorem Change.registered? (hs : p.points.registry.Sound) (hc : p.Change now q)
    (hi : p.registered? k = some i) : q.registered? k = none ∨ q.registered? k = some i := by
  obtain ⟨id, h, hid, hh, hr⟩ := registered?_eq_some_iff.mp hi
  rcases hc.cases with hshrink | ⟨ca, new, ha⟩ | ⟨new, spec, h', ha⟩
  · cases hq : q.registered? k with
    | none => exact .inl rfl
    | some j => exact .inr (hshrink.registered? hq ▸ hi)
  · refine .inr (registered?_eq_some_iff.mpr ⟨id, h, ?_, ?_, ?_⟩)
    · obtain ⟨-, hnew, -, rfl⟩ := (addStation_eq_ok_iff ..).mp ha
      refine (Table.find?_insert_of_ne _ _ fun heq => ?_).trans hid
      rw [Table.contains, ← heq, ← find?, hid] at hnew
      cases hnew
    · rw [handle?_addStation ha, hh]
    · obtain ⟨-, -, -, rfl⟩ := (addStation_eq_ok_iff ..).mp ha
      exact hr
  · refine .inr (registered?_eq_some_iff.mpr ⟨id, h, ?_, handle?_addPoint ha hh, ?_⟩)
    · obtain rfl := eq_enlist ha
      exact hid
    · obtain rfl := eq_enlist ha
      exact hs.get?_insert_of_get? _ hr

/-! ## Orderly plants -/

/-- A change leaves the handles sound. -/
theorem Change.sound (hs : p.points.registry.Sound) (hc : p.Change now q) :
    q.points.registry.Sound := by
  rcases hc.cases with hshrink | ⟨ca, new, ha⟩ | ⟨new, spec, h', ha⟩
  · obtain ⟨hs', hhs⟩ := hshrink.registry
    rw [hhs]
    exact hs.removeAll hs'
  · obtain ⟨-, -, -, rfl⟩ := (addStation_eq_ok_iff ..).mp ha
    exact hs
  · obtain rfl := eq_enlist ha
    exact hs.insert _

/-- A plant is **tidy** when its handles are in order: the generations do not exceed the number of
points that were made, and every handle that a station lists was given out for that station and
address. -/
structure Tidy (p : Plant) : Prop where
  sound : p.points.registry.Sound
  within : p.points.registry.Within p.points.points.size
  known : ∀ {h i}, p.points.resolve? h = some i → i < p.points.points.size
  rostered : ∀ {ca id}, p.find? ca = some id → id < p.stations.size ∧ (p.station id).address = ca
  issued : ∀ {id a h}, p.handle? id a = some h → p.points.registry.Issued h
  own : ∀ {id a h i pt}, p.handle? id a = some h → p.points.resolve? h = some i →
    p.points.point? i = some pt → pt.station = (p.station id).address ∧ pt.address = a

/-- In a tidy plant stations own what they list. -/
theorem Tidy.orderly (ht : p.Tidy) : p.Orderly := by
  intro ca id a h i hid hh hi
  have hpt := Array.getElem?_eq_getElem (ht.known hi)
  obtain ⟨hst, haddr⟩ := ht.own hh hi hpt
  exact ⟨_, hpt, hst.trans (ht.rostered hid).2, haddr⟩

/-- A plant that is empty is tidy. -/
theorem tidy_empty : Plant.empty.Tidy where
  sound := Registry.sound_empty
  within := Registry.within_empty
  known {h _} hi := nomatch (Registry.get?_empty h).symm.trans hi
  rostered h := nomatch h
  issued h := nomatch lt_of_handle? h
  own h := nomatch lt_of_handle? h

/-- What is taken away leaves a plant tidy. -/
theorem Shrinks.tidy (hpq : p.Shrinks q) (hlt : p.points.points.size < 2 ^ 32) (ht : p.Tidy) :
    q.Tidy := by
  obtain ⟨hs, hhs⟩ := hpq.registry
  refine ⟨?_, ?_, fun hi => ?_, fun hid => ?_, fun hh => ?_, fun hh hi hpt => ?_⟩
  · rw [hhs]
    exact ht.sound.removeAll hs
  · rw [hhs, hpq.points]
    exact ht.within.removeAll hlt hs
  · rw [hpq.points]
    exact ht.known (hpq.resolve? hi)
  · rw [hpq.size, hpq.address]
    exact ht.rostered (hpq.roster hid)
  · rw [hhs]
    exact (ht.issued (hpq.listed hh)).removeAll ht.within hlt hs
  · rw [hpq.address]
    rw [PointStore.point?, hpq.points] at hpt
    exact ht.own (hpq.listed hh) (hpq.resolve? hi) hpt

/-- The stations that there are keep their addresses when another one is added. -/
theorem station_push {stations : Array Station} {new : Station} {points : PointStore}
    {roster : Table CommonAddress StationId} {kept : List StationId} (hid : id < stations.size) :
    (Plant.mk (stations.push new) roster kept points).station id =
      (stations[id]?).getD ⟨globalAddress, .empty⟩ := by
  rw [station, Array.getElem?_push, if_neg (Nat.ne_of_lt hid)]

/-- A station that is added lists no handles yet. -/
theorem tidy_addStation {ca : CommonAddress} {new : StationId} (ha : p.addStation ca = .ok (q, new))
    (ht : p.Tidy) : q.Tidy := by
  have hlisted := handle?_addStation ha
  obtain ⟨-, -, rfl, rfl⟩ := (addStation_eq_ok_iff ..).mp ha
  refine ⟨ht.sound, ht.within, ht.known, fun {ca' id} hid => ?_, fun hh => ?_,
    fun {id a h i pt} hh hi hpt => ?_⟩
  · rw [find?, Table.find?_insert] at hid
    -- the station is the new one, or one that was there
    split at hid
    · rename_i heq
      obtain rfl := Option.some.inj hid
      obtain rfl := Ranked.rank_injective heq
      refine ⟨by rw [Array.size_push]; exact Nat.lt_succ_self _, ?_⟩
      rw [station, Array.getElem?_push, if_pos rfl]
      rfl
    · obtain ⟨hlt, haddr⟩ := ht.rostered hid
      exact ⟨by rw [Array.size_push]; exact Nat.lt_succ_of_lt hlt,
        by rw [station_push hlt]; exact haddr⟩
  · rw [hlisted] at hh
    exact ht.issued hh
  · rw [hlisted] at hh
    rw [station_push (lt_of_handle? hh)]
    exact ht.own hh hi hpt

/-- A point that is added gets a handle for its own station and address. -/
theorem tidy_addPoint {spec : PointSpec} {new : StationId} {h' : Handle}
    (ha : p.addPoint new now spec = .ok (q, h')) (hlt : q.points.points.size < 2 ^ 32)
    (ht : p.Tidy) : q.Tidy := by
  obtain rfl := eq_enlist ha
  let pt : Point := .ofSpec (p.station new).address now spec
  have hsize : (p.enlist new now spec).1.points.points.size = p.points.points.size + 1 :=
    Array.size_push _
  have hslots : p.points.registry.slots.size < 2 ^ 32 :=
    Nat.lt_of_le_of_lt ht.within.size (by omega)
  have hresolve (h : Handle) : (p.enlist new now spec).1.points.resolve? h =
      if h = (p.points.insert pt).2 then some p.points.points.size else p.points.resolve? h :=
    ht.sound.get?_insert hslots _ h
  have hpoint (i : PointId) : (p.enlist new now spec).1.points.point? i =
      if i = p.points.points.size then some pt else p.points.point? i := Array.getElem?_push
  have haddress (id : StationId) :
      ((p.enlist new now spec).1.station id).address = (p.station id).address := by
    show ((p.modifyStation new _).station id).address = _
    rw [station_modifyStation]
    split <;> rfl
  refine ⟨ht.sound.insert _, ?_, fun {h i} hi => ?_, fun {ca id} hid => ?_, fun {id a h} hh => ?_,
    fun {id a h i b} hh hi hb => ?_⟩
  · rw [hsize]
    exact ht.within.insert ht.sound _
  · rw [hsize]
    rw [hresolve] at hi
    split at hi
    · rw [← Option.some.inj hi]
      exact Nat.lt_succ_self _
    · exact Nat.lt_succ_of_lt (ht.known hi)
  · rw [haddress]
    exact ⟨Nat.lt_of_lt_of_eq (ht.rostered hid).1 Array.size_modify.symm, (ht.rostered hid).2⟩
  · rcases handle?_enlist hh with hh | ⟨-, -, rfl⟩
    · exact (ht.issued hh).insert ht.sound _
    · exact .of_get? ((hresolve _).trans (if_pos rfl))
  · rw [haddress]
    rw [hresolve] at hi
    rw [hpoint] at hb
    rcases handle?_enlist hh with hh | ⟨rfl, rfl, rfl⟩
    -- a handle that was listed before is not the new one, which was never issued
    · have hne : h ≠ (p.points.insert pt).2 := by
        rintro rfl
        exact ht.sound.not_issued_insert hslots _ (ht.issued hh)
      rw [if_neg hne] at hi
      rw [if_neg (Nat.ne_of_lt (ht.known hi))] at hb
      exact ht.own hh hi hb
    · rw [if_pos rfl] at hi
      rw [if_pos (Option.some.inj hi).symm] at hb
      obtain rfl := Option.some.inj hb
      exact ⟨rfl, rfl⟩

/-- Changes never give a number of a point free. -/
theorem Change.size_le (hc : p.Change now q) : p.points.points.size ≤ q.points.points.size := by
  rcases hc.cases with hshrink | ⟨ca, new, ha⟩ | ⟨new, spec, h', ha⟩
  · rw [hshrink.points]
  · obtain ⟨-, -, -, rfl⟩ := (addStation_eq_ok_iff ..).mp ha
    exact Nat.le_refl _
  · obtain rfl := eq_enlist ha
    exact Nat.le_trans (Nat.le_succ _) (Nat.le_of_eq (Array.size_push _).symm)

/-- A change leaves a plant tidy while fewer than 2^32 points are ever made. -/
theorem Change.tidy (hc : p.Change now q) (hlt : q.points.points.size < 2 ^ 32) (ht : p.Tidy) :
    q.Tidy := by
  rcases hc.cases with hshrink | ⟨ca, new, ha⟩ | ⟨new, spec, h', ha⟩
  · exact hshrink.tidy (Nat.lt_of_le_of_lt hc.size_le hlt) ht
  · exact tidy_addStation ha ht
  · exact tidy_addPoint ha hlt ht

/-- Writing to a point what is not fixed leaves a plant tidy. -/
theorem tidy_modifyPoint (i : PointId) {f : Point → Point} (hf : ∀ pt : Point, pt.SameAs (f pt))
    (ht : p.Tidy) : (p.modifyPoint i f).Tidy := by
  have hsize : (p.modifyPoint i f).points.points.size = p.points.points.size := Array.size_modify
  refine ⟨ht.sound, by rw [hsize]; exact ht.within, fun hi => by rw [hsize]; exact ht.known hi,
    ht.rostered, ht.issued, fun {id a h j b} hh hj hb => ?_⟩
  have hb : (p.points.modify i f).point? j = some b := hb
  rw [PointStore.point?_modify] at hb
  split at hb
  · obtain ⟨c, hc, rfl⟩ := Option.map_eq_some_iff.mp hb
    rw [(hf c).station, (hf c).address]
    exact ht.own hh hj hc
  · exact ht.own hh hj hb

end Plant

/-! ## Visited servers -/

/-- A move leaves the plant alone, writes to a point, or changes the plant. -/
theorem Move.plant_cases {d : Deed} {s s' : Server} (h : Move d s s') :
    s'.plant = s.plant ∨
      (∃ id f, (∀ p : Point, p.SameAs (f p)) ∧ s'.plant = s.plant.modifyPoint id f) ∨
      s.plant.Change s.now s'.plant := by
  cases h with
  | note | handOver | callbacks | pass | grant => exact .inl rfl
  | defer => exact .inl (Server.Keeps.defer ..).plant
  | write _ id hf => exact .inr (.inl ⟨id, _, hf, rfl⟩)
  | plant _ hq => exact .inr (.inr hq)
  | attach _ id kind callback =>
    exact .inr (.inl ⟨id, (·.setCallback kind callback),
      fun _ => ⟨rfl, rfl, rfl, rfl, rfl, rfl⟩, rfl⟩)
  | connection => exact .inl (Server.Keeps.onConnectionEvent ..).plant
  | start h => exact .inl (Server.Keeps.start h).plant
  | stop => exact .inl (Server.Keeps.stop s).plant
  | stopExecutor => exact .inl (Server.Keeps.stopExecutor s).plant
  | take => exact .inl (Server.Keeps.undertake ..).plant
  | deactivate => exact .inl (Server.Keeps.deactivate ..).plant
  | @apply _ c m _ id =>
    exact .inr (.inl ⟨id, (·.apply s.now m), fun _ => ⟨rfl, rfl, rfl, rfl, rfl, rfl⟩, rfl⟩)
  | conclude h => exact .inl (Server.Keeps.concludeExecute _ _ h.station).plant

namespace Server

variable {s : Server}

/-- The registry of a visited server is sound. -/
theorem Visited.sound (h : s.Visited) : s.plant.points.registry.Sound := by
  induction h with
  | new h =>
    obtain rfl := new_eq_ok h
    exact Registry.sound_empty
  | move _ hm ih =>
    rcases hm.plant_cases with heq | ⟨_, _, -, heq⟩ | hc
    · rwa [heq]
    · rw [heq]
      exact ih
    · exact hc.sound ih

/-- The plant of a visited server is tidy, as long as no generation can have wrapped. -/
theorem Visited.tidy (h : s.Visited) (hlt : s.plant.points.points.size < 2 ^ 32) :
    s.plant.Tidy := by
  induction h with
  | new h =>
    obtain rfl := new_eq_ok h
    exact Plant.tidy_empty
  | move _ hm ih =>
    rcases hm.plant_cases with heq | ⟨id, f, hf, heq⟩ | hc
    · rw [heq] at hlt ⊢
      exact ih hlt
    · rw [heq] at hlt ⊢
      exact Plant.tidy_modifyPoint id hf (ih (Array.size_modify ▸ hlt))
    · exact hc.tidy hlt (ih (Nat.lt_of_le_of_lt hc.size_le hlt))

/-- In a visited server stations own what they list, as long as no generation can have wrapped. -/
theorem Visited.orderly (h : s.Visited) (hlt : s.plant.points.points.size < 2 ^ 32) :
    s.plant.Orderly := (h.tidy hlt).orderly

end Server

end Telecontrol
