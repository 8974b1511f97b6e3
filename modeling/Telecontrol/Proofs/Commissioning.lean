import Telecontrol.Config.Build
import Telecontrol.Proofs.Ownership
import Telecontrol.Proofs.Validity

/-! # Setting up a valid configuration

The check of a configuration and the set-up of a server judge by rules of their own. The check looks
at the whole configuration; the set-up adds one station or point after the other and knows only what
it has added. Nevertheless the set-up of a configuration without faults meets no refusal.

A plant is **laid** as some stations say when it has these stations and points and nothing else:
each of them has the number of its place in the order, and no slot was ever vacated. Each addition
leaves a plant that is laid as one station or point more says.

Main statements: `Plant.Laid.addStation`, `Plant.Laid.addPoint` (what one addition does) and
`ServerConfig.validity_exact`. -/

namespace Telecontrol

/-! ## The order of points -/

/-- An element of a list that was made longer by one. -/
theorem getElem?_concat_eq_some_iff {α : Type} {l : List α} {a b : α} {i : Nat} :
    (l ++ [a])[i]? = some b ↔ l[i]? = some b ∨ i = l.length ∧ a = b := by
  rw [List.getElem?_append]
  split
  · rename_i hlt
    exact (or_iff_left fun h => Nat.ne_of_lt hlt h.1).symm
  · rename_i hlt
    rw [List.getElem?_eq_none (Nat.le_of_not_lt hlt), List.getElem?_singleton]
    by_cases hi : i = l.length
    · simp [hi]
    · rw [if_neg (by omega)]
      simp [hi]

/-- Where keys are distinct, an element has none of those before it. -/
theorem not_mem_of_nodup_concat {α κ : Type} {key : α → κ} {l later : List α} {a : α}
    (h : ((l ++ [a] ++ later).map key).Nodup) : key a ∉ l.map key := by
  rw [List.map_append, List.map_append] at h
  have hdistinct := (List.nodup_append.mp (List.nodup_append.mp h).1).2.2
  exact fun hmem => hdistinct _ hmem _ (List.mem_singleton_self _) rfl

/-- The **placement** of a point of a configuration: the number and the address of its station. -/
structure Placement where
  id : StationId
  station : CommonAddress
  point : PointConfig

/-- The point that is made for a placement. -/
def Placement.made (now : Int) (e : Placement) : Point := .ofSpec e.station now e.point.spec

namespace StationConfig

/-- The points of stations in the order in which they are made, when stations are numbered from a
number on. -/
def placements (id : StationId) : List StationConfig → List Placement
  | [] => []
  | s :: rest => s.points.map (⟨id, s.address, ·⟩) ++ placements (id + 1) rest

variable {sites : List StationConfig} {id : StationId} {ca : CommonAddress}

/-- The points of further stations follow those of the first ones. -/
theorem placements_append (id : StationId) (sites later : List StationConfig) :
    placements id (sites ++ later) =
      placements id sites ++ placements (id + sites.length) later := by
  induction sites generalizing id with
  | nil => rfl
  | cons s sites ih =>
    rw [List.cons_append, placements, placements, ih, List.append_assoc, List.length_cons,
      Nat.add_assoc id 1, Nat.add_comm 1]

/-- The last point of the last station is the last of all. -/
theorem placements_append_point (sites : List StationConfig) (ca : CommonAddress)
    (ps : List PointConfig) (q : PointConfig) :
    placements 0 (sites ++ [⟨ca, ps ++ [q]⟩]) =
      placements 0 (sites ++ [⟨ca, ps⟩]) ++ [⟨sites.length, ca, q⟩] := by
  rw [placements_append, placements_append, List.append_assoc, Nat.zero_add]
  simp only [placements, List.map_append, List.map_cons, List.map_nil, List.append_nil]

/-- A station without points places none. -/
theorem placements_append_station (sites : List StationConfig) (ca : CommonAddress) :
    placements 0 (sites ++ [⟨ca, []⟩]) = placements 0 sites := by
  rw [placements_append]
  exact List.append_nil _

/-- The placements are the points of the stations. -/
theorem mem_placements {e : Placement} : e ∈ placements id sites ↔
    ∃ k s, sites[k]? = some s ∧ e.id = id + k ∧ e.station = s.address ∧ e.point ∈ s.points := by
  induction sites generalizing id with
  | nil => exact iff_of_false List.not_mem_nil fun ⟨k, s, hs, _⟩ => by cases hs
  | cons s sites ih =>
    rw [placements, List.mem_append, ih, List.mem_map]
    constructor
    · rintro (⟨q, hq, rfl⟩ | ⟨k, t, ht, hid, hrest⟩)
      · exact ⟨0, s, rfl, rfl, rfl, hq⟩
      · exact ⟨k + 1, t, ht, hid.trans (Nat.succ_add id k), hrest⟩
    · rintro ⟨k, t, ht, hid, hstation, hq⟩
      cases k with
      | zero =>
        obtain rfl : s = t := Option.some.inj ht
        refine .inl ⟨e.point, hq, ?_⟩
        rw [← hstation, show id = e.id from hid.symm]
      | succ k => exact .inr ⟨k, t, ht, hid.trans (Nat.succ_add id k).symm, hstation, hq⟩

/-- The points made for the placements. -/
theorem map_made_placements (now : Int) (id : StationId) (sites : List StationConfig) :
    (placements id sites).map (Placement.made now) =
      sites.flatMap fun s => s.points.map fun q => .ofSpec s.address now q.spec := by
  induction sites generalizing id with
  | nil => rfl
  | cons s sites ih =>
    rw [placements, List.map_append, ih, List.map_map, List.flatMap_cons]
    rfl

/-- The placements are counted as the points are. -/
theorem length_placements (id : StationId) (sites : List StationConfig) :
    (placements id sites).length = sites.foldl (fun n s => n + s.points.length) 0 := by
  have hfrom (n : Nat) : n + (placements id sites).length =
      sites.foldl (fun n s => n + s.points.length) n := by
    induction sites generalizing id n with
    | nil => rfl
    | cons s sites ih =>
      rw [placements, List.length_append, List.length_map, ← Nat.add_assoc, ih, List.foldl_cons]
  rw [← hfrom, Nat.zero_add]

end StationConfig

/-! ## A registry that was only filled -/

namespace Registry

/-- The registry of so many items, none of which was ever given up: each is in the slot of its
number. -/
def filled (n : Nat) : Registry Nat :=
  ⟨((List.range n).map fun i => ⟨0, some i⟩).toArray, [], n⟩

/-- In a registry that was only filled the slot of each number is taken. -/
theorem slots_filled {n i : Nat} (hi : i < n) : (filled n).slots[i]? = some ⟨0, some i⟩ := by
  rw [filled, List.getElem?_toArray, List.getElem?_map, List.getElem?_range hi]
  rfl

/-- In a registry that was only filled the next item gets the next slot. -/
theorem insert_filled (n : Nat) :
    (filled n).insert n = (filled (n + 1), ⟨UInt32.ofNat n, 0⟩) := by
  simp [insert, filled, List.range_succ]

/-- As long as numbers fit into handles, each item is resolved to by the handle of its slot. -/
theorem get?_filled {n i : Nat} (hi : i < n) (hfit : i < 2 ^ 32) :
    (filled n).get? ⟨UInt32.ofNat i, 0⟩ = some i := by
  have hslot : (UInt32.ofNat i).toNat = i := UInt32.toNat_ofNat_of_lt' hfit
  rw [get?_eq_some_iff, hslot, slots_filled hi]

end Registry

/-! ## Plants that are laid -/

namespace Plant

open StationConfig (placements)

/-- A plant is **laid** as some stations say, its points having been made at a time. -/
structure Laid (p : Plant) (now : Int) (sites : List StationConfig) : Prop where
  size : p.stations.size = sites.length
  stations : ∀ id : StationId, (p.stations[id]?).map (·.address) = (sites.map (·.address))[id]?
  roster : ∀ {ca id}, p.find? ca = some id ↔ (sites.map (·.address))[id]? = some ca
  points : p.points.points = ((placements 0 sites).map (Placement.made now)).toArray
  registry : p.points.registry = .filled (placements 0 sites).length
  /-- A point is listed by its station under the handle of its slot. -/
  listed : ∀ {id a h}, p.handle? id a = some h ↔ ∃ n e, (placements 0 sites)[n]? = some e ∧
    e.id = id ∧ e.point.address = a ∧ h = ⟨UInt32.ofNat n, 0⟩

/-- An empty plant is laid as no stations say. -/
theorem laid_empty (now : Int) : Plant.empty.Laid now [] where
  size := rfl
  stations _ := rfl
  roster := iff_of_false (fun h => nomatch h) (fun h => nomatch h)
  points := rfl
  registry := rfl
  listed := iff_of_false (fun h => nomatch lt_of_handle? h) fun ⟨_, _, he, _⟩ => nomatch he

variable {p : Plant} {now : Int} {sites : List StationConfig} {s : StationConfig}
  {ca : CommonAddress} {ps : List PointConfig} {q : PointConfig} {id : StationId}

/-- Each station has the address of its place. -/
theorem Laid.address (hl : p.Laid now sites) (hs : sites[id]? = some s) :
    (p.station id).address = s.address := by
  have hstation := hl.stations id
  rw [List.getElem?_map, hs, Option.map_some] at hstation
  obtain ⟨st, hst, haddress⟩ := Option.map_eq_some_iff.mp hstation
  rw [station, hst, ← haddress]
  rfl

/-- A station at a new address is added. -/
theorem Laid.addStation (hl : p.Laid now sites) (hglobal : ca ≠ globalAddress)
    (hnew : ca ∉ sites.map (·.address)) :
    ∃ r, p.addStation ca = .ok (r, sites.length) ∧ r.Laid now (sites ++ [⟨ca, []⟩]) := by
  have hfind : p.find? ca = none := by
    refine Option.eq_none_iff_forall_ne_some.mpr fun id hid => ?_
    exact hnew (List.mem_of_getElem? (hl.roster.mp hid))
  have hadd := (addStation_eq_ok_iff p _ ca _).mpr
    ⟨hglobal, congrArg Option.isSome hfind, rfl, rfl⟩
  have hsites : List.map StationConfig.address (sites ++ [⟨ca, []⟩]) =
      sites.map StationConfig.address ++ [ca] :=
    List.map_append
  rw [← hl.size]
  refine ⟨_, hadd, ?_, fun id => ?_, fun {ca' id} => ?_, ?_, ?_, fun {id a h} => ?_⟩
  · rw [Array.size_push, hl.size, List.length_append]
    rfl
  · -- the last station is the new one
    rw [hsites, Array.getElem?_push, hl.size]
    split
    · rename_i hid
      rw [hid, ← List.length_map (f := (·.address)), List.getElem?_concat_length]
      rfl
    · rename_i hid
      rw [hl.stations]
      refine Option.ext fun ca' => ?_
      rw [getElem?_concat_eq_some_iff, List.length_map]
      exact (or_iff_left fun h => hid h.1).symm
  · show (p.roster.insert ca p.stations.size).find? ca' = some id ↔ _
    rw [hsites, Table.find?_insert, getElem?_concat_eq_some_iff, ← hl.roster, List.length_map,
      ← hl.size]
    -- the roster has one more entry, under an address that it had not
    split
    · rename_i hca
      obtain rfl := Ranked.rank_injective hca
      rw [hfind, Option.some.injEq]
      simp [eq_comm]
    · rename_i hca
      exact (or_iff_left fun h => hca (congrArg _ h.2.symm)).symm
  · rw [StationConfig.placements_append_station]
    exact hl.points
  · rw [StationConfig.placements_append_station]
    exact hl.registry
  · rw [handle?_addStation hadd, StationConfig.placements_append_station]
    exact hl.listed

/-- The handles that stations list after a point was added to a station that there is. -/
theorem handle?_enlist_eq {spec : PointSpec} (hid : id < p.stations.size) (id' : StationId)
    (a : ObjectAddress) : (p.enlist id now spec).1.handle? id' a =
      if id' = id ∧ a = spec.address then some (p.enlist id now spec).2 else p.handle? id' a := by
  show ((p.modifyStation id _).station id').handle? a = _
  rw [station_modifyStation]
  by_cases hsame : id' = id
  · subst hsame
    rw [if_pos ⟨rfl, hid⟩, Station.handle?, Table.find?_insert]
    exact if_congr ⟨fun h => ⟨rfl, Ranked.rank_injective h⟩, fun h => congrArg _ h.2⟩ rfl rfl
  · rw [if_neg fun h => hsame h.1.symm, if_neg fun h => hsame h.1]
    rfl

/-- The last station lists no point at an address that none of its points has. -/
theorem Laid.handle?_eq_none (hl : p.Laid now (sites ++ [⟨ca, ps⟩])) {a : ObjectAddress}
    (hnew : a ∉ ps.map (·.address)) : p.handle? sites.length a = none := by
  refine Option.eq_none_iff_forall_ne_some.mpr fun h hh => ?_
  obtain ⟨n, e, he, hid, ha, -⟩ := hl.listed.mp hh
  obtain ⟨k, s, hs, hk, -, hmem⟩ := StationConfig.mem_placements.mp (List.mem_of_getElem? he)
  obtain rfl : k = sites.length := (Nat.zero_add k).symm.trans (hk.symm.trans hid)
  rw [List.getElem?_concat_length] at hs
  obtain rfl := Option.some.inj hs
  exact hnew (ha ▸ List.mem_map_of_mem hmem)

/-- The last station is one of the plant. -/
theorem Laid.last_lt (hl : p.Laid now (sites ++ [⟨ca, ps⟩])) : sites.length < p.stations.size := by
  rw [hl.size, List.length_append]
  exact Nat.lt_succ_self _

/-- The next point gets the next slot. -/
theorem Laid.insert_eq (hl : p.Laid now sites) : p.points.registry.insert p.points.points.size =
    (.filled ((placements 0 sites).length + 1),
      ⟨UInt32.ofNat (placements 0 sites).length, 0⟩) := by
  rw [hl.registry, hl.points, List.size_toArray, List.length_map, Registry.insert_filled]

/-- A point that the last station enlists is listed as the last of all. -/
theorem Laid.listed_enlist (hl : p.Laid now (sites ++ [⟨ca, ps⟩]))
    (hnew : q.address ∉ ps.map (·.address)) {a : ObjectAddress} {h : Handle} :
    (p.enlist sites.length now q.spec).1.handle? id a = some h ↔
      ∃ n e, (placements 0 (sites ++ [⟨ca, ps ++ [q]⟩]))[n]? = some e ∧
        e.id = id ∧ e.point.address = a ∧ h = ⟨UInt32.ofNat n, 0⟩ := by
  have hhandle : (p.enlist sites.length now q.spec).2 =
      ⟨UInt32.ofNat (placements 0 (sites ++ [⟨ca, ps⟩])).length, 0⟩ :=
    congrArg Prod.snd hl.insert_eq
  rw [handle?_enlist_eq hl.last_lt, StationConfig.placements_append_point, hhandle]
  constructor
  · intro hh
    split at hh
    · rename_i hlast
      exact ⟨_, _, List.getElem?_concat_length, hlast.1.symm, hlast.2.symm,
        (Option.some.inj hh).symm⟩
    · obtain ⟨n, e, he, hrest⟩ := hl.listed.mp hh
      exact ⟨n, e, getElem?_concat_eq_some_iff.mpr (.inl he), hrest⟩
  · rintro ⟨n, e, he, rfl, rfl, rfl⟩
    rcases getElem?_concat_eq_some_iff.mp he with he | ⟨rfl, rfl⟩
    · have hh := hl.listed.mpr ⟨n, e, he, rfl, rfl, rfl⟩
      -- the address of the new point was not listed, but this one is
      rw [if_neg fun heq => ?_, hh]
      rw [heq.1, show e.point.address = q.address from heq.2, hl.handle?_eq_none hnew] at hh
      cases hh
    · exact if_pos ⟨rfl, rfl⟩

/-- An admissible point at a new address is added to the last station. -/
theorem Laid.addPoint (hl : p.Laid now (sites ++ [⟨ca, ps⟩])) (hadmissible : q.spec.Admissible)
    (hnew : q.address ∉ ps.map (·.address)) :
    ∃ r h, p.addPoint sites.length now q.spec = .ok (r, h) ∧
      r.Laid now (sites ++ [⟨ca, ps ++ [q]⟩]) := by
  have haddress : (p.station sites.length).address = ca := hl.address List.getElem?_concat_length
  have hadd := (addPoint_eq_ok_iff p (p.enlist sites.length now q.spec).1 _ now q.spec
    (p.enlist sites.length now q.spec).2).mpr
      ⟨hadmissible, congrArg Option.isSome (hl.handle?_eq_none hnew), rfl⟩
  have hsites : List.map StationConfig.address (sites ++ [⟨ca, ps ++ [q]⟩]) =
      List.map StationConfig.address (sites ++ [⟨ca, ps⟩]) := by
    rw [List.map_append, List.map_append]
    rfl
  have hplacements := StationConfig.placements_append_point sites ca ps q
  refine ⟨_, _, hadd, ?_, fun id => ?_, ?_, ?_, ?_, hl.listed_enlist hnew⟩
  · refine Array.size_modify.trans (hl.size.trans ?_)
    rw [List.length_append, List.length_append]
    rfl
  · -- the addresses of the stations are as before
    rw [hsites, ← hl.stations]
    show ((p.stations.modify sites.length _)[id]?).map _ = _
    rw [Array.getElem?_modify]
    split
    · rw [Option.map_map]
      rfl
    · rfl
  · rw [hsites]
    exact hl.roster
  · -- the new point comes last, as it does in the configuration
    show p.points.points.push (.ofSpec (p.station sites.length).address now q.spec) = _
    rw [haddress, hl.points, List.push_toArray, hplacements, List.map_append]
    rfl
  · rw [hplacements, List.length_append]
    exact congrArg Prod.fst hl.insert_eq

/-- Where a placed point is found. -/
theorem Laid.placed (hl : p.Laid now sites) {n : Nat} {e : Placement}
    (he : (placements 0 sites)[n]? = some e) : p.points.point? n = some (e.made now) ∧
      p.handle? e.id e.point.address = some ⟨UInt32.ofNat n, 0⟩ := by
  refine ⟨?_, hl.listed.mpr ⟨n, e, he, rfl, rfl, rfl⟩⟩
  rw [PointStore.point?, hl.points, List.getElem?_toArray, List.getElem?_map, he]
  rfl

end Plant

namespace StationConfig

variable {sites : List StationConfig} {s : StationConfig} {id : StationId}

/-- What is placed in a station is one of its points. -/
theorem of_mem_placements (hs : sites[id]? = some s) {e : Placement} (he : e ∈ placements 0 sites)
    (hid : e.id = id) : e.station = s.address ∧ e.point ∈ s.points := by
  obtain ⟨k, t, ht, hk, hrest⟩ := mem_placements.mp he
  obtain rfl : k = id := (Nat.zero_add k).symm.trans (hk.symm.trans hid)
  rwa [Option.some.inj (hs.symm.trans ht)]

/-- Each point of a station is placed in it. -/
theorem exists_placement (hs : sites[id]? = some s) {q : PointConfig} (hq : q ∈ s.points) :
    ∃ n : Nat, (placements 0 sites)[n]? = some ⟨id, s.address, q⟩ :=
  List.mem_iff_getElem?.mp (mem_placements.mpr ⟨id, s, hs, (Nat.zero_add id).symm, rfl, hq⟩)

end StationConfig

/-! ## The set-up -/

/-- What a valid configuration says of a point is admissible. -/
theorem PointConfig.Valid.admissible {q : PointConfig} (hq : q.Valid) : q.spec.Admissible where
  address_le := hq.address_le
  isPointType := hq.isPointType
  silent_of_isCommand := hq.silent_of_isCommand
  isSelectable_of_mode := hq.isSelectable_of_mode
  related_of_autoReturn h := (q.spec_autoReturn_eq_true_iff.mp h).1

section SetUp

variable {s : Server} {sites : List StationConfig} {ca : CommonAddress} {ps : List PointConfig}

/-- Valid points at distinct addresses are added to the last station, one after the other. -/
theorem PointConfig.addAll_of_laid (hl : s.plant.Laid s.now (sites ++ [⟨ca, ps⟩]))
    (later : List PointConfig) (hvalid : ∀ q ∈ later, q.Valid)
    (hnew : ((ps ++ later).map (·.address)).Nodup) :
    ∃ r, PointConfig.addAll s sites.length later = ({ s with plant := r }, none) ∧
      r.Laid s.now (sites ++ [⟨ca, ps ++ later⟩]) := by
  induction later generalizing s ps with
  | nil => exact ⟨s.plant, rfl, by rwa [List.append_nil]⟩
  | cons q later ih =>
    obtain ⟨hq, hvalid⟩ := List.forall_mem_cons.mp hvalid
    rw [List.append_cons ps q later] at hnew ⊢
    obtain ⟨r, h, hadd, hr⟩ := hl.addPoint hq.admissible (not_mem_of_nodup_concat hnew)
    have hserver : s.addPoint sites.length q.spec = .ok { s with plant := r } := by
      rw [Server.addPoint, hadd]
      rfl
    obtain ⟨r', hrest, hr'⟩ := ih (s := { s with plant := r }) hr hvalid hnew
    exact ⟨r', by rw [PointConfig.addAll, hserver]; exact hrest, hr'⟩

/-- Valid stations at distinct addresses are added with their points, one after the other. -/
theorem StationConfig.addAll_of_laid (hl : s.plant.Laid s.now sites) (later : List StationConfig)
    (hvalid : ∀ st ∈ later, st.address ≠ globalAddress ∧ st.Valid)
    (hnew : ((sites ++ later).map (·.address)).Nodup) :
    ∃ r j, StationConfig.addAll s later = ({ s with plant := r, journal := j }, none) ∧
      r.Laid s.now (sites ++ later) := by
  induction later generalizing s sites with
  | nil => exact ⟨s.plant, s.journal, rfl, by rwa [List.append_nil]⟩
  | cons st later ih =>
    -- the station, then its points, then the stations after it
    obtain ⟨⟨hglobal, hst⟩, hvalid⟩ := List.forall_mem_cons.mp hvalid
    rw [List.append_cons] at hnew ⊢
    obtain ⟨r, hadd, hr⟩ := hl.addStation hglobal (not_mem_of_nodup_concat hnew)
    let added := { s with plant := r }.report (.stationAdded st.address)
    have hserver : s.addStation st.address = .ok (added, sites.length) := by
      rw [Server.addStation, hadd]
      rfl
    obtain ⟨r', hpoints, hr'⟩ :=
      PointConfig.addAll_of_laid (s := added) hr st.points hst.point_valid hst.addresses_distinct
    let configured := { added with plant := r' }.report
      (.stationConfigured st.address (r'.station sites.length).size)
    obtain ⟨r'', j, hrest, hr''⟩ := ih (s := configured) hr' hvalid hnew
    refine ⟨r'', j, ?_, hr''⟩
    simp only [StationConfig.addAll, hserver, hpoints]
    exact hrest

end SetUp

/-! ## What is built -/

/-- A point of a configuration **describes** a point when they agree in all that a configuration
says. -/
structure PointConfig.Describes (q : PointConfig) (station : CommonAddress) (p : Point) : Prop where
  station : p.station = station
  address : p.address = q.address
  type : p.type = q.type
  reportInterval : p.reportInterval = q.reportInterval
  timerInterval : p.timerInterval = q.timerInterval
  mode : p.mode = q.mode
  related : p.related = q.related
  autoReturn : p.autoReturn = q.autoReturn

/-- In a valid station nothing is lost of what the configuration says of a point. -/
theorem StationConfig.Valid.describes {st : StationConfig} (hst : st.Valid) {q : PointConfig}
    (hq : q ∈ st.points) (now : Int) : q.Describes st.address (.ofSpec st.address now q.spec) := by
  refine ⟨rfl, rfl, rfl, rfl, rfl, rfl, rfl, ?_⟩
  show (q.related.isSome && q.autoReturn) = q.autoReturn
  cases hauto : q.autoReturn with
  | false => exact Bool.and_false _
  | true =>
    obtain ⟨related, hrelated, -⟩ := hst.returns_of_autoReturn q hq hauto
    rw [hrelated]
    rfl

namespace ServerConfig

/-- A server is **built** as a configuration says. -/
structure Built (c : ServerConfig) (s : Server) : Prop where
  options : s.options = c.options
  /-- The stations are those of the configuration, numbered in their order. -/
  stations : s.plant.stations.size = c.stations.length
  roster : ∀ ca id, s.plant.find? ca = some id ↔ ∃ st, c.stations[id]? = some st ∧ st.address = ca
  address : ∀ id st, c.stations[id]? = some st → (s.plant.station id).address = st.address
  /-- A station lists the addresses of its points and no others. -/
  listed : ∀ id st, c.stations[id]? = some st → ∀ a,
    (∃ h, s.plant.handle? id a = some h) ↔ ∃ q ∈ st.points, q.address = a
  /-- The points made are those of the configuration, in their order, with all that it says of
  them. -/
  points : s.plant.points.points.toList =
    c.stations.flatMap fun st => st.points.map fun q => .ofSpec st.address s.now q.spec
  described : ∀ st ∈ c.stations, ∀ q ∈ st.points,
    q.Describes st.address (.ofSpec st.address s.now q.spec)
  /-- They are all live, each in the slot of its number. -/
  live : s.plant.points.size = c.pointCount ∧
    ∀ n < c.pointCount, s.plant.points.registry.slots[n]? = some ⟨0, some n⟩
  /-- As long as there are handles for all of them, each is found at its address. -/
  found : c.pointCount ≤ 2 ^ 32 → ∀ id st, c.stations[id]? = some st → ∀ a p,
    (∃ n, s.plant.pointId? id a = some n ∧ s.plant.points.point? n = some p) ↔
      ∃ q ∈ st.points, q.address = a ∧ p = .ofSpec st.address s.now q.spec

variable {c : ServerConfig} {s : Server}

/-- A server whose plant is laid as a valid configuration says is built as it says. -/
theorem Valid.built (hc : c.Valid) (hoptions : s.options = c.options)
    (hl : s.plant.Laid s.now c.stations) : c.Built s := by
  have hcount : (StationConfig.placements 0 c.stations).length = c.pointCount :=
    StationConfig.length_placements 0 c.stations
  have hregistry : s.plant.points.registry = .filled c.pointCount := hcount ▸ hl.registry
  refine ⟨hoptions, hl.size, fun ca id => ?_, fun id st hst => hl.address hst,
    fun id st hst a => ?_, ?_, fun st hst q hq => (hc.station_valid st hst).describes hq s.now,
    ⟨?_, fun n hn => ?_⟩, fun hfit id st hst a p => ?_⟩
  · rw [hl.roster, List.getElem?_map, Option.map_eq_some_iff]
  · constructor
    · rintro ⟨h, hh⟩
      obtain ⟨n, e, he, hid, ha, -⟩ := hl.listed.mp hh
      have hq := (StationConfig.of_mem_placements hst (List.mem_of_getElem? he) hid).2
      exact ⟨e.point, hq, ha⟩
    · rintro ⟨q, hq, rfl⟩
      obtain ⟨n, he⟩ := StationConfig.exists_placement hst hq
      exact ⟨_, (hl.placed he).2⟩
  · rw [hl.points]
    exact StationConfig.map_made_placements s.now 0 c.stations
  · rw [PointStore.size, hregistry]
    rfl
  · rw [hregistry, Registry.slots_filled hn]
  · -- the handle of the slot in which a point is placed resolves to the point
    have hresolve {n : Nat} {e : Placement}
        (he : (StationConfig.placements 0 c.stations)[n]? = some e) :
        s.plant.points.resolve? ⟨UInt32.ofNat n, 0⟩ = some n := by
      have hn : n < c.pointCount := hcount ▸ (List.getElem?_eq_some_iff.mp he).1
      rw [PointStore.resolve?, hregistry]
      exact Registry.get?_filled hn (Nat.lt_of_lt_of_le hn hfit)
    constructor
    · rintro ⟨n, hn, hp⟩
      obtain ⟨h, hh, hi⟩ := Option.bind_eq_some_iff.mp hn
      obtain ⟨m, e, he, hid, ha, rfl⟩ := hl.listed.mp hh
      obtain rfl : m = n := Option.some.inj ((hresolve he).symm.trans hi)
      have hq := StationConfig.of_mem_placements hst (List.mem_of_getElem? he) hid
      refine ⟨e.point, hq.2, ha, ?_⟩
      rw [← hq.1]
      exact Option.some.inj (hp.symm.trans (hl.placed he).1)
    · rintro ⟨q, hq, rfl, rfl⟩
      obtain ⟨n, he⟩ := StationConfig.exists_placement hst hq
      exact ⟨n, Option.bind_eq_some_iff.mpr ⟨_, (hl.placed he).2, hresolve he⟩, (hl.placed he).1⟩

/-- A valid configuration is set up without a refusal. -/
theorem Valid.build (hc : c.Valid) (transport : Transport) (now : Int) :
    ∃ s plant journal, Server.new c.options transport now = .ok s ∧
      c.build s = ({ s with plant, journal }, none) ∧ c.Built { s with plant, journal } := by
  have htick : ¬ c.options.tickRate < minInterval := Nat.not_lt.mpr hc.minInterval_le
  have htimeout : ¬ c.options.selectTimeout = 0 := fun h =>
    hc.selectTimeout_ne_zero (UInt64.toNat_inj.mp h)
  have hnew : Server.new c.options transport now =
      .ok ((Server.init c.options transport now).report (.task .started)) := by
    rw [Server.new, if_neg htick, if_neg htimeout]
  obtain ⟨plant, journal, hbuild, hl⟩ := StationConfig.addAll_of_laid
    (s := (Server.init c.options transport now).report (.task .started)) (Plant.laid_empty now)
    c.stations (fun st hst => ⟨hc.station_ne_global st hst, hc.station_valid st hst⟩)
    hc.stations_distinct
  exact ⟨_, plant, journal, hnew, hbuild, hc.built rfl hl⟩

/-- **The check is exact and sufficient.** A configuration has no fault exactly when it is valid,
and then a server can be set up, and it has the stations and points of the configuration and no
others. -/
theorem validity_exact (c : ServerConfig) (transport : Transport) (now : Int) :
    (c.fault? = none ↔ c.Valid) ∧
      (c.fault? = none → ∃ s plant journal, Server.new c.options transport now = .ok s ∧
        c.build s = ({ s with plant, journal }, none) ∧ c.Built { s with plant, journal }) :=
  ⟨c.fault?_eq_none_iff, fun hfault => (c.fault?_eq_none_iff.mp hfault).build transport now⟩

/-- A command that returns a point which is described only after it, and another station with the
same address in it. -/
def sampleConfig : ServerConfig where
  stations := [
    { address := 1, points := [
      { address := 100, type := .C_SC_NA_1, mode := .selectAndExecute, related := some 10,
        autoReturn := true },
      { address := 10, type := .M_SP_NA_1, reportInterval := 1000 }] },
    { address := 2, points := [{ address := 10, type := .M_ME_NC_1 }] }]

/-- The sample configuration is valid and its server is built as it says; twice the same stations
are refused. -/
theorem sample_validity_exact : sampleConfig.Valid ∧
    (∃ s plant journal, Server.new sampleConfig.options (.recording {}) 0 = .ok s ∧
      sampleConfig.build s = ({ s with plant, journal }, none) ∧
      sampleConfig.Built { s with plant, journal }) ∧
    ¬ ({ sampleConfig with stations := sampleConfig.stations ++ sampleConfig.stations } :
      ServerConfig).Valid :=
  have hfault : sampleConfig.fault? = none := by decide +kernel
  ⟨(validity_exact sampleConfig (.recording {}) 0).1.mp hfault,
    (validity_exact sampleConfig (.recording {}) 0).2 hfault,
    fun h => absurd ((validity_exact _ (.recording {}) 0).1.mpr h) (by decide +kernel)⟩

end ServerConfig

end Telecontrol
