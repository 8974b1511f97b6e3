import Mathlib.Data.List.Nodup
import Telecontrol.Proofs.Ledger
import Telecontrol.Proofs.Ownership

/-! # The holdings of stations

Stations list handles, the registry keeps the points, and each of them can be changed without the
other: a station may outlive its place on the roster, a point may be given up behind the back of its
station, and slots are used again. What is requested of a plant either adds a station or a point, or
it strikes entries and gives up handles.

Main statements: `Plant.sheds_request` (which entries a request strikes and which handles it gives
up), `Plant.mem_given_iff` (handles are given up with the entries that are struck) and
`Plant.mem_entries`. -/

namespace Telecontrol

/-- What is listed in a table. -/
theorem Table.mem_values {κ α : Type} [Ranked κ] (t : Table κ α) (a : α) :
    a ∈ t.values ↔ ∃ k, t.find? k = some a := by
  rw [values, List.mem_map]
  constructor
  · rintro ⟨⟨k, b⟩, hmem, rfl⟩
    exact ⟨k, (t.mem_iff_find? k b).mp hmem⟩
  · rintro ⟨k, hk⟩
    exact ⟨(k, a), (t.mem_iff_find? k a).mpr hk, rfl⟩

namespace Plant

variable {p q : Plant} {id id' : StationId} {a a' : ObjectAddress} {ca : CommonAddress}
  {h h' : Handle} {i j : PointId} {hs : List Handle}

/-! ## Requests -/

/-- What is **requested** of a plant. -/
inductive Request where
  | addStation (station : CommonAddress)
  | removeStation (station : CommonAddress)
  | keep (id : StationId)
  | release (id : StationId)
  | addPoint (id : StationId) (now : Int) (spec : PointSpec)
  | removePoint (id : StationId) (address : ObjectAddress)
  /-- A point is given up behind its station's back. -/
  | vacate (handle : Handle)

/-- A request names a station that is listed or kept; only who keeps a station lets it go. -/
def Request.Possible (p : Plant) : Request → Prop
  | .keep id | .addPoint id .. | .removePoint id _ => p.isHeld id = true
  | .release id => id ∈ p.kept
  | .addStation _ | .removeStation _ | .vacate _ => True

instance (p : Plant) : (r : Request) → Decidable (r.Possible p)
  | .keep id | .addPoint id .. | .removePoint id _ => inferInstanceAs (Decidable (p.isHeld id = _))
  | .release id => inferInstanceAs (Decidable (id ∈ p.kept))
  | .addStation _ | .removeStation _ | .vacate _ => .isTrue trivial

/-- The plant after a request; one that fails changes nothing. -/
def request (p : Plant) : Request → Plant
  | .addStation station =>
    match p.addStation station with
    | .ok (q, _) => q
    | .error _ => p
  | .removeStation station => (p.removeStation station).getD p
  | .keep id => p.keep id
  | .release id => p.release id
  | .addPoint id now spec =>
    match p.addPoint id now spec with
    | .ok (q, _) => q
    | .error _ => p
  | .removePoint id address => (p.removePoint id address).1
  | .vacate h => { p with points := p.points.remove h }

/-- Whether somebody still holds a station that one keeper lets go. -/
def survives (p : Plant) (id : StationId) : Bool := { p with kept := p.kept.erase id }.isHeld id

/-- The handles that a request gives up. -/
def given (p : Plant) : Request → List Handle
  | .removeStation station =>
    (p.find? station).elim [] fun id => (p.station id).points.values
  | .release id => if p.survives id then [] else (p.station id).points.values
  | .removePoint id address => (p.handle? id address).toList
  | .vacate h => [h]
  | _ => []

/-- Whether a request **strikes** the entry of a station at an address. -/
def Strikes (p : Plant) (id : StationId) (a : ObjectAddress) : Request → Prop
  | .removeStation station => p.find? station = some id
  | .release id' => id = id' ∧ p.survives id' = false
  | .removePoint id' a' => id = id' ∧ a = a'
  | _ => False

/-- Whether a request takes stations or points away by the stations that list them. -/
def Request.IsRemoval : Request → Prop
  | .removeStation _ | .release _ | .removePoint .. => True
  | _ => False

/-! ## What requests strike -/

/-- A station is held by the roster or by someone who keeps it. -/
theorem isHeld_iff : p.isHeld id = true ↔ (∃ ca, p.find? ca = some id) ∨ id ∈ p.kept := by
  rw [isHeld, Bool.or_eq_true, List.contains_iff_mem, List.contains_iff_mem, Table.mem_values]
  rfl

/-- What a station lists. -/
theorem mem_values_station : h ∈ (p.station id).points.values ↔ ∃ a, p.handle? id a = some h :=
  Table.mem_values _ h

/-- A station that gives up its points lists nothing, and the others list what they did. -/
theorem handle?_clear (p : Plant) (id id' : StationId) (a : ObjectAddress) :
    (p.clear id).handle? id' a = if id' = id then none else p.handle? id' a := by
  show ((p.modifyStation id _).station id').handle? a = _
  rw [station_modifyStation]
  by_cases hid : id' = id
  · subst hid
    rw [if_pos rfl]
    split
    · rfl
    · rename_i hlt
      cases hh : (p.station id').handle? a with
      | none => rfl
      | some h => exact absurd ⟨rfl, lt_of_handle? hh⟩ hlt
  · rw [if_neg fun h => hid h.1.symm, if_neg hid]
    rfl

/-- A plant **sheds** handles and entries: it shrinks, these handles are given up, and just these
entries are struck. -/
structure Sheds (p q : Plant) (hs : List Handle) (E : StationId → ObjectAddress → Prop) : Prop
    extends Shrinks p q where
  given : q.points.registry = p.points.registry.removeAll hs
  handle?_iff : ∀ {id a h}, q.handle? id a = some h ↔ p.handle? id a = some h ∧ ¬ E id a
  covered : ∀ {id a h}, E id a → p.handle? id a = some h → h ∈ hs
  held : ∀ {id}, p.isHeld id = true → q.isHeld id = true ∨ ∀ a, q.handle? id a = none
  kept : ∀ {id}, id ∈ q.kept → p.isHeld id = true

namespace Sheds

variable {E : StationId → ObjectAddress → Prop}

/-- What resolves after handles were given up. -/
theorem resolve?_iff (hpq : p.Sheds q hs E) :
    q.points.resolve? h = some i ↔ p.points.resolve? h = some i ∧ h ∉ hs := by
  rw [PointStore.resolve?, hpq.given, Registry.get?_removeAll]
  by_cases hmem : h ∈ hs
  · simp [hmem]
  · rw [if_neg hmem]
    exact (and_iff_left hmem).symm

/-- Entries may be described in another way. -/
theorem congr {E' : StationId → ObjectAddress → Prop} (hpq : p.Sheds q hs E)
    (hE : ∀ id a, E' id a ↔ E id a) : p.Sheds q hs E' where
  toShrinks := hpq.toShrinks
  given := hpq.given
  handle?_iff {id a h} := by rw [hE, hpq.handle?_iff]
  covered he := hpq.covered ((hE _ _).mp he)
  held := hpq.held
  kept := hpq.kept

/-- Stations are listed and kept in another way, or handles are given up, but no entry is struck. -/
theorem of_handle?_eq (hpq : p.Shrinks q)
    (hgiven : q.points.registry = p.points.registry.removeAll hs)
    (hhandle : ∀ {id a}, q.handle? id a = p.handle? id a)
    (hheld : ∀ {id}, p.isHeld id = true → q.isHeld id = true)
    (hkept : ∀ {id}, id ∈ q.kept → p.isHeld id = true) : p.Sheds q hs fun _ _ => False where
  toShrinks := hpq
  given := hgiven
  handle?_iff {id a h} := by rw [hhandle, not_false_eq_true, and_true]
  covered he := he.elim
  held hold := .inl (hheld hold)
  kept := hkept

end Sheds

/-- A station that someone keeps is held. -/
theorem isHeld_of_mem_kept (hid : id ∈ p.kept) : p.isHeld id = true := isHeld_iff.mpr (.inr hid)

/-- Nothing is done. -/
theorem sheds_self (p : Plant) : p.Sheds p [] fun _ _ => False :=
  .of_handle?_eq (.refl p) rfl rfl (fun hheld => hheld) isHeld_of_mem_kept

/-- Giving up the points of a station strikes all of its entries and no other. -/
theorem sheds_clear {roster : Table CommonAddress StationId} {kept : List StationId}
    (hroster : ∀ {ca id'}, roster.find? ca = some id' → p.roster.find? ca = some id')
    (hkept : ∀ {id'}, id' ∈ kept → id' ∈ p.kept)
    (hheld : ∀ {id'}, id' ≠ id → p.isHeld id' = true →
      { p with roster, kept }.isHeld id' = true) :
    p.Sheds ({ p with roster, kept }.clear id) (p.station id).points.values
      fun id' _ => id' = id where
  toShrinks := by
    have hless : p.Shrinks { p with roster, kept } :=
      ⟨rfl, ⟨[], rfl⟩, rfl, fun _ => rfl, fun h => h, hroster⟩
    exact hless.trans (.clear _ id)
  given := rfl
  handle?_iff {id' a h} := by
    rw [handle?_clear]
    by_cases hid : id' = id
    · simp [hid]
    · rw [if_neg hid]
      exact (and_iff_left hid).symm
  covered {id' a h} hid hh := by
    subst hid
    exact mem_values_station.mpr ⟨a, hh⟩
  -- the station itself is not held any more, but has nothing left
  held {id'} hold := by
    by_cases hid : id' = id
    · exact .inr fun a => by rw [handle?_clear, if_pos hid]
    · exact .inl (hheld hid hold)
  kept hk := isHeld_of_mem_kept (hkept hk)

/-- Removing a station from the roster sheds its entries, even if someone keeps it. -/
theorem sheds_removeStation (p : Plant) (ca : CommonAddress) :
    p.Sheds (p.request (.removeStation ca)) (p.given (.removeStation ca))
      fun id _ => p.find? ca = some id := by
  cases hfind : p.find? ca with
  -- there is no such station
  | none =>
    have hq : p.request (.removeStation ca) = p := by
      rw [request, Plant.removeStation, hfind]
      rfl
    have hgiven : p.given (.removeStation ca) = [] := by rw [given, hfind]; rfl
    rw [hq, hgiven]
    exact p.sheds_self.congr fun id a => by simp
  -- the station leaves the roster with all of its points; other stations stay where they are
  | some id =>
    have hq : p.request (.removeStation ca) =
        { p with roster := p.roster.erase ca, kept := p.kept }.clear id := by
      rw [request, Plant.removeStation, hfind]
      rfl
    have hgiven : p.given (.removeStation ca) = (p.station id).points.values := by
      rw [given, hfind]
      rfl
    have herase {ca' : CommonAddress} {id' : StationId}
        (hf : (p.roster.erase ca).find? ca' = some id') : p.roster.find? ca' = some id' := by
      rw [Table.find?_erase] at hf
      split at hf
      · cases hf
      · exact hf
    have hclear : p.Sheds (p.request (.removeStation ca)) (p.station id).points.values
        fun id' _ => id' = id := by
      rw [hq]
      refine sheds_clear herase (fun hk => hk) fun {id'} hid hheld => ?_
      rcases isHeld_iff.mp hheld with ⟨ca', hca'⟩ | hmem
      · have hne : ca' ≠ ca := by
          rintro rfl
          rw [hfind] at hca'
          exact hid (Option.some.inj hca').symm
        exact isHeld_iff.mpr (.inl ⟨ca', (Table.find?_erase_of_ne _ hne).trans hca'⟩)
      · exact isHeld_of_mem_kept hmem
    rw [hgiven]
    exact hclear.congr fun id' a => by rw [Option.some.injEq, eq_comm]

/-- Other stations are held as before when a keeper lets one go. -/
theorem isHeld_erase (hid : id' ≠ id) (hheld : p.isHeld id' = true) :
    { p with kept := p.kept.erase id }.isHeld id' = true := by
  rcases isHeld_iff.mp hheld with hfind | hmem
  · exact isHeld_iff.mpr (.inl hfind)
  · exact isHeld_of_mem_kept ((List.mem_erase_of_ne hid).mpr hmem)

/-- Releasing a station sheds its entries, unless it survives. -/
theorem sheds_release (p : Plant) (id : StationId) :
    p.Sheds (p.request (.release id)) (p.given (.release id))
      fun id' _ => id' = id ∧ p.survives id = false := by
  have hq : p.request (.release id) = if p.survives id then { p with kept := p.kept.erase id }
      else { p with kept := p.kept.erase id }.clear id := by
    rw [request, release, abandon]
    rfl
  cases hsurvives : p.survives id with
  -- it is on the roster, or kept once more
  | true =>
    have hgiven : p.given (.release id) = [] := by rw [given, if_pos hsurvives]
    have hless : p.Shrinks { p with kept := p.kept.erase id } :=
      ⟨rfl, ⟨[], rfl⟩, rfl, fun _ => rfl, fun h => h, fun h => h⟩
    rw [hq, if_pos hsurvives, hgiven]
    refine (Sheds.of_handle?_eq hless rfl rfl (fun {id'} hheld => ?_) fun {id'} hk => ?_).congr
      fun id' a => by simp
    · by_cases hid : id' = id
      · rw [hid]
        exact hsurvives
      · exact isHeld_erase hid hheld
    · exact isHeld_of_mem_kept (List.mem_of_mem_erase hk)
  -- nobody has it any more
  | false =>
    have hgiven : p.given (.release id) = (p.station id).points.values := by
      rw [given, hsurvives]
      rfl
    rw [hq, hsurvives, if_neg (by simp), hgiven]
    exact (sheds_clear (fun hf => hf) (fun hk => List.mem_of_mem_erase hk) fun hid hheld =>
      isHeld_erase hid hheld).congr fun id' a => by simp

/-- Removing a point sheds its entry. -/
theorem sheds_removePoint (p : Plant) (id : StationId) (a : ObjectAddress) :
    p.Sheds (p.request (.removePoint id a)) (p.given (.removePoint id a))
      fun id' a' => id' = id ∧ a' = a := by
  cases hh : p.handle? id a with
  -- the address is not listed
  | none =>
    have hq : p.request (.removePoint id a) = p := by rw [request, Plant.removePoint, hh]
    have hgiven : p.given (.removePoint id a) = [] := by rw [given, hh]; rfl
    rw [hq, hgiven]
    refine ⟨.refl p, rfl, fun {id' a' h'} => ⟨fun hh' => ⟨hh', ?_⟩, And.left⟩,
      fun {id' a' h'} hE hh' => ?_, fun hheld => .inl hheld, isHeld_of_mem_kept⟩
    · rintro ⟨rfl, rfl⟩
      rw [hh] at hh'
      cases hh'
    · obtain ⟨rfl, rfl⟩ := hE
      rw [hh] at hh'
      cases hh'
  -- the entry is struck and its handle given up
  | some h =>
    have hgiven : p.given (.removePoint id a) = [h] := by rw [given, hh]; rfl
    have hq : p.request (.removePoint id a) =
        { p.modifyStation id fun s => { s with points := s.points.erase a } with
          points := p.points.remove h } := by rw [request, Plant.removePoint, hh]
    -- no other entry of a station is touched
    have hhandle (id' : StationId) (a' : ObjectAddress) :
        (p.request (.removePoint id a)).handle? id' a' =
          if id' = id ∧ a' = a then none else p.handle? id' a' := by
      rw [hq]
      show ((p.modifyStation id _).station id').handle? a' = _
      rw [station_modifyStation]
      by_cases hid : id' = id
      · subst hid
        rw [if_pos ⟨rfl, lt_of_handle? hh⟩, Station.handle?, Table.find?_erase]
        by_cases ha : a' = a
        · rw [if_pos (by rw [ha]), if_pos ⟨rfl, ha⟩]
        · rw [if_neg (rank_ne.mpr ha), if_neg fun h => ha h.2]
          rfl
      · rw [if_neg fun h => hid h.1.symm, if_neg fun h => hid h.1]
        rfl
    rw [hgiven]
    refine ⟨.removePoint p id a, by rw [hq]; rfl, fun {id' a' h'} => ?_,
      fun {id' a' h'} hE hh' => ?_, fun hheld => .inl (by rw [hq]; exact hheld), fun hk => ?_⟩
    · rw [hhandle]
      by_cases hE : id' = id ∧ a' = a
      · simp [hE]
      · rw [if_neg hE]
        exact (and_iff_left hE).symm
    · obtain ⟨rfl, rfl⟩ := hE
      rw [hh] at hh'
      exact List.mem_singleton.mpr (Option.some.inj hh').symm
    · rw [hq] at hk
      exact isHeld_of_mem_kept hk

/-- Whether a request may add something. -/
def Request.IsAddition : Request → Prop
  | .addStation _ | .addPoint .. => True
  | _ => False

/-- A request that adds nothing strikes entries, gives up their handles, and does nothing else. -/
theorem sheds_request (p : Plant) {r : Request} (hr : r.Possible p) (hadds : ¬ r.IsAddition) :
    p.Sheds (p.request r) (p.given r) fun id a => p.Strikes id a r := by
  cases r with
  | addStation | addPoint => exact absurd trivial hadds
  | keep id =>
    refine .of_handle?_eq ⟨rfl, ⟨[], rfl⟩, rfl, fun _ => rfl, fun h => h, fun h => h⟩ rfl rfl
      (fun {id'} hheld => ?_) fun {id'} hk => ?_
    · rcases isHeld_iff.mp hheld with hfind | hmem
      · exact isHeld_iff.mpr (.inl hfind)
      · exact isHeld_of_mem_kept (List.mem_cons_of_mem _ hmem)
    · rcases List.mem_cons.mp hk with rfl | hmem
      · exact hr
      · exact isHeld_of_mem_kept hmem
  | vacate h =>
    exact .of_handle?_eq ⟨rfl, ⟨[h], rfl⟩, rfl, fun _ => rfl, fun h => h, fun h => h⟩ rfl rfl
      (fun hheld => hheld) isHeld_of_mem_kept
  | removeStation ca => exact p.sheds_removeStation ca
  | release id => exact p.sheds_release id
  | removePoint id a => exact p.sheds_removePoint id a

/-- Unless a point is given up behind its station's back, handles are given up with the entries
that are struck. -/
theorem mem_given_iff (p : Plant) {r : Request} (hr : ∀ h, r ≠ .vacate h) :
    h ∈ p.given r ↔ ∃ id a, p.Strikes id a r ∧ p.handle? id a = some h := by
  -- one case for each request that gives points up
  cases r with
  | addStation | keep | addPoint => simp [given, Strikes]
  | vacate h' => exact absurd rfl (hr h')
  | removeStation ca =>
    simp only [given, Strikes]
    cases hfind : p.find? ca with
    | none => simp
    | some id =>
      show h ∈ (p.station id).points.values ↔ _
      rw [mem_values_station]
      constructor
      · rintro ⟨a, hh⟩
        exact ⟨id, a, rfl, hh⟩
      · rintro ⟨id', a, hid, hh⟩
        exact ⟨a, Option.some.inj hid ▸ hh⟩
  | release id =>
    simp only [given, Strikes]
    cases hsurvives : p.survives id with
    | true => simp
    | false =>
      rw [if_neg (by simp), mem_values_station]
      constructor
      · rintro ⟨a, hh⟩
        exact ⟨id, a, ⟨rfl, rfl⟩, hh⟩
      · rintro ⟨id', a, ⟨rfl, -⟩, hh⟩
        exact ⟨a, hh⟩
  | removePoint id a =>
    simp only [given, Strikes, Option.mem_toList]
    constructor
    · intro hh
      exact ⟨id, a, ⟨rfl, rfl⟩, hh⟩
    · rintro ⟨id', a', ⟨rfl, rfl⟩, hh⟩
      exact hh

/-! ## All entries of all stations -/

/-- An entry of a station as a **listing**: the station, an address and the handle there. -/
abbrev Listing := StationId × ObjectAddress × Handle

/-- All entries of all stations. -/
def entries (p : Plant) : List Listing :=
  (List.range p.stations.size).flatMap fun id => (p.station id).points.entries.map (id, ·)

/-- The entries of a plant are those of its stations. -/
theorem mem_entries : (id, a, h) ∈ p.entries ↔ p.handle? id a = some h := by
  have hentry (id' : StationId) (e : ObjectAddress × Handle) :
      e ∈ (p.station id').points.entries ↔ p.handle? id' e.1 = some e.2 :=
    Table.mem_iff_find? _ _ _
  simp only [entries, List.mem_flatMap, List.mem_range, List.mem_map, hentry]
  constructor
  · rintro ⟨id', -, e, he, heq⟩
    obtain ⟨rfl, rfl⟩ := Prod.mk.inj heq
    exact he
  · intro hh
    exact ⟨id, lt_of_handle? hh, (a, h), hh, rfl⟩

/-- No entry occurs twice. -/
theorem nodup_entries (p : Plant) : p.entries.Nodup := by
  refine List.nodup_flatMap.mpr ⟨fun id _ => ?_, List.nodup_range.imp fun {id id'} hne => ?_⟩
  · have hentries : (p.station id).points.entries.Nodup :=
      (p.station id).points.ascending.imp fun {e e'} hlt heq => by
        rw [heq] at hlt
        exact Nat.lt_irrefl _ hlt
    exact hentries.map fun e e' heq => (Prod.mk.inj heq).2
  · intro e he he'
    obtain ⟨_, -, rfl⟩ := List.mem_map.mp he
    obtain ⟨_, -, heq⟩ := List.mem_map.mp he'
    exact hne (Prod.mk.inj heq).1.symm

end Plant

end Telecontrol
