import Telecontrol.Station.Basic

/-! # The plant

The **plant** holds the stations of a server and their points. The **roster** lists the stations
that answer to a common address. A caller may **keep** a station; a station that was taken off the
roster lives on while somebody keeps it, and may still be given points. Nothing else lives on: a
station that is neither listed nor kept gives up its points.

Main statements: `Plant.addPoint_eq_ok_iff` (when a point is accepted and what is then changed) and
`Plant.addStation_eq_ok_iff`. -/

namespace Telecontrol

/-- The number of a station. -/
abbrev StationId := Nat

/-- The **plant**: stations and points. -/
structure Plant where
  /-- Every station that was ever made, by its number. -/
  stations : Array Station
  /-- The stations that answer to an address. -/
  roster : Table CommonAddress StationId
  /-- The stations that callers keep, once for each keeper. -/
  kept : List StationId
  points : PointStore

namespace Plant

/-- A plant without stations. -/
def empty : Plant := ⟨#[], .empty, [], .empty⟩

instance : Inhabited Plant := ⟨empty⟩

/-- A station by its number. -/
def station (p : Plant) (id : StationId) : Station := (p.stations[id]?).getD ⟨globalAddress, .empty⟩

/-- The station that answers to an address. -/
def find? (p : Plant) (address : CommonAddress) : Option StationId := p.roster.find? address

/-- The stations that answer to an address: all of them to the global one, in ascending order. -/
def addressed (p : Plant) (address : CommonAddress) : List StationId :=
  if address = globalAddress then p.roster.values else (p.find? address).toList

/-- Whether some station may answer to an address; the global one always counts. -/
def answersTo (p : Plant) (address : CommonAddress) : Bool :=
  address == globalAddress || p.roster.contains address

/-- The handle that a station lists at an address. -/
def handle? (p : Plant) (id : StationId) (address : ObjectAddress) : Option Handle :=
  (p.station id).handle? address

/-- The live point that a station lists at an address. -/
def pointId? (p : Plant) (id : StationId) (address : ObjectAddress) : Option PointId :=
  (p.handle? id address).bind p.points.resolve?

/-- The live points of a station, in the order of their addresses. -/
def livePoints (p : Plant) (id : StationId) : List Point :=
  (p.station id).points.values.filterMap p.points.get?

/-- Write to a station. -/
def modifyStation (p : Plant) (id : StationId) (f : Station → Station) : Plant :=
  { p with stations := p.stations.modify id f }

/-- Write to a point. -/
def modifyPoint (p : Plant) (id : PointId) (f : Point → Point) : Plant :=
  { p with points := p.points.modify id f }

/-- Add a station at an address that has none. -/
def addStation (p : Plant) (address : CommonAddress) : Except ServerError (Plant × StationId) :=
  if address = globalAddress then .error (.invalidArgument .globalStation)
  else if p.roster.contains address then .error (.stationExists address)
  else
    let id := p.stations.size
    .ok ({ p with
      stations := p.stations.push ⟨address, .empty⟩
      roster := p.roster.insert address id }, id)

/-- Give up every point of a station. -/
def clear (p : Plant) (id : StationId) : Plant :=
  { p.modifyStation id fun s => { s with points := .empty } with
    points := p.points.removeAll (p.station id).points.values }

/-- Take a station off the roster and give up its points. -/
def removeStation (p : Plant) (address : CommonAddress) : Option Plant :=
  (p.find? address).map fun id => { p with roster := p.roster.erase address }.clear id

/-- Whether a station is listed or kept. -/
def isHeld (p : Plant) (id : StationId) : Bool :=
  p.roster.values.contains id || p.kept.contains id

/-- Give up the points of a station that is neither listed nor kept. -/
def abandon (p : Plant) (id : StationId) : Plant := if p.isHeld id then p else p.clear id

/-- Keep a station. -/
def keep (p : Plant) (id : StationId) : Plant := { p with kept := id :: p.kept }

/-- Stop keeping a station. -/
def release (p : Plant) (id : StationId) : Plant := { p with kept := p.kept.erase id }.abandon id

/-- Take every station off the roster; those that are kept live on with their points. -/
def dissolve (p : Plant) : Plant :=
  p.roster.values.foldl abandon { p with roster := .empty }

/-- Make a point and list it in a station. -/
def enlist (p : Plant) (id : StationId) (now : Int) (spec : PointSpec) : Plant × Handle :=
  let (points, handle) := p.points.insert (.ofSpec (p.station id).address now spec)
  ({ p.modifyStation id fun s => { s with points := s.points.insert spec.address handle } with
    points }, handle)

/-- Add a point to a station. The address must not be listed, even by a handle that no longer
resolves. -/
def addPoint (p : Plant) (id : StationId) (now : Int) (spec : PointSpec) :
    Except ServerError (Plant × Handle) :=
  match spec.fault? with
  | some fault => .error fault
  | none =>
    if (p.station id).lists spec.address then
      .error (.pointExists (p.station id).address spec.address)
    else .ok (p.enlist id now spec)

/-- Remove the point that a station lists at an address. The answer is false when there was no live
point. -/
def removePoint (p : Plant) (id : StationId) (address : ObjectAddress) : Plant × Bool :=
  match p.handle? id address with
  | none => (p, false)
  -- the address is free afterwards, also when the point was gone before
  | some h =>
    ({ p.modifyStation id fun s => { s with points := s.points.erase address } with
      points := p.points.remove h }, p.points.contains h)

/-! ## When stations and points are accepted -/

/-- A station is accepted at an address of its own. -/
theorem addStation_eq_ok_iff (p q : Plant) (address : CommonAddress) (id : StationId) :
    p.addStation address = .ok (q, id) ↔
      address ≠ globalAddress ∧ p.roster.contains address = false ∧ id = p.stations.size ∧
        q = { p with
          stations := p.stations.push ⟨address, .empty⟩
          roster := p.roster.insert address id } := by
  unfold addStation
  split
  · rename_i h
    exact ⟨fun e => (by cases e), fun e => absurd h e.1⟩
  · rename_i h
    split
    · rename_i hc
      exact ⟨fun e => (by cases e), fun e => by rw [hc] at e; cases e.2.1⟩
    · rename_i hc
      constructor
      · intro e
        obtain ⟨rfl, rfl⟩ := Prod.mk.inj (Except.ok.inj e)
        exact ⟨h, by simpa using hc, rfl, rfl⟩
      · rintro ⟨_, _, rfl, rfl⟩
        rfl

/-- A point is accepted when it is admissible and its address is not listed. -/
theorem addPoint_eq_ok_iff (p q : Plant) (id : StationId) (now : Int) (spec : PointSpec)
    (h : Handle) :
    p.addPoint id now spec = .ok (q, h) ↔
      spec.Admissible ∧ (p.station id).lists spec.address = false ∧
        (q, h) = p.enlist id now spec := by
  unfold addPoint
  cases hf : spec.fault? with
  | some fault =>
    refine ⟨fun e => (by cases e), fun e => ?_⟩
    rw [(PointSpec.fault?_eq_none_iff spec).mpr e.1] at hf
    cases hf
  | none =>
    have hadm := (PointSpec.fault?_eq_none_iff spec).mp hf
    simp only
    split
    · rename_i hl
      exact ⟨fun e => (by cases e), fun e => by rw [hl] at e; cases e.2.1⟩
    · rename_i hl
      exact ⟨fun e => ⟨hadm, by simpa using hl, (Except.ok.inj e).symm⟩,
        fun e => congrArg _ e.2.2.symm⟩

end Plant

end Telecontrol
