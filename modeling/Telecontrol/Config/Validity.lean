import Telecontrol.Config.Basic

/-! # Validity of configurations

A configuration is **valid** when a server can be set up as it says. The check goes through the
stations and points in order and reports the first fault; auto-returns are checked after the points
of their station, since a point may refer to a later one.

`ServerConfig.fault?` is the check, `ServerConfig.Valid` the condition it decides. -/

namespace Telecontrol

namespace PointConfig

/-- The first fault of a point, given the addresses of the points before it. -/
def fault? (station : CommonAddress) (earlier : List ObjectAddress) (p : PointConfig) :
    Option ConfigFault :=
  if maxObjectAddress < p.address then some (.objectAddress station p.address)
  else if p.address ∈ earlier then some (.duplicateAddress station p.address)
  else if !p.type.isPointType then some (.notPointType station p.type p.address)
  else if p.type.isCommand && 0 < p.reportInterval then some (.cyclicCommand station p.address)
  else if p.mode == .selectAndExecute && !p.type.isSelectable then
    some (.notSelectAndExecute station p.type p.address)
  else none

/-- What a point must be, whatever the others are. -/
structure Valid (p : PointConfig) : Prop where
  address_le : p.address ≤ maxObjectAddress
  isPointType : p.type.isPointType = true
  silent_of_isCommand : p.type.isCommand = true → p.reportInterval = 0
  isSelectable_of_mode : p.mode = .selectAndExecute → p.type.isSelectable = true

end PointConfig

namespace StationConfig

/-- The first fault of points, given the addresses of the points before them. -/
def pointsFault? (station : CommonAddress) (earlier : List ObjectAddress) :
    List PointConfig → Option ConfigFault
  | [] => none
  | p :: rest =>
    match p.fault? station earlier with
    | some fault => some fault
    | none => pointsFault? station (p.address :: earlier) rest

/-- The point at an address. -/
def find? (s : StationConfig) (address : ObjectAddress) : Option PointConfig :=
  s.points.find? fun p => p.address == address

/-- The fault of the auto-return of a point. -/
def returnFault? (s : StationConfig) (p : PointConfig) : Option ConfigFault :=
  if p.autoReturn then
    match p.related with
    | none => some (.autoReturnWithoutRelated s.address p.address)
    | some related =>
      match s.find? related with
      | none => some (.autoReturnMissing s.address related p.address)
      | some q =>
        if q.type.isMonitoring then none
        else some (.autoReturnType s.address related p.address q.type)
  else none

/-- The first fault of the points of a station. -/
def fault? (s : StationConfig) : Option ConfigFault :=
  match pointsFault? s.address [] s.points with
  | some fault => some fault
  | none => s.points.findSome? s.returnFault?

/-- Whether an auto-return leads to a monitoring point of the station. -/
def Returns (s : StationConfig) (p : PointConfig) : Prop :=
  ∃ related, p.related = some related ∧
    ∃ q ∈ s.points, q.address = related ∧ q.type.isMonitoring = true

/-- What the points of a station must be. -/
structure Valid (s : StationConfig) : Prop where
  point_valid : ∀ p ∈ s.points, p.Valid
  addresses_distinct : (s.points.map (·.address)).Nodup
  returns_of_autoReturn : ∀ p ∈ s.points, p.autoReturn = true → s.Returns p

end StationConfig

namespace ServerConfig

/-- The first fault of stations, given the addresses of the stations before them. -/
def stationsFault? (earlier : List CommonAddress) : List StationConfig → Option ConfigFault
  | [] => none
  | s :: rest =>
    if s.address = globalAddress then some .reservedStation
    else if s.address ∈ earlier then some (.duplicateStation s.address)
    else match s.fault? with
      | some fault => some fault
      | none => stationsFault? (s.address :: earlier) rest

/-- The first fault of a configuration, if there is one. -/
def fault? (c : ServerConfig) : Option ConfigFault :=
  if c.tickRate.toNat < minInterval then some (.tickRate c.tickRate.toNat minInterval)
  else if c.selectTimeout = 0 then some .selectTimeoutZero
  else stationsFault? [] c.stations

/-- What a configuration must be. -/
structure Valid (c : ServerConfig) : Prop where
  minInterval_le : minInterval ≤ c.tickRate.toNat
  selectTimeout_ne_zero : c.selectTimeout ≠ 0
  stations_distinct : (c.stations.map (·.address)).Nodup
  station_ne_global : ∀ s ∈ c.stations, s.address ≠ globalAddress
  station_valid : ∀ s ∈ c.stations, s.Valid

end ServerConfig

end Telecontrol
