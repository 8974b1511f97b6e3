import Telecontrol.Config.Basic
import Telecontrol.Server.Connecting

/-! # Setting up a server

The stations and points of a configuration are added to a server in their order. The first that is
refused ends it; what was added before stays. -/

namespace Telecontrol

/-- Add points to a station of a server, up to the first that is refused. -/
def PointConfig.addAll (s : Server) (id : StationId) :
    List PointConfig → Server × Option ServerError
  | [] => (s, none)
  | p :: rest =>
    match s.addPoint id p.spec with
    | .error e => (s, some e)
    | .ok s => addAll s id rest

/-- Add stations with their points, up to the first that is refused. -/
def StationConfig.addAll (s : Server) : List StationConfig → Server × Option ServerError
  | [] => (s, none)
  | c :: rest =>
    match s.addStation c.address with
    | .error e => (s, some e)
    | .ok (s, id) =>
      match PointConfig.addAll s id c.points with
      | (s, some e) => (s, some e)
      | (s, none) =>
        addAll (s.report (.stationConfigured c.address (s.plant.station id).size)) rest

/-- Set up the stations and points of a configuration. -/
def ServerConfig.build (c : ServerConfig) (s : Server) : Server × Option ServerError :=
  StationConfig.addAll s c.stations

end Telecontrol
