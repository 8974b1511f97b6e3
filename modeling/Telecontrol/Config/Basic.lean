import Telecontrol.Log.Settings
import Telecontrol.Server.Basic

/-! # Configurations

A **configuration** says which stations and points a server has, and how the service around it runs.
It is only a wish: it may name an address twice, or a point of a type that no point has.

Main statement: `PointConfig.spec_autoReturn_eq_true_iff`, which says when a point described by a
configuration is returned after a command. -/

namespace Telecontrol

/-- A point as a configuration describes it. -/
structure PointConfig where
  address : ObjectAddress
  type : TypeId
  reportInterval : UInt64 := 0
  timerInterval : UInt64 := 0
  mode : CommandMode := .direct
  related : Option ObjectAddress := none
  autoReturn : Bool := false
  deriving DecidableEq, Repr

/-- A station as a configuration describes it. -/
structure StationConfig where
  address : CommonAddress
  points : List PointConfig := []
  deriving DecidableEq, Repr

/-- The **configuration** of a server. -/
structure ServerConfig where
  /-- The address at which clients would be awaited. -/
  bindAddress : String := "0.0.0.0"
  port : UInt16 := 2404
  /-- The interval of the periodic duties, in milliseconds. -/
  tickRate : UInt64 := 100
  /-- How long a selection lives, in milliseconds. -/
  selectTimeout : UInt64 := 10000
  /-- How many connections may be open; zero means any number. -/
  maxOpen : UInt64 := 0
  logging : LogSettings := { fileStem := "iecsrv" }
  stations : List StationConfig := []
  deriving DecidableEq, Repr

namespace PointConfig

/-- What a station is told about a point. Without a related point there is none to return. -/
def spec (c : PointConfig) : PointSpec where
  address := c.address
  type := c.type
  reportInterval := c.reportInterval
  timerInterval := c.timerInterval
  mode := c.mode
  related := c.related
  autoReturn := c.related.isSome && c.autoReturn

/-- A point of a configuration returns by itself exactly when it has a related point and was told
to. -/
theorem spec_autoReturn_eq_true_iff (c : PointConfig) :
    c.spec.autoReturn = true ↔ c.related.isSome = true ∧ c.autoReturn = true := by
  simp [spec]

end PointConfig

namespace ServerConfig

/-- The parameters of the server. -/
def options (c : ServerConfig) : Options where
  tickRate := c.tickRate.toNat
  selectTimeout := c.selectTimeout.toNat
  maxOpen := c.maxOpen.toNat

/-- The number of points in all stations. -/
def pointCount (c : ServerConfig) : Nat :=
  c.stations.foldl (fun n s => n + s.points.length) 0

end ServerConfig

end Telecontrol
