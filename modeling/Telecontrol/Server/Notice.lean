import Telecontrol.Connection
import Telecontrol.Error
import Telecontrol.Task.Notice

/-! # Notices of a server

What a server reports about itself in the log. -/

namespace Telecontrol

/-- A report of a server. -/
inductive Notice where
  /-- A report of the server's executor. -/
  | task (notice : TaskNotice)
  | started (tickRate : Nat)
  | stopped
  | stationAdded (station : CommonAddress)
  | stationRemoved (station : CommonAddress)
  /-- A station was set up with its points. -/
  | stationConfigured (station : CommonAddress) (points : Nat)
  | connection (connection : ConnectionId) (event : ConnectionEvent) (active : Nat)
  /-- A peer was refused because `limit` connections are open. -/
  | peerRefused (peer : String) (limit : Nat)
  | readFailed (address : ObjectAddress) (error : ServerError)
  | selectRejected (address : ObjectAddress) (error : ServerError)
  | returnFailed (address : ObjectAddress) (error : ServerError)
  /-- A point was left out of an answer to an interrogation. -/
  | skipped (address : ObjectAddress) (error : ServerError)
  /-- A point of a batch fits in no frame. -/
  | dropped (type : TypeId) (address : ObjectAddress)
  deriving DecidableEq, Repr

namespace Notice

/-- The level of a report. -/
def level : Notice → Level
  | .task notice => notice.level
  | .started _ | .stopped | .stationAdded _ | .stationRemoved _ | .stationConfigured ..
  | .connection .. => .info
  | .peerRefused .. | .readFailed .. | .selectRejected .. | .returnFailed .. | .skipped ..
  | .dropped .. => .warn

/-- The part of the program that reports, as log lines name it. -/
def target : Notice → String
  | .task _ => "voltage_tasks::executor"
  | .started _ | .stopped | .stationAdded _ | .stationRemoved _ => "iecsrv::server"
  | .stationConfigured .. => "iecsrv::config"
  | .connection .. | .peerRefused .. | .readFailed .. | .selectRejected .. | .returnFailed .. =>
    "iecsrv::server::handlers"
  | .skipped .. => "iecsrv::server::outbound"
  | .dropped .. => "iecsrv::batch"

/-- A report in words. -/
def text : Notice → String
  | .task notice => notice.text
  | .started tickRate => s!"Server started, tick rate {tickRate} ms"
  | .stopped => "Server stopped"
  | .stationAdded station => s!"Station {station.toNat} added"
  | .stationRemoved station => s!"Station {station.toNat} removed"
  | .stationConfigured station points =>
    s!"Station {station.toNat} configured with {points} points"
  | .connection c event active =>
    s!"{c.text} {event.name}, active connections: {active}"
  | .peerRefused peer limit => s!"Connection from {peer} refused: {limit} connections open"
  | .readFailed address error =>
    s!"Read response for IOA {address.toNat} failed: " ++ error.message
  | .selectRejected address error => s!"Select on IOA {address.toNat} rejected: " ++ error.message
  | .returnFailed address error => s!"Auto return of IOA {address.toNat} failed: " ++ error.message
  | .skipped address error =>
    s!"Skipped IOA {address.toNat} in interrogation response: " ++ error.message
  | .dropped type address =>
    s!"Dropped {type.name} at IOA {address.toNat}: does not fit into an empty ASDU"

end Notice

end Telecontrol
