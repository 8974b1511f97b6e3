import Telecontrol.Error
import Telecontrol.Log.Level
import Telecontrol.Text.Quoted

/-! # Errors at the service boundary

Where a service ends with a failure it reports a `ServiceError`. Every error, of the server or of
the service, has a stable **code** for logs and a **category**, which decides the level at which it
is reported. -/

namespace Telecontrol

/-- What kind of failure an error is. -/
inductive ErrorCategory where
  | configuration
  | validation
  | notFound
  | conflict
  | scheduling
  | internal
  | unknown
  deriving DecidableEq, Repr

namespace ErrorCategory

/-- The name of a category. -/
def name : ErrorCategory → String
  | .configuration => "Configuration"
  | .validation => "Validation"
  | .notFound => "NotFound"
  | .conflict => "Conflict"
  | .scheduling => "Scheduling"
  | .internal => "Internal"
  | .unknown => "Unknown"

/-- The level at which errors of a category are reported. -/
def level : ErrorCategory → Level
  | .internal | .scheduling => .error
  | .validation | .notFound => .info
  | .configuration | .conflict | .unknown => .warn

end ErrorCategory

/-! ## Errors of the server -/

namespace ServerError

/-- The code of a server error. -/
def code : ServerError → String
  | .invalidArgument _ => "IECSRV_INVALID_ARGUMENT"
  | .outOfRange _ => "IECSRV_OUT_OF_RANGE"
  | .config _ => "IECSRV_CONFIG_ERROR"
  | .stationExists _ => "IECSRV_STATION_EXISTS"
  | .stationNotFound _ => "IECSRV_STATION_NOT_FOUND"
  | .pointExists .. => "IECSRV_POINT_EXISTS"
  | .task _ => "IECSRV_TASK_ERROR"

/-- The category of a server error. -/
def category : ServerError → ErrorCategory
  | .invalidArgument _ | .outOfRange _ => .validation
  | .config _ => .configuration
  | .stationExists _ | .pointExists .. => .conflict
  | .stationNotFound _ => .notFound
  | .task _ => .scheduling

end ServerError

/-! ## Errors of the service -/

/-- An error with which a service ends. -/
inductive ServiceError where
  | configuration (reason : String)
  | validation (reason : String)
  | stationNotFound (station : String)
  | pointNotFound (station : CommonAddress) (address : ObjectAddress)
  | alreadyExists (what : String)
  | scheduling (reason : String)
  | startupFailed (reason : String)
  | io (reason : String)
  | internal (reason : String)
  | other (reason : String)
  deriving DecidableEq, Repr

namespace ServiceError

/-- An error in words. -/
def message : ServiceError → String
  | .configuration reason => "Configuration error: " ++ reason
  | .validation reason => "Validation failed: " ++ reason
  | .stationNotFound station => "Station not found: " ++ station
  | .pointNotFound station address => s!"Point not found: {station.toNat}:{address.toNat}"
  | .alreadyExists what => "Resource already exists: " ++ what
  | .scheduling reason => "Scheduling error: " ++ reason
  | .startupFailed reason => "Service startup failed: " ++ reason
  | .io reason => "IO error: " ++ reason
  | .internal reason => "Internal error: " ++ reason
  | .other reason => reason

/-- The code of a service error. -/
def code : ServiceError → String
  | .configuration _ => "CONFIGURATION_ERROR"
  | .validation _ => "VALIDATION_ERROR"
  | .stationNotFound _ => "STATION_NOT_FOUND"
  | .pointNotFound .. => "POINT_NOT_FOUND"
  | .alreadyExists _ => "ALREADY_EXISTS"
  | .scheduling _ => "SCHEDULING_ERROR"
  | .startupFailed _ => "STARTUP_FAILED"
  | .io _ => "IO_ERROR"
  | .internal _ => "INTERNAL_ERROR"
  | .other _ => "OTHER_ERROR"

/-- The category of a service error. -/
def category : ServiceError → ErrorCategory
  | .configuration _ => .configuration
  | .validation _ => .validation
  | .stationNotFound _ | .pointNotFound .. => .notFound
  | .alreadyExists _ => .conflict
  | .scheduling _ => .scheduling
  | .startupFailed _ | .io _ | .internal _ => .internal
  | .other _ => .unknown

/-- An error as the service writes it when it ends: its kind and what it is about. -/
def describe : ServiceError → String
  | .configuration reason => "Configuration(" ++ Quoted.text reason ++ ")"
  | .validation reason => "Validation(" ++ Quoted.text reason ++ ")"
  | .stationNotFound station => "StationNotFound(" ++ Quoted.text station ++ ")"
  | .pointNotFound station address =>
    s!"PointNotFound \x7b station: {station.toNat}, ioa: {address.toNat} \x7d"
  | .alreadyExists what => "AlreadyExists(" ++ Quoted.text what ++ ")"
  | .scheduling reason => "Scheduling(" ++ Quoted.text reason ++ ")"
  | .startupFailed reason => "StartupFailed(" ++ Quoted.text reason ++ ")"
  | .io reason => "Io(" ++ Quoted.text reason ++ ")"
  | .internal reason => "Internal(" ++ Quoted.text reason ++ ")"
  | .other reason => "Other(" ++ Quoted.text reason ++ ")"

/-- What a service makes of an error of the server. -/
def ofServerError : ServerError → ServiceError
  | .invalidArgument fault => .validation fault.text
  | .outOfRange fault => .validation fault.text
  | .config fault => .configuration fault.text
  | .stationExists station => .alreadyExists s!"station {station.toNat}"
  | .stationNotFound station => .stationNotFound (toString station.toNat)
  | .pointExists station address =>
    .alreadyExists s!"point {address.toNat} in station {station.toNat}"
  | .task error => .scheduling error.message

end ServiceError

end Telecontrol
