import Telecontrol.Frame.Address
import Telecontrol.Frame.TypeId
import Telecontrol.Task.Error

/-! # Errors

A caller that asks for something impossible gets a `ServerError`. Every error names its cause; the
wording is in one function per kind. Refusals that are part of the protocol, such as a select that
another client holds, are no errors: they are answers. -/

namespace Telecontrol

/-! ## Wrong arguments -/

/-- Why an argument was refused. -/
inductive ArgumentFault where
  /-- The type cannot be selected. -/
  | notSelectable (type : TypeId)
  /-- A selection would expire at once. -/
  | selectTimeoutZero
  /-- The global address belongs to no station. -/
  | globalStation
  /-- Points of this type do not exist. -/
  | notPointType (type : TypeId)
  /-- A command point does not report. -/
  | cyclicCommand (address : ObjectAddress)
  /-- The type is executed without a selection. -/
  | notSelectAndExecute (type : TypeId)
  /-- Auto-return has no point to return. -/
  | autoReturnWithoutRelated (address : ObjectAddress)
  /-- The handle does not resolve. -/
  | pointGone
  /-- Only monitoring points are sent in a batch. -/
  | notMonitoring (type : TypeId) (address : ObjectAddress)
  /-- The batch holds points of another type. -/
  | batchType (held given : TypeId)
  /-- The batch holds points of another station. -/
  | batchStation (held given : CommonAddress)
  /-- The batch already holds a point of this address. -/
  | batchAddress (address : ObjectAddress)
  /-- The type belongs to no point. -/
  | notTransmittable (type : TypeId)
  /-- A reason in the caller's words. -/
  | stated (reason : String)
  deriving DecidableEq, Repr

/-- The reason in words. -/
def ArgumentFault.text : ArgumentFault → String
  | .notSelectable type => s!"{type.name} cannot be selected"
  | .selectTimeoutZero => "select timeout must be positive"
  | .globalStation => s!"{globalAddress.toNat} is the global common address"
  | .notPointType type => s!"{type.name} is not a point type"
  | .cyclicCommand address => s!"cyclic report on command point {address.toNat}"
  | .notSelectAndExecute type => s!"{type.name} does not support select-and-execute"
  | .autoReturnWithoutRelated address =>
    s!"auto return on point {address.toNat} without related IOA"
  | .pointGone => "point no longer exists"
  | .notMonitoring type address =>
    s!"{type.name} at IOA {address.toNat} is not a monitoring point"
  | .batchType held given => s!"batch holds {held.name}, got {given.name}"
  | .batchStation held given => s!"batch holds station {held.toNat}, got {given.toNat}"
  | .batchAddress address => s!"IOA {address.toNat} already in batch"
  | .notTransmittable type => s!"cannot transmit {type.name}"
  | .stated reason => reason

/-! ## Numbers out of range -/

/-- Which number is out of range. -/
inductive RangeFault where
  /-- The duties would come too often. -/
  | tickRate (given minimum : Nat)
  /-- The address does not fit into three octets. -/
  | objectAddress (given : ObjectAddress)
  /-- A reason in the caller's words. -/
  | stated (reason : String)
  deriving DecidableEq, Repr

/-- The reason in words. -/
def RangeFault.text : RangeFault → String
  | .tickRate given minimum => s!"tick rate {given} ms below minimum {minimum} ms"
  | .objectAddress given => s!"IOA {given.toNat} exceeds {maxObjectAddress.toNat}"
  | .stated reason => reason

/-! ## Setting up the service -/

/-- Why a configuration could not be read. -/
inductive LoadFault where
  | noExtension
  | unsupportedFormat (extension : String)
  | fileNotFound (path : String)
  /-- The layers together are not a configuration. -/
  | notExtracted
  /-- The file alone is not a configuration. -/
  | fileNotExtracted
  /-- A reason in the caller's words. -/
  | stated (reason : String)
  deriving DecidableEq, Repr

/-- The reason in words. -/
def LoadFault.text : LoadFault → String
  | .noExtension => "Config file must have an extension"
  | .unsupportedFormat extension => "Unsupported config file format: " ++ extension
  | .fileNotFound path => "Config file not found: " ++ path
  | .notExtracted => "Failed to load configuration"
  | .fileNotExtracted => "Failed to load configuration from file"
  | .stated reason => reason

/-- What can fail before the service runs. -/
inductive SetupError where
  | config (fault : LoadFault)
  | logging (reason : String)
  | io (reason : String)
  deriving DecidableEq, Repr

/-- A setup error in words. -/
def SetupError.message : SetupError → String
  | .config fault => "Configuration error: " ++ fault.text
  | .logging reason => "Logging error: " ++ reason
  | .io reason => "IO error: " ++ reason

/-! ## Bad configurations -/

/-- What is wrong with a configuration. -/
inductive ConfigFault where
  | tickRate (given minimum : Nat)
  | selectTimeoutZero
  | reservedStation
  | duplicateStation (station : CommonAddress)
  | objectAddress (station : CommonAddress) (address : ObjectAddress)
  | duplicateAddress (station : CommonAddress) (address : ObjectAddress)
  | notPointType (station : CommonAddress) (type : TypeId) (address : ObjectAddress)
  | cyclicCommand (station : CommonAddress) (address : ObjectAddress)
  | notSelectAndExecute (station : CommonAddress) (type : TypeId) (address : ObjectAddress)
  | autoReturnWithoutRelated (station : CommonAddress) (address : ObjectAddress)
  | autoReturnType (station : CommonAddress) (related address : ObjectAddress) (type : TypeId)
  | autoReturnMissing (station : CommonAddress) (related address : ObjectAddress)
  /-- The service could not be set up. -/
  | setup (error : SetupError)
  /-- A reason in the caller's words. -/
  | stated (reason : String)
  deriving DecidableEq, Repr

/-- The reason in words. -/
def ConfigFault.text : ConfigFault → String
  | .tickRate given minimum => s!"tick_rate_ms {given} below minimum {minimum}"
  | .selectTimeoutZero => "select_timeout_ms must be positive"
  | .reservedStation =>
    s!"common address {globalAddress.toNat} is reserved for global addressing"
  | .duplicateStation station => s!"duplicate common address {station.toNat}"
  | .objectAddress station address =>
    s!"station {station.toNat}: IOA {address.toNat} exceeds {maxObjectAddress.toNat}"
  | .duplicateAddress station address =>
    s!"station {station.toNat}: duplicate IOA {address.toNat}"
  | .notPointType station type address =>
    s!"station {station.toNat}: {type.name} at IOA {address.toNat} is not a point type"
  | .cyclicCommand station address =>
    s!"station {station.toNat}: cyclic report on command point {address.toNat}"
  | .notSelectAndExecute station type address =>
    s!"station {station.toNat}: {type.name} at IOA {address.toNat} does not support " ++
      "select-and-execute"
  | .autoReturnWithoutRelated station address =>
    s!"station {station.toNat}: auto return on IOA {address.toNat} without related_ioa"
  | .autoReturnType station related address type =>
    s!"station {station.toNat}: auto return target {related.toNat} of IOA {address.toNat} is " ++
      type.name
  | .autoReturnMissing station related address =>
    s!"station {station.toNat}: auto return target {related.toNat} of IOA {address.toNat} " ++
      "does not exist"
  | .setup error => error.message
  | .stated reason => reason

/-! ## Errors of the server -/

/-- Everything a caller of the server can do wrong. -/
inductive ServerError where
  | invalidArgument (fault : ArgumentFault)
  | outOfRange (fault : RangeFault)
  | config (fault : ConfigFault)
  | stationExists (station : CommonAddress)
  | stationNotFound (station : CommonAddress)
  | pointExists (station : CommonAddress) (address : ObjectAddress)
  | task (error : TaskError)
  deriving DecidableEq, Repr

/-- An error in words. -/
def ServerError.message : ServerError → String
  | .invalidArgument fault => "Invalid argument: " ++ fault.text
  | .outOfRange fault => "Out of range: " ++ fault.text
  | .config fault => "Configuration error: " ++ fault.text
  | .stationExists station => s!"Station {station.toNat} already exists"
  | .stationNotFound station => s!"Station {station.toNat} not found"
  | .pointExists station address =>
    s!"Point {address.toNat} already exists in station {station.toNat}"
  | .task error => "Task executor error: " ++ error.message

end Telecontrol
