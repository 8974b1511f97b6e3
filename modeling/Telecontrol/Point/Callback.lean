import Telecontrol.Connection
import Telecontrol.Frame.Cause
import Telecontrol.Frame.Incoming

/-! # Callbacks

The application attaches **callbacks** to points and to the server. A callback is a list of
**actions**, carried out in order; some callbacks also give an answer. An action may reach back into
the server: it may send, remove points, report events of connections and hand in frames. -/

namespace Telecontrol

/-- One **action** of a callback. -/
inductive Action where
  /-- Write the value of the point the callback belongs to. -/
  | setValue (value : Value)
  /-- Write its quality. -/
  | setQuality (quality : Quality)
  /-- Change its report interval. -/
  | setReportInterval (ms : UInt64)
  /-- Send its value. -/
  | transmit (cause : Cause)
  /-- Remove a point of a station. -/
  | removePoint (station : CommonAddress) (address : ObjectAddress)
  /-- Report an event of a connection. -/
  | connection (connection : ConnectionId) (event : ConnectionEvent)
  /-- Hand in a frame. -/
  | inbound (connection : ConnectionId) (frame : WireFrame)
  /-- Stop the server. -/
  | stop
  /-- Give up: the rest of the callback and the task that runs it are abandoned. -/
  | panic (message : String)
  deriving DecidableEq, Repr

/-- What a callback answers to a command or a clock synchronisation. -/
inductive Answer where
  /-- Confirm positively. -/
  | success
  /-- Confirm negatively. -/
  | failure
  /-- Do not confirm. -/
  | none
  deriving DecidableEq, Repr, Inhabited

/-- A **callback**: actions, then an answer. -/
structure Callback where
  actions : List Action := []
  answer : Answer := .success
  deriving DecidableEq, Repr, Inhabited

/-- When a callback of a point is called. -/
inductive PointCallback where
  /-- After a command was applied. -/
  | receive
  /-- Before the value is read by a client. -/
  | beforeRead
  /-- Before a cyclic report. -/
  | beforeReport
  /-- When the timer of the point has run out. -/
  | timer
  deriving DecidableEq, Repr

/-- The callbacks of a point. -/
structure PointCallbacks where
  receive : Option Callback := none
  beforeRead : Option Callback := none
  beforeReport : Option Callback := none
  timer : Option Callback := none
  deriving DecidableEq, Repr, Inhabited

namespace PointCallbacks

/-- The callback of a kind. -/
def get? (c : PointCallbacks) : PointCallback → Option Callback
  | .receive => c.receive
  | .beforeRead => c.beforeRead
  | .beforeReport => c.beforeReport
  | .timer => c.timer

/-- Attach a callback. -/
def set (c : PointCallbacks) (kind : PointCallback) (callback : Callback) : PointCallbacks :=
  match kind with
  | .receive => { c with receive := some callback }
  | .beforeRead => { c with beforeRead := some callback }
  | .beforeReport => { c with beforeReport := some callback }
  | .timer => { c with timer := some callback }

end PointCallbacks

/-- Which peers may connect. -/
structure Admission where
  /-- Peers whose address begins so are refused. -/
  refused : Option String := none
  deriving DecidableEq, Repr, Inhabited

/-- Whether a peer may connect. -/
def Admission.admits (a : Admission) (peer : String) : Bool :=
  !a.refused.any fun start => start.isPrefixOf peer

/-- The callbacks of a server. -/
structure ServerCallbacks where
  /-- Decides on a connection request. -/
  admission : Option Admission := none
  /-- The answer to a clock synchronisation. -/
  clock : Option Answer := none
  /-- Called for every rejected frame. -/
  unexpected : Option (List Action) := none
  /-- Called for the octets received on a connection. -/
  received : Option (List Action) := none
  /-- Called for the octets sent on a connection. -/
  sent : Option (List Action) := none
  deriving DecidableEq, Repr, Inhabited

/-- The callback that observes the octets of a direction. -/
def ServerCallbacks.octets (c : ServerCallbacks) (sent : Bool) : Option (List Action) :=
  if sent then c.sent else c.received

end Telecontrol
