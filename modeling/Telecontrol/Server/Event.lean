import Telecontrol.Point.Store
import Telecontrol.Selection
import Telecontrol.Server.Notice
import Telecontrol.Transport

/-! # Events

A server keeps a **journal** of everything that happens at it: what it hands to the transport, which
callbacks it calls, what it reports, and the life of its selections. The journal is written, never
read, by the server itself. -/

namespace Telecontrol

/-- Why a selection is not held any more. -/
inductive SelectionEnd where
  /-- Its holder released it. -/
  | deactivated
  /-- It was executed, and the time for its release had come. -/
  | executed
  /-- Its timeout had passed when the sweep came. -/
  | expired
  /-- Its connection was closed. -/
  | closed
  /-- The server was stopped. -/
  | stopped
  deriving DecidableEq, Repr

/-- Something that happens at a server. -/
inductive Event where
  /-- A frame is handed to the transport. -/
  | sent (frame : Sent)
  /-- A connection is closed. -/
  | closed (connection : ConnectionId)
  /-- The server reports something. -/
  | notice (notice : Notice)
  /-- A callback of a point is called that is given nothing but the point. -/
  | called (kind : PointCallback) (station : CommonAddress) (address : ObjectAddress)
  /-- The receive callback of a point is called: what the point was before the command, its value
  and update time after it, and the cause and qualifier of the command. -/
  | received (station : CommonAddress) (address : ObjectAddress) (before : Snapshot) (value : Value)
      (updated : Option Int) (cause : Cause) (qualifier : UInt8)
  /-- A peer asks for a connection. -/
  | requested (peer : String)
  /-- A client sets the clock. -/
  | clockSet (peer : String) (time : Int)
  /-- A frame was rejected. -/
  | rejected (connection : ConnectionId) (reason : Rejection) (frame : WireFrame)
  /-- Octets were observed on a connection. -/
  | octets (sent : Bool) (connection : ConnectionId) (data : List UInt8)
  /-- A callback has sent its point. -/
  | transmitted (result : Except ServerError Bool)
  /-- A callback has removed a point; without a station there is no answer. -/
  | pointRemoved (result : Option Bool)
  /-- A client selected a point, or renewed its selection. -/
  | granted (selection : Selection)
  /-- A selection is not held any more. -/
  | ended (selection : Selection) (why : SelectionEnd)
  /-- A command was applied to a point: the client, the point, and the address of the command. -/
  | applied (connection : ConnectionId) (originator : Originator) (point : PointId)
      (station : CommonAddress) (address : ObjectAddress)

/-- An entry of a journal. -/
structure Entry where
  time : Int
  event : Event

end Telecontrol
