import Telecontrol.Frame.Incoming
import Telecontrol.Frame.Outgoing

/-! # The transport

The server hands frames to a **transport**: directly to one connection, or into the queue that every
active connection is served from. Frames that answer a frame go back as they came, with other flags.

A recording transport keeps every frame and knows parameters of connections; a counting transport
only counts. -/

namespace Telecontrol

/-- A frame handed to the transport. -/
inductive Sent where
  /-- To one connection, with high priority. -/
  | direct (connection : ConnectionId) (frame : Frame)
  /-- Back to the connection that sent it. -/
  | returned (connection : ConnectionId) (frame : WireFrame)
  /-- Into the queue for every active connection. -/
  | queued (frame : Frame)
  deriving DecidableEq, Repr

namespace Sent

/-- A frame in words. -/
def text : Sent → String
  | .direct c f => s!"direct {c.text} {f.type.name} {f.cause.text}"
  | .returned c f => s!"raw {c.text} {f.typeCode.toNat} {f.causeCode.toNat}"
  | .queued f => s!"queue {f.type.name} {f.cause.text}"

/-- Whether a frame went directly to a connection. -/
def isDirectTo (c : ConnectionId) : Sent → Bool
  | .direct d _ => d == c
  | _ => false

/-- Whether a frame went back to a connection. -/
def isReturnedTo (c : ConnectionId) : Sent → Bool
  | .returned d _ => d == c
  | _ => false

/-- Whether a frame went into the queue. -/
def isQueued : Sent → Bool
  | .queued _ => true
  | _ => false

end Sent

/-- What a recording transport remembers. -/
structure Recording where
  /-- The frames, the latest first. -/
  frames : List Sent := []
  /-- The connections closed, the latest first. -/
  closed : List ConnectionId := []
  originators : Table ConnectionId Originator := .empty
  peers : Table ConnectionId String := .empty

/-- A **transport**. -/
inductive Transport where
  | recording (record : Recording)
  /-- Counts the frames sent to connections and those queued. -/
  | counting (sent queued : Nat)

namespace Transport

/-- Hand a frame over. -/
def accept (t : Transport) (s : Sent) : Transport :=
  match t with
  | .recording r => .recording { r with frames := s :: r.frames }
  | .counting sent queued => if s.isQueued then .counting sent (queued + 1)
    else .counting (sent + 1) queued

/-- Close a connection. -/
def close (t : Transport) (c : ConnectionId) : Transport :=
  match t with
  | .recording r => .recording { r with closed := c :: r.closed }
  | t => t

/-- What the transport remembers; a counting transport remembers nothing. -/
def record : Transport → Recording
  | .recording r => r
  | .counting .. => {}

/-- Change what a recording transport remembers. -/
def mapRecord (t : Transport) (f : Recording → Recording) : Transport :=
  match t with
  | .recording r => .recording (f r)
  | t => t

/-- The originator address that belongs to a connection. -/
def originator? (t : Transport) (c : ConnectionId) : Option Originator :=
  t.record.originators.find? c

/-- The address of the peer of a connection. -/
def peer? (t : Transport) (c : ConnectionId) : Option String := t.record.peers.find? c

/-- Give a connection an originator address. -/
def setOriginator (t : Transport) (c : ConnectionId) (o : Originator) : Transport :=
  t.mapRecord fun r => { r with originators := r.originators.insert c o }

/-- Give a connection the address of its peer. -/
def setPeer (t : Transport) (c : ConnectionId) (peer : String) : Transport :=
  t.mapRecord fun r => { r with peers := r.peers.insert c peer }

/-- Forget frames and closed connections; the parameters of connections stay. -/
def forget (t : Transport) : Transport := t.mapRecord fun r => { r with frames := [], closed := [] }

/-- The numbers of frames sent and queued that a counting transport has counted. -/
def counts : Transport → Nat × Nat
  | .recording _ => (0, 0)
  | .counting sent queued => (sent, queued)

end Transport

end Telecontrol
