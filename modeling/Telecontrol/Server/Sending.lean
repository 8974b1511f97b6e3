import Telecontrol.Batch
import Telecontrol.Server.Basic

/-! # Sending

Everything a server sends. Frames that report something are only sent while the server runs and some
connection is active; answers to a frame go back to its connection in any case. Frames of low
priority and frames to no connection in particular go into the queue.

Main statement: `Server.send_eq_self` (a server that cannot send does nothing). -/

namespace Telecontrol

namespace Server

/-- Whether reports can be sent. -/
def canSend (s : Server) : Bool := s.running && 0 < s.connections.activeCount

/-- Hand a frame to the transport. -/
def handOver (s : Server) (f : Sent) : Server :=
  { s with transport := s.transport.accept f }.note (.sent f)

/-- Send a frame to a connection, or put it into the queue. -/
def deliver (s : Server) (f : Frame) (receiver : Option ConnectionId) : Server :=
  match receiver with
  | some c => s.handOver (if f.cause.isLowPriority then .queued f else .direct c f)
  | none => s.handOver (.queued f)

/-- Send a frame. A frame to a connection gets the originator address of the connection. The answer
says whether it was sent. -/
def send (s : Server) (f : Frame) (receiver : Option ConnectionId) : Server × Bool :=
  if s.canSend then
    let originator := (receiver.bind s.transport.originator?).getD f.originator
    (s.deliver { f with originator } receiver, true)
  else (s, false)

/-- The frame that carries one point. -/
def frameOf (s : Server) (p : Point) (cause : Cause) : Frame :=
  let bare : Frame := { type := p.type, cause, station := p.station }
  (bare.tryAdd (p.toObject s.now)).getD bare

/-- Send the value of a point. -/
def transmit (s : Server) (p : Point) (cause : Cause) (receiver : Option ConnectionId) :
    Server × Except ServerError Bool :=
  if p.type.isPointType then
    let (s, sent) := s.send (s.frameOf p cause) receiver
    (s, .ok sent)
  else (s, .error (.invalidArgument (.notTransmittable p.type)))

/-- Deliver several frames. -/
def deliverAll (s : Server) (fs : List Frame) (receiver : Option ConnectionId) : Server :=
  fs.foldl (fun s f => s.deliver f receiver) s

/-- The frames of a batch; points that fit in no frame are reported. -/
def buildBatch (s : Server) (b : Batch) (originator : Originator) : Server × List Frame :=
  let (frames, lost) := b.frames s.plant.points s.now originator
  ((b.type?.map fun type => lost.foldl (fun s a => s.report (.dropped type a)) s).getD s, frames)

/-- Send a batch. The answer is the number of frames. -/
def sendBatch (s : Server) (b : Batch) (receiver : Option ConnectionId) : Server × Nat :=
  if s.canSend && b.hasPoints s.plant.points then
    let originator := (receiver.bind s.transport.originator?).getD 0
    let (s, frames) := s.buildBatch b originator
    (s.deliverAll frames receiver, frames.length)
  else (s, 0)

/-- Send a frame back to the connection it came from. -/
def sendBack (s : Server) (c : ConnectionId) (f : WireFrame) : Server := s.handOver (.returned c f)

/-- Answer a frame: once, or once for every station when it was sent to all. -/
def reply (s : Server) (c : ConnectionId) (f : WireFrame) : Server :=
  if f.station = globalAddress then
    -- every station answers in its own name, in ascending order
    s.plant.roster.keys.foldl (fun s station => s.sendBack c { f with station }) s
  else s.sendBack c f

/-- Confirm a message. -/
def confirm (s : Server) (c : ConnectionId) (m : Message) (negative : Bool) : Server :=
  s.reply c (m.confirmation negative)

/-- End an activation. -/
def terminate (s : Server) (c : ConnectionId) (m : Message) : Server := s.reply c m.termination

/-- Tell the holder of a selection that it has expired without an execute. -/
def sendUnselect (s : Server) (held : Selection) : Server :=
  let value := do
    let id ← s.plant.find? held.station
    let point ← s.plant.pointId? id held.address
    return (← s.point? point).value
  let bare : Frame := {
    type := held.type
    cause := .activationTermination
    station := held.station
    originator := held.originator }
  let object := { address := held.address, value := value.getD .zero, select := true }
  s.handOver (.direct held.connection ((bare.tryAdd object).getD bare))

/-! ## Silence -/

/-- A server that cannot send leaves everything as it was. -/
theorem send_eq_self {s : Server} (h : s.canSend = false) (f : Frame)
    (receiver : Option ConnectionId) :
    s.send f receiver = (s, false) := by simp [send, h]

/-- A server that cannot send keeps a batch to itself. -/
theorem sendBatch_eq_self {s : Server} (h : s.canSend = false) (b : Batch)
    (receiver : Option ConnectionId) : s.sendBatch b receiver = (s, 0) := by simp [sendBatch, h]

end Server

end Telecontrol
