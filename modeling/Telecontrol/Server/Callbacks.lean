import Telecontrol.Server.Connecting

/-! # Calling back

How a server calls the callbacks of its points and its own. An action may hand in a frame, so a
callback reaches all that frames can do; what happens to the frame is the parameter `inlet` here,
and the handling of frames ties the knot. -/

namespace Telecontrol

/-- What is done with a frame that comes in on a connection. -/
abbrev Inlet := ConnectionId → WireFrame → Act Unit

namespace Server

/-- Remove the point at an address of the station that answers to another; no answer without a
station. -/
def removePointAt (s : Server) (station : CommonAddress) (address : ObjectAddress) :
    Server × Option Bool :=
  match s.plant.find? station with
  | none => (s, none)
  | some id =>
    let (s, removed) := s.removePoint id address
    (s, some removed)

/-- Send a point by its number. -/
def transmitPoint (s : Server) (id : PointId) (cause : Cause) (receiver : Option ConnectionId) :
    Server × Option (Except ServerError Bool) :=
  match s.point? id with
  | none => (s, none)
  | some p =>
    let (s, result) := s.transmit p cause receiver
    (s, some result)

/-- Carry out an action of a callback that belongs to the point `own`, or to the server. -/
def perform (inlet : Inlet) (own : Option PointId) : Action → Act Unit
  | .setValue value => modify fun s =>
    own.elim s fun id => s.modifyPoint id (·.setValue s.now value)
  | .setQuality quality =>
    modify fun s => own.elim s fun id => s.modifyPoint id (·.setQuality quality)
  | .setReportInterval ms => modify fun s =>
    own.elim s fun id => s.modifyPoint id (·.setReportInterval ms)
  | .transmit cause => modify fun s =>
    match own.map fun id => s.transmitPoint id cause none with
    | some (s, some result) => s.note (.transmitted result)
    | _ => s
  | .removePoint station address => modify fun s =>
    let (s, result) := s.removePointAt station address
    s.note (.pointRemoved result)
  | .connection c e => modify (·.onConnectionEvent c e)
  | .inbound c f => inlet c f
  | .stop => modify stop
  | .panic message => throw ⟨message⟩

/-- Carry out the actions of a callback, in order. -/
def performAll (inlet : Inlet) (own : Option PointId) (actions : List Action) : Act Unit :=
  actions.forM (perform inlet own)

/-- Call a callback of a point that is given nothing but the point. -/
def call (inlet : Inlet) (kind : PointCallback) (id : PointId) : Act Unit := do
  let s ← get
  match s.point? id with
  | none => return
  | some p =>
    match p.callbacks.get? kind with
    | none => return
    | some callback =>
      modify (·.note (.called kind p.station p.address))
      performAll inlet id callback.actions

/-- Apply a command to a point and ask its receive callback for the answer; without a callback the
command succeeds. -/
def applyCommand (inlet : Inlet) (c : ConnectionId) (m : Message) (id : PointId) : Act Answer := do
  let s ← get
  match s.point? id with
  | none => return .success
  | some before =>
    -- the command is applied before the callback is asked, and stays applied if it refuses
    let after := before.apply s.now m
    let s := s.modifyPoint id fun p => p.apply s.now m
    set (s.note (.applied c m.originator id m.station m.address))
    match after.callbacks.receive with
    | none => return .success
    | some callback =>
      modify (·.note (.received after.station after.address before.snapshot after.value
        after.updated m.cause m.qualifier))
      performAll inlet id callback.actions
      return callback.answer

/-- Answer a frame that cannot be handled, and tell the application. -/
def reject (inlet : Inlet) (c : ConnectionId) (f : WireFrame) (why : Rejection) : Act Unit := do
  match why.answerCause with
  -- the answer to a frame for all stations is not repeated for each
  | some cause => modify (·.sendBack c (f.mirror cause))
  | none => pure ()
  let s ← get
  match s.callbacks.unexpected with
  | none => return
  | some actions =>
    set (s.note (.rejected c why f))
    performAll inlet none actions

end Server

end Telecontrol
